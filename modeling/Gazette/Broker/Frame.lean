import Gazette.Broker.Ownership

/-! What a step of one append does to the pipelines and to the other appends. Pipelines are
never dropped and keep their headers; each grows by calls of the stepping append only; and
since one append at a time holds the token, the send side of a pipeline is called only by
the append that holds it, so every other append sees only receive-side calls on its
pipeline. Invariants of the appends against the replica are proved once through
`Reachable.each`. -/

namespace Gazette.Broker

variable {σ : Type} {C : Collaborators σ} {i : Nat} {ρ ρ' : Run} {w w' : Replica σ}

/-- The calls on a pipeline's send side, which only the append holding it makes. -/
def Op.sendSide : Op → Bool
  | .scatter _ | .sendErr _ | .barrier _ _ | .closeSend | .gatherSync _ _ | .shutdown _ => true
  | .recvErr _ | .gatherOK | .gatherEOF | .close _ => false

theorem CallFacts.holding {q : Nat} {op : Op} (h : CallFacts ρ q op) (hs : op.sendSide = true) :
    Holding ρ.fsm ∧ ρ.fsm.pln = some q := by
  cases op with
  | scatter | barrier => exact ⟨h.1, h.2.1⟩
  | recvErr | gatherOK | gatherEOF | close => simp [Op.sendSide] at hs
  | _ => exact h

/-! ### The other appends -/

theorem getElem?_set_of_some {α : Type} {l : List α} {p : Nat} {x : α} (h : l[p]? = some x)
    (y : α) : (l.set p y)[p]? = some y :=
  List.getElem?_set_self (List.getElem?_eq_some_iff.mp h).1

/-- A property of the replica and of each append that holds at the start and that every step
keeps holds in every reachable state. -/
theorem Reachable.eachAt {start : System σ → Prop} {J : Replica σ → Prop}
    {I : Replica σ → Nat → Run → Prop}
    (hinit : ∀ s, start s → J s.replica ∧ ∀ j ρ, s.runs[j]? = some ρ → I s.replica j ρ)
    (hstep : ∀ (s : System σ) i ρ ρ' w', Reachable C start s → J s.replica →
      (∀ j ρ, s.runs[j]? = some ρ → I s.replica j ρ) → s.runs[i]? = some ρ →
      RunStep C i ρ s.replica ρ' w' →
      J w' ∧ I w' i ρ' ∧ ∀ j ρ₀, j ≠ i → s.runs[j]? = some ρ₀ → I w' j ρ₀)
    {s : System σ} (hs : Reachable C start s) :
    J s.replica ∧ ∀ j ρ, s.runs[j]? = some ρ → I s.replica j ρ := by
  induction hs with
  | init h => exact hinit _ h
  | step hr hst ih =>
    cases hst with | @run i _ _ _ hi h =>
    obtain ⟨hJ, hI, hothers⟩ := hstep _ _ _ _ _ hr ih.1 ih.2 hi h
    refine ⟨hJ, fun j ρ₀ hρ₀ => ?_⟩
    by_cases hij : j = i
    · subst hij
      rw [getElem?_set_of_some hi] at hρ₀
      cases hρ₀
      exact hI
    · rw [List.getElem?_set_ne (Ne.symm hij)] at hρ₀
      exact hothers j ρ₀ hij hρ₀

theorem Reachable.each {start : System σ → Prop} {J : Replica σ → Prop}
    {I : Replica σ → Run → Prop}
    (hinit : ∀ s, start s → J s.replica ∧ ∀ ρ ∈ s.runs, I s.replica ρ)
    (hstep : ∀ (s : System σ) i ρ ρ' w', Reachable C start s → J s.replica →
      (∀ ρ ∈ s.runs, I s.replica ρ) → s.runs[i]? = some ρ → RunStep C i ρ s.replica ρ' w' →
      J w' ∧ I w' ρ' ∧ ∀ j ρ₀, j ≠ i → s.runs[j]? = some ρ₀ → I w' ρ₀)
    {s : System σ} (hs : Reachable C start s) : J s.replica ∧ ∀ ρ ∈ s.runs, I s.replica ρ := by
  have hall {s : System σ} (h : ∀ j ρ, s.runs[j]? = some ρ → I s.replica ρ) :
      ∀ ρ ∈ s.runs, I s.replica ρ := fun ρ hρ =>
    let ⟨j, hj⟩ := List.mem_iff_getElem?.mp hρ
    h j ρ hj
  obtain ⟨hJ, hI⟩ := @Reachable.eachAt σ C start J (fun w _ ρ => I w ρ)
    (fun s h => ⟨(hinit s h).1, fun _ _ hj => (hinit s h).2 _ (List.getElem?_mem hj)⟩)
    (fun s i ρ ρ' w' hr hJ hI hi h => hstep s i ρ ρ' w' hr hJ (hall hI) hi h) s hs
  exact ⟨hJ, hall hI⟩

/-- At most one append holds the token. -/
theorem Reachable.holder_unique {s : System σ} (hs : Reachable C Initial s) {j : Nat}
    {ρ₁ ρ₂ : Run} (hi : s.runs[i]? = some ρ₁) (hj : s.runs[j]? = some ρ₂)
    (h₁ : ρ₁.fsm.plnReturnCh = true) (h₂ : ρ₂.fsm.plnReturnCh = true) : i = j := by
  by_contra hne
  let ρ₀ : Run := { ρ₁ with fsm := { ρ₁.fsm with plnReturnCh := false } }
  have hset : holders (s.runs.set i ρ₀) + 1 = holders s.runs := by
    simpa [h₁, ρ₀] using holders_set hi ρ₀
  have hpos : 0 < holders (s.runs.set i ρ₀) :=
    List.countP_pos_iff.mpr ⟨ρ₂, List.getElem?_mem (by rwa [List.getElem?_set_ne hne]), h₂⟩
  have htok := hs.tokens_eq_one
  simp only [tokens] at htok
  omega

theorem onStreamContent_keeps {d : Except Error AppendRequest} {failure : Option Error}
    {r : Resolution} {b b' : AppendFSM} {pl pl' : Pipeline σ} (hr : b.resolved = some r)
    (hok : r.status = .ok) (h : onStreamContent C i d failure b pl = some (b', pl')) :
    b'.pln = b.pln ∧ b'.plnReturnCh = b.plnReturnCh ∧
      (b'.state = .readAcknowledgements ∨ (b'.state = b.state ∧ b'.resolved = b.resolved)) := by
  obtain ⟨b'', pl'', heq, hcase⟩ := onStreamContent_cases C i d failure pl hr hok
  rw [h, Option.some.injEq, Prod.mk.injEq] at heq
  obtain ⟨rfl, rfl⟩ := heq
  rcases hcase with ⟨-, -, -, -, -, ⟨⟨_, _, _, rfl⟩, -⟩, -⟩ | ⟨-, -, -, ⟨⟨_, _, _, rfl⟩, -⟩, -⟩ |
    ⟨⟨_, _, _, _, _, rfl⟩, -⟩
  · exact ⟨rfl, rfl, .inr ⟨rfl, rfl⟩⟩
  · exact ⟨rfl, rfl, .inr ⟨rfl, rfl⟩⟩
  · exact ⟨rfl, rfl, .inl rfl⟩

/-! ### What a step does to the pipelines -/

theorem RunStep.length_le (h : RunStep C i ρ w ρ' w') :
    w.pipelines.length ≤ w'.pipelines.length := by
  have hnew {sel : Select σ} {r : Resolution} {b b' : AppendFSM} {w₀ w₁ : Replica σ}
      (h : startNewPipeline sel r b w₀ = (b', w₁)) :
      w₀.pipelines.length ≤ w₁.pipelines.length := by
    rcases startNewPipeline_cases h with ⟨_, -, rfl⟩ | ⟨rfl, -⟩ <;> simp
  cases h with
  | startPipeline _ _ _ h =>
    rcases onStartPipeline_cases h with ⟨r, -, ⟨_, _, -, -, -, -, rfl⟩ | ⟨-, h⟩ | ⟨_, _, -, -, -, h⟩⟩
    · exact le_rfl
    · exact hnew h
    · simpa using hnew h
  | _ => simp

theorem RunStep.extends (h : RunStep C i ρ w ρ' w') (hs : Shape ρ) {q : Nat} {pl : Pipeline σ}
    (hq : w.pipelines[q]? = some pl) :
    ∃ pl', w'.pipelines[q]? = some pl' ∧ ∃ new, Pipeline.Steps C pl new pl' ∧
      ∀ c ∈ new, c.run = i ∧ c.state = ρ.fsm.state ∧ CallFacts ρ q c.op := by
  have hlt := (List.getElem?_eq_some_iff.mp hq).1
  obtain ⟨pl', hpl'⟩ : ∃ pl', w'.pipelines[q]? = some pl' :=
    ⟨_, List.getElem?_eq_getElem (lt_of_lt_of_le hlt h.length_le)⟩
  rcases h.logs hs hpl' with ⟨pl₀, new, hpl₀, hsteps, hnew⟩ | ⟨rfl, -⟩
  · rw [hq] at hpl₀
    cases hpl₀
    exact ⟨pl', hpl', new, hsteps, hnew⟩
  · exact absurd hlt (lt_irrefl _)

/-- Every pipeline of `w` is still in `w'`, with its header. -/
def HeadersKept (w w' : Replica σ) : Prop :=
  ∀ (q : Nat) (pl : Pipeline σ), w.pipelines[q]? = some pl →
    ∃ pl', w'.pipelines[q]? = some pl' ∧ pl'.header = pl.header

theorem RunStep.headers (h : RunStep C i ρ w ρ' w') (hs : Shape ρ) : HeadersKept w w' :=
  fun _ _ hq =>
    let ⟨pl', hq', _, hsteps, _⟩ := h.extends hs hq
    ⟨pl', hq', hsteps.header⟩

/-- On a pipeline it does not hold, a step makes only receive-side calls. -/
theorem RunStep.frame (h : RunStep C i ρ w ρ' w') (hs : Shape ρ) {q : Nat} {pl : Pipeline σ}
    (hq : w.pipelines[q]? = some pl) (hnh : ρ.fsm.plnReturnCh = true → ρ.fsm.pln ≠ some q) :
    ∃ pl', w'.pipelines[q]? = some pl' ∧ pl'.header = pl.header ∧
      ∃ new, pl'.log = new ++ pl.log ∧ ∀ c ∈ new, c.op.sendSide = false := by
  obtain ⟨pl', hq', new, hsteps, hnew⟩ := h.extends hs hq
  refine ⟨pl', hq', hsteps.header, new, hsteps.log, fun c hc => ?_⟩
  by_contra hside
  obtain ⟨⟨hret, -⟩, hp⟩ := (hnew c hc).2.2.holding (by simpa using hside)
  exact hnh hret hp

end Gazette.Broker
