import Gazette.Broker.Barrier

/-! The order of the hand-offs on a pipeline. An append scatters its final, acknowledged
proposal from stateStreamContent and calls `barrier()` in `onReadAcknowledgements`, both
while it holds the send side; so on every pipeline the `barrier()`s come in the order of the
final proposals, each right after its own, with at most the newest proposal still waiting
for its `barrier()`. -/

namespace Gazette.Broker

variable {σ : Type} {C : Collaborators σ}

/-! ### The hand-offs of a log -/

/-- The hand-off a call makes: a final proposal (`false`) or its `barrier()` (`true`). -/
def Call.handoff (c : Call) : Option (Bool × Nat) :=
  match c.op with
  | .scatter req =>
    if c.state = .streamContent ∧ req.acknowledge = true then some (false, c.run) else none
  | .barrier _ _ => some (true, c.run)
  | _ => none

def handoffs (log : List Call) : List (Bool × Nat) := log.filterMap Call.handoff

theorem handoffs_append (l₁ l₂ : List Call) : handoffs (l₁ ++ l₂) = handoffs l₁ ++ handoffs l₂ :=
  List.filterMap_append _ _ _

theorem handoffs_eq_nil {l : List Call} (h : ∀ c ∈ l, c.handoff = none) : handoffs l = [] :=
  List.filterMap_eq_nil_iff.mpr h

/-- Hand-offs, newest first, each `barrier()` right after the final proposal of its append. -/
def Alternating : List (Bool × Nat) → Prop
  | [] => True
  | (true, r) :: (false, r') :: l => r = r' ∧ Alternating l
  | _ => False

/-- Alternating hand-offs, after at most one final proposal whose `barrier()` is to come. -/
def Turns (l : List (Bool × Nat)) : Prop :=
  Alternating l ∨ ∃ r l', l = (false, r) :: l' ∧ Alternating l'

theorem Turns.nil : Turns [] := .inl trivial

theorem Turns.alternating {l : List (Bool × Nat)} (h : Turns l)
    (hhead : ∀ r, l.head? ≠ some (false, r)) : Alternating l := by
  rcases h with h | ⟨r, l', rfl, -⟩
  exacts [h, absurd rfl (hhead r)]

theorem Alternating.propose {l : List (Bool × Nat)} (h : Alternating l) (r : Nat) :
    Turns ((false, r) :: l) :=
  .inr ⟨r, l, rfl, h⟩

theorem Turns.barrier {l : List (Bool × Nat)} (h : Turns l) {r : Nat}
    (hhead : l.head? = some (false, r)) : Turns ((true, r) :: l) := by
  rcases h with h | ⟨r', l', rfl, h⟩
  · obtain ⟨l', rfl⟩ : ∃ l', l = (false, r) :: l' := by
      cases l with
      | nil => cases hhead
      | cons a l' => exact ⟨l', by rw [Option.some.inj hhead]⟩
    simp [Alternating] at h
  · obtain rfl : r' = r := by simpa using hhead
    exact .inl ⟨rfl, h⟩

/-! ### What a step does to the hand-offs -/

section Steps

variable {i : Nat} {ρ ρ' : Run} {w w' : Replica σ}

theorem RunStep.handoffs_keep (h : RunStep C i ρ w ρ' w') (hs : Shape ρ) {q : Nat}
    {pl : Pipeline σ} (hq : w.pipelines[q]? = some pl)
    (hnh : ρ.fsm.plnReturnCh = true → ρ.fsm.pln = some q →
      ρ.fsm.state ≠ .streamContent ∧ ρ.fsm.state ≠ .readAcknowledgements) :
    ∃ pl', w'.pipelines[q]? = some pl' ∧ handoffs pl'.log = handoffs pl.log := by
  obtain ⟨pl', hq', new, hsteps, hnew⟩ := h.extends hs hq
  refine ⟨pl', hq', ?_⟩
  rw [hsteps.log, handoffs_append, handoffs_eq_nil fun c hc => ?_, List.nil_append]
  obtain ⟨-, hst, hf⟩ := hnew c hc
  cases hop : c.op <;> rw [hop] at hf <;> simp only [Call.handoff, hop] <;>
    simp only [CallFacts] at hf
  · obtain ⟨⟨hret, -⟩, hp, -⟩ := hf
    simp [hst, (hnh hret hp).1]
  · obtain ⟨⟨hret, -⟩, hp, hra⟩ := hf
    exact absurd hra (hnh hret hp).2

theorem StreamCalls.handoffs {r : Resolution} {pl pl' : Pipeline σ} {new : List Call}
    (h : StreamCalls C i r pl pl' new) (hun : Unacked new) : handoffs new = [] :=
  handoffs_eq_nil fun c hc => by
    obtain ⟨-, -, ⟨req, hop, -⟩ | ⟨e, hop⟩⟩ := h.send.calls c hc <;> simp [Call.handoff, hop]
    exact fun _ => hun c hc req hop

theorem onStreamContent_handoffs {d : Except Error AppendRequest} {failure : Option Error}
    {r : Resolution} {b b' : AppendFSM} {pl pl' : Pipeline σ} (hst : b.state = .streamContent)
    (hr : b.resolved = some r) (hok : r.status = .ok)
    (h : onStreamContent C i d failure b pl = some (b', pl')) :
    (b'.state = .streamContent ∧ handoffs pl'.log = handoffs pl.log) ∨
      (b'.state = .readAcknowledgements ∧ handoffs pl'.log = (false, i) :: handoffs pl.log) := by
  have hstays {b'' : AppendFSM} {pl'' : Pipeline σ} (hs : Stays C i r b b'' pl pl'') :
      b''.state = .streamContent ∧ handoffs pl''.log = handoffs pl.log := by
    refine ⟨hs.state.trans hst, ?_⟩
    obtain ⟨-, new, hcalls, hun⟩ := hs
    rw [hcalls.send.log, handoffs_append, hcalls.handoffs hun, List.nil_append]
  obtain ⟨b'', pl'', heq, hcase⟩ := onStreamContent_cases C i d failure pl hr hok
  rw [h, Option.some.injEq, Prod.mk.injEq] at heq
  obtain ⟨rfl, rfl⟩ := heq
  rcases hcase with ⟨-, -, -, -, -, hs, -⟩ | ⟨-, -, -, hs, -⟩ | hleaves
  · exact .inl (hstays hs)
  · exact .inl (hstays hs)
  · obtain ⟨req, rest, -, hcalls, hun, hack, -⟩ := hleaves.final
    refine .inr ⟨hleaves.state, ?_⟩
    have hrest : handoffs rest = [] := handoffs_eq_nil fun c hc => by
      obtain ⟨-, -, ⟨req', hop, -⟩ | ⟨e, hop⟩⟩ := hcalls.send.calls c (List.mem_cons_of_mem _ hc) <;>
        simp [Call.handoff, hop]
      exact fun _ => hun c hc req' hop
    rw [hcalls.send.log, List.cons_append, ← List.singleton_append, handoffs_append,
      handoffs_append, hrest]
    simp [handoffs, Call.handoff, hack]

theorem RunStep.of_streaming (h : RunStep C i ρ w ρ' w') (hs : Shape ρ) (hpc : ρ.pc = .running)
    (hst : ρ.fsm.state = .streamContent) :
    (w' = w ∧ ρ'.fsm = ρ.fsm ∧ ρ'.pc = ρ.pc) ∨
      ∃ p pl pl', ρ.fsm.pln = some p ∧ w.pipelines[p]? = some pl ∧
        w'.pipelines = w.pipelines.set p pl' ∧ ρ'.pc = .running ∧ ρ'.fsm.pln = ρ.fsm.pln ∧
        ((ρ'.fsm.state = .streamContent ∧ handoffs pl'.log = handoffs pl.log) ∨
          (ρ'.fsm.state = .readAcknowledgements ∧
            handoffs pl'.log = (false, i) :: handoffs pl.log)) := by
  obtain ⟨-, -, ⟨r, hr, hok, -⟩, -⟩ : ShapeAt .streamContent ρ := hst ▸ (Shape.running hpc).mp hs
  cases h with
  | chunk _ _ _ _ hp hpl h | tickIdle _ _ _ _ hp hpl h =>
    exact .inr ⟨_, _, _, hp, hpl, rfl, hpc, (onStreamContent_keeps hr hok h).1,
      onStreamContent_handoffs hst hr hok h⟩
  | tick => exact .inl ⟨rfl, rfl, rfl⟩
  | resolve _ _ hst' | acquirePipeline _ _ hst' | startPipeline _ _ hst'
  | sendPipelineSync _ hst' | recvPipelineSync _ _ _ _ _ hst' | updateAssignments _ _ _ hst'
  | awaitDesiredReplicas _ hst' | validateOffset _ _ _ hst'
  | releaseSendSide _ _ hst' => exact absurd (hst.symm.trans hst') (by decide)
  | passBarrier hpc' | readAcknowledgements _ hpc' => exact absurd (hpc.symm.trans hpc') nofun
  | exit _ hst' => rcases hst' with h | h | h <;> exact absurd (hst.symm.trans h) (by decide)

theorem RunStep.enters_readAcknowledgements (h : RunStep C i ρ w ρ' w') (hpc' : ρ'.pc = .running)
    (hst' : ρ'.fsm.state = .readAcknowledgements) :
    ρ.pc = .running ∧ ρ.fsm.state = .streamContent := by
  have hnew {sel : Select σ} {r : Resolution} {b b' : AppendFSM} {w₀ w₁ : Replica σ}
      (h : startNewPipeline sel r b w₀ = (b', w₁)) : b'.state ≠ .readAcknowledgements := by
    rcases startNewPipeline_cases h with ⟨_, rfl, -⟩ | ⟨-, ⟨e, rfl⟩ | rfl⟩ <;> nofun
  cases h with
  | chunk _ _ hpc hst | tickIdle _ hpc hst | tick hpc hst => exact ⟨hpc, hst⟩
  | releaseSendSide | passBarrier | exit => cases hpc'
  | readAcknowledgements _ _ _ _ h =>
    obtain ⟨e, rfl | rfl⟩ := readAcknowledgements_fsm h <;> cases hst'
  | resolve _ _ _ h =>
    rcases onResolve_cases h with
      ⟨-, ⟨e, rfl⟩ | ⟨r, -, rfl⟩ | ⟨r, -, -, -, rfl⟩ | ⟨r, -, -, -, rfl⟩⟩ | ⟨r, -, -, rfl, -⟩ <;>
      cases hst'
  | acquirePipeline _ _ _ h =>
    rcases onAcquirePipeline_cases h with ⟨v, -, ⟨e, rfl⟩ | rfl | rfl⟩ | ⟨-, ⟨e, rfl⟩ | rfl⟩ <;>
      cases hst'
  | startPipeline _ _ _ h =>
    rcases onStartPipeline_cases h with
      ⟨r, -, ⟨p, pl, -, -, -, rfl, -⟩ | ⟨-, h⟩ | ⟨p, pl, -, -, -, h⟩⟩
    · cases hst'
    · exact absurd hst' (hnew h)
    · exact absurd hst' (hnew h)
  | sendPipelineSync _ _ _ _ h =>
    obtain ⟨r, -, rfl, -⟩ := onSendPipelineSync_eq C h
    cases hst'
  | recvPipelineSync _ _ _ _ _ _ _ _ h =>
    rcases onRecvPipelineSync_cases h with ⟨e, -, rfl, -⟩ | ⟨-, -, ⟨-, rfl, -⟩ |
      ⟨-, -, rfl, -⟩ | ⟨-, -, rfl, -⟩⟩ <;> cases hst'
  | updateAssignments _ _ _ _ h =>
    rcases onUpdateAssignments_cases h with ⟨r, -, ⟨-, rfl⟩ | ⟨-, ⟨e, -, rfl⟩ | ⟨-, rfl⟩⟩⟩ <;>
      cases hst'
  | awaitDesiredReplicas _ _ h =>
    rcases onAwaitDesiredReplicas_cases h with ⟨r, -, ⟨-, rfl⟩ | ⟨-, rfl⟩ | ⟨-, -, rfl⟩ |
      ⟨-, -, rfl⟩⟩ <;> cases hst'
  | validateOffset _ _ _ _ _ _ h =>
    rcases onValidateOffset_cases C h with
      ⟨r, -, ⟨e, -, rfl⟩ | ⟨-, ⟨st, rfl⟩ | ⟨-, -, -, rfl⟩ | ⟨-, -, rfl⟩⟩⟩ <;> cases hst'

end Steps

/-! ### Every reachable state -/

/-- The hand-offs of every pipeline come in turns, and a final proposal waits for its
`barrier()` only while its append reads acknowledgements. -/
structure InTurn (s : System σ) : Prop where
  turns : ∀ (q : Nat) (pl : Pipeline σ), s.replica.pipelines[q]? = some pl →
    Turns (handoffs pl.log)
  owner : ∀ (q : Nat) (pl : Pipeline σ) (r : Nat), s.replica.pipelines[q]? = some pl →
    (handoffs pl.log).head? = some (false, r) → ∃ ρ, s.runs[r]? = some ρ ∧ ρ.pc = .running ∧
      ρ.fsm.state = .readAcknowledgements ∧ ρ.fsm.pln = some q
  pending : ∀ (j : Nat) (ρ : Run), s.runs[j]? = some ρ → ρ.pc = .running →
    ρ.fsm.state = .readAcknowledgements → ∃ q pl, ρ.fsm.pln = some q ∧
      s.replica.pipelines[q]? = some pl ∧ (handoffs pl.log).head? = some (false, j)

namespace InTurn

variable {s : System σ} {i : Nat} {ρ ρ' : Run} {w' : Replica σ}

theorem quiet (hI : InTurn s) (hi : s.runs[i]? = some ρ)
    (hkeep : ∀ (q : Nat) (pl : Pipeline σ), s.replica.pipelines[q]? = some pl →
      ∃ pl', w'.pipelines[q]? = some pl' ∧ handoffs pl'.log = handoffs pl.log)
    (hbuilt : ∀ (q : Nat) (pl' : Pipeline σ), w'.pipelines[q]? = some pl' →
      s.replica.pipelines[q]? = none → handoffs pl'.log = [])
    (hρ : ¬(ρ.pc = .running ∧ ρ.fsm.state = .readAcknowledgements))
    (hρ' : ¬(ρ'.pc = .running ∧ ρ'.fsm.state = .readAcknowledgements)) :
    InTurn ⟨w', s.runs.set i ρ'⟩ := by
  have hold {q : Nat} {pl' : Pipeline σ} (hq' : w'.pipelines[q]? = some pl')
      (hne : handoffs pl'.log ≠ []) :
      ∃ pl, s.replica.pipelines[q]? = some pl ∧ handoffs pl'.log = handoffs pl.log := by
    cases hq : s.replica.pipelines[q]? with
    | none => exact absurd (hbuilt q pl' hq' hq) hne
    | some pl =>
      obtain ⟨pl'', hq'', he⟩ := hkeep q pl hq
      rw [hq'] at hq''
      cases hq''
      exact ⟨pl, rfl, he⟩
  refine ⟨fun q pl' hq' => ?_, fun q pl' r hq' hhead => ?_, fun j ρ₀ hj hpc hst => ?_⟩
  · by_cases hne : handoffs pl'.log = []
    · rw [hne]
      exact Turns.nil
    · obtain ⟨pl, hq, he⟩ := hold hq' hne
      rw [he]
      exact hI.turns q pl hq
  · obtain ⟨pl, hq, he⟩ := hold hq' fun h => by rw [h] at hhead; cases hhead
    rw [he] at hhead
    obtain ⟨ρ₀, hr, hpc, hst, hp⟩ := hI.owner q pl r hq hhead
    have hri : r ≠ i := by
      rintro rfl
      rw [hi] at hr
      cases hr
      exact hρ ⟨hpc, hst⟩
    exact ⟨ρ₀, by rw [List.getElem?_set_ne (Ne.symm hri)]; exact hr, hpc, hst, hp⟩
  · rcases getElem?_set_cases hi hj with ⟨-, rfl⟩ | ⟨-, hj⟩
    · exact absurd ⟨hpc, hst⟩ hρ'
    · obtain ⟨q, pl, hp, hq, hhead⟩ := hI.pending j ρ₀ hj hpc hst
      obtain ⟨pl', hq', he⟩ := hkeep q pl hq
      exact ⟨q, pl', hp, hq', by rw [he]; exact hhead⟩

theorem stream (hI : InTurn s) (hi : s.runs[i]? = some ρ)
    (hnone : ∀ (r : Nat) (ρ₀ : Run), s.runs[r]? = some ρ₀ → ¬(ρ₀.pc = .running ∧
      ρ₀.fsm.state = .readAcknowledgements))
    {p : Nat} {pl pl' : Pipeline σ} (hp : ρ.fsm.pln = some p)
    (hpl : s.replica.pipelines[p]? = some pl) (hw : w'.pipelines = s.replica.pipelines.set p pl')
    (hpc' : ρ'.pc = .running) (hpln : ρ'.fsm.pln = ρ.fsm.pln)
    (hcase : (ρ'.fsm.state = .streamContent ∧ handoffs pl'.log = handoffs pl.log) ∨
      (ρ'.fsm.state = .readAcknowledgements ∧ handoffs pl'.log = (false, i) :: handoffs pl.log)) :
    InTurn ⟨w', s.runs.set i ρ'⟩ := by
  have hnohead {q : Nat} {pl₀ : Pipeline σ} (hq : s.replica.pipelines[q]? = some pl₀) (r : Nat) :
      (handoffs pl₀.log).head? ≠ some (false, r) := fun hhead =>
    let ⟨ρ₀, hr, hpc, hst, _⟩ := hI.owner q pl₀ r hq hhead
    hnone r ρ₀ hr ⟨hpc, hst⟩
  have halt := (hI.turns p pl hpl).alternating (hnohead hpl)
  refine ⟨fun q pl'' hq' => ?_, fun q pl'' r hq' hhead => ?_, fun j ρ₀ hj hpc hst => ?_⟩
  · rw [hw] at hq'
    rcases getElem?_set_cases hpl hq' with ⟨-, rfl⟩ | ⟨-, hq⟩
    · rcases hcase with ⟨-, he⟩ | ⟨-, he⟩ <;> rw [he]
      exacts [.inl halt, halt.propose i]
    · exact hI.turns q pl'' hq
  · rw [hw] at hq'
    rcases getElem?_set_cases hpl hq' with ⟨rfl, rfl⟩ | ⟨-, hq⟩
    · rcases hcase with ⟨-, he⟩ | ⟨hst', he⟩ <;> rw [he] at hhead
      · exact absurd hhead (hnohead hpl r)
      · cases hhead
        exact ⟨ρ', getElem?_set_of_some hi _, hpc', hst', hpln.trans hp⟩
    · exact absurd hhead (hnohead hq r)
  · rcases getElem?_set_cases hi hj with ⟨rfl, rfl⟩ | ⟨-, hj⟩
    · rcases hcase with ⟨hst', -⟩ | ⟨-, he⟩
      · rw [hst'] at hst
        cases hst
      · exact ⟨p, pl', hpln.trans hp, hw ▸ getElem?_set_of_some hpl _, by rw [he]; rfl⟩
    · exact absurd ⟨hpc, hst⟩ (hnone j ρ₀ hj)

theorem release (hI : InTurn s) (hi : s.runs[i]? = some ρ) (hpc : ρ.pc = .running)
    (hst : ρ.fsm.state = .readAcknowledgements) {p : Nat} {pl pl' : Pipeline σ}
    (hp : ρ.fsm.pln = some p) (hpl : s.replica.pipelines[p]? = some pl)
    (hw : w'.pipelines = s.replica.pipelines.set p pl') (hpc' : ρ'.pc ≠ .running)
    (he : handoffs pl'.log = (true, i) :: handoffs pl.log) :
    InTurn ⟨w', s.runs.set i ρ'⟩ := by
  have hhead : (handoffs pl.log).head? = some (false, i) := by
    obtain ⟨q, pl₀, hq, hq', hhead⟩ := hI.pending i ρ hi hpc hst
    rw [hp] at hq
    cases hq
    rw [hpl] at hq'
    cases hq'
    exact hhead
  refine ⟨fun q pl'' hq' => ?_, fun q pl'' r hq' hhead' => ?_, fun j ρ₀ hj hpc₀ hst₀ => ?_⟩
  · rw [hw] at hq'
    rcases getElem?_set_cases hpl hq' with ⟨-, rfl⟩ | ⟨-, hq⟩
    · rw [he]
      exact (hI.turns p pl hpl).barrier hhead
    · exact hI.turns q pl'' hq
  · rw [hw] at hq'
    rcases getElem?_set_cases hpl hq' with ⟨-, rfl⟩ | ⟨hqp, hq⟩
    · rw [he] at hhead'
      cases hhead'
    · obtain ⟨ρ₀, hr, hpc₀, hst₀, hq₀⟩ := hI.owner q pl'' r hq hhead'
      have hri : r ≠ i := by
        rintro rfl
        rw [hi] at hr
        cases hr
        rw [hp] at hq₀
        exact hqp (Option.some.inj hq₀).symm
      exact ⟨ρ₀, by rw [List.getElem?_set_ne (Ne.symm hri)]; exact hr, hpc₀, hst₀, hq₀⟩
  · rcases getElem?_set_cases hi hj with ⟨-, rfl⟩ | ⟨hji, hj⟩
    · exact absurd hpc₀ hpc'
    · obtain ⟨q, pl₀, hq, hq', hhead₀⟩ := hI.pending j ρ₀ hj hpc₀ hst₀
      have hqp : q ≠ p := by
        rintro rfl
        rw [hpl] at hq'
        cases hq'
        rw [hhead] at hhead₀
        cases hhead₀
        exact hji rfl
      exact ⟨q, pl₀, hq, by rw [hw, List.getElem?_set_ne (Ne.symm hqp)]; exact hq', hhead₀⟩

end InTurn

/-- On a replica `newReplica` made, the hand-offs of every pipeline come in turns. -/
theorem Reachable.inTurn {s : System σ} (hs : Reachable C NewReplica s) : InTurn s := by
  induction hs with
  | init h =>
    refine ⟨fun q pl hq => by simp [h.2] at hq, fun q pl r hq => by simp [h.2] at hq,
      fun j ρ hj hpc hst => ?_⟩
    rw [h.1.runs ρ (List.getElem?_mem hj)] at hst
    cases hst
  | @step s₀ _ hr hstep ih =>
    cases hstep with | @run i ρ ρ' w' hi h =>
    have hr' : Reachable C Initial _ := hr.mono fun _ h => h.1
    have hsh := hr'.shape ρ (List.getElem?_mem hi)
    by_cases hstr : ρ.pc = .running ∧ ρ.fsm.state = .streamContent
    · have hnone : ∀ (r : Nat) (ρ₀ : Run), s₀.runs[r]? = some ρ₀ → ¬(ρ₀.pc = .running ∧
          ρ₀.fsm.state = .readAcknowledgements) :=
        fun r ρ₀ hr₀ ⟨hpc₀, hst₀⟩ => by
          obtain ⟨⟨hret₀, -⟩, -⟩ : ShapeAt .readAcknowledgements ρ₀ :=
            hst₀ ▸ (Shape.running hpc₀).mp (hr'.shape ρ₀ (List.getElem?_mem hr₀))
          obtain ⟨⟨hret, -⟩, -⟩ : ShapeAt .streamContent ρ :=
            hstr.2 ▸ (Shape.running hstr.1).mp hsh
          obtain rfl := hr'.holder_unique hr₀ hi hret₀ hret
          rw [hi] at hr₀
          cases hr₀
          rw [hstr.2] at hst₀
          cases hst₀
      rcases h.of_streaming hsh hstr.1 hstr.2 with ⟨rfl, hfsm, hpc⟩ |
        ⟨p, pl, pl', hp, hpl, hw, hpc', hpln, hcase⟩
      · refine ih.quiet hi (fun q pl hq => ⟨pl, hq, rfl⟩) (fun q pl' hq' hq => ?_)
          (fun h => ?_) (fun h => ?_)
        · rw [hq'] at hq
          cases hq
        · rw [hstr.2] at h
          cases h.2
        · rw [hfsm, hstr.2] at h
          cases h.2
      · exact ih.stream hi hnone hp hpl hw hpc' hpln hcase
    by_cases hrel : ρ.pc = .running ∧ ρ.fsm.state = .readAcknowledgements
    · obtain ⟨p, pl, pl', new, e, hp, hpl, hw, -, hpc', hsteps, hnew, -⟩ :=
        h.of_releasing hsh hrel.1 hrel.2
      refine ih.release hi hrel.1 hrel.2 hp hpl hw (by rw [hpc']; nofun) ?_
      have hcs : handoffs new = [] :=
        handoffs_eq_nil fun c hc => by rw [hnew c hc]; rfl
      rw [hsteps.log, handoffs_append, handoffs_append, hcs, List.nil_append]
      simp [handoffs, Call.handoff]
    · refine ih.quiet hi (fun q pl hq => h.handoffs_keep hsh hq fun hret _ => ?_)
        (fun q pl' hq' hq => ?_) hrel fun ⟨hpc', hst'⟩ => hstr (h.enters_readAcknowledgements hpc' hst')
      · have hpc := hsh.running_of_holding hret
        exact ⟨fun h => hstr ⟨hpc, h⟩, fun h => hrel ⟨hpc, h⟩⟩
      · obtain ⟨_, _, rfl⟩ := h.built hsh hq' hq
        rfl

/-! ### The barrier chain of every pipeline -/

theorem Reachable.calls_by_runs {s : System σ} (hs : Reachable C NewReplica s) :
    ∀ (q : Nat) (pl : Pipeline σ), s.replica.pipelines[q]? = some pl → ∀ c ∈ pl.log,
      c.run < s.runs.length := by
  induction hs with
  | init h =>
    intro q pl hq
    simp [h.2] at hq
  | @step s₀ _ hr hstep ih =>
    cases hstep with | @run i ρ ρ' w' hi h =>
    have hsh := (hr.mono fun _ h => h.1).shape ρ (List.getElem?_mem hi)
    intro q pl' hq' c hc
    rw [List.length_set]
    cases hq : s₀.replica.pipelines[q]? with
    | none =>
      obtain ⟨_, _, rfl⟩ := h.built hsh hq' hq
      cases hc
    | some pl =>
      obtain ⟨pl'', hq'', new, hsteps, hnew⟩ := h.extends hsh hq
      rw [hq'] at hq''
      cases hq''
      rw [hsteps.log] at hc
      rcases List.mem_append.mp hc with hc | hc
      · rw [(hnew c hc).1]
        exact (List.getElem?_eq_some_iff.mp hi).1
      · exact ih q pl hq c hc

/-- On a replica `newReplica` made, in every interleaving: the appends call `barrier()` in the
order of their final proposals, and gather only in turn. -/
theorem barrier_chain {s : System σ} (hs : Reachable C NewReplica s) :
    ∀ (q : Nat) (pl : Pipeline σ), s.replica.pipelines[q]? = some pl →
      Turns (handoffs pl.log) ∧
      (∀ (i : Nat) (ρ ρ' : Run) (w' : Replica σ) (pl' : Pipeline σ) (new : List Call),
        s.runs[i]? = some ρ → RunStep C i ρ s.replica ρ' w' → w'.pipelines[q]? = some pl' →
        pl'.log = new ++ pl.log → (∃ c ∈ new, ∃ k k', c.op = .barrier k k') →
        ρ.fsm.plnReturnCh = true ∧ ρ.fsm.pln = some q ∧ ρ'.fsm.plnReturnCh = false ∧
          ∃ v, w'.pipelineCh = s.replica.pipelineCh ++ [v] ∧ (v = some q ∨ v = none)) ∧
      (∀ c l, c :: l <:+ pl.log → (c.op = .gatherOK ∨ c.op = .gatherEOF) →
        ∃ k, (⟨c.run, .readAcknowledgements, .barrier k (k + 1)⟩ : Call) ∈ l ∧
          ClosedBefore l (k + 1)) ∧
      (∀ (j₁ j₂ : Nat) (ρ₁ ρ₂ : Run) (k₁ k₂ : Nat) (e₁ e₂ : Option Error),
        s.runs[j₁]? = some ρ₁ → s.runs[j₂]? = some ρ₂ → ρ₁.fsm.pln = some q →
        ρ₂.fsm.pln = some q → ρ₁.pc = .gathering k₁ e₁ → ρ₂.pc = .gathering k₂ e₂ → j₁ = j₂) ∧
      (closings pl.log).Nodup ∧
      (∀ c ∈ pl.log, ∀ k, c.op = .close k → c.state = .readAcknowledgements ∧
        ∃ k₀, (⟨c.run, .readAcknowledgements, .barrier k₀ k⟩ : Call) ∈ pl.log) ∧
      (∀ c ∈ pl.log, ∀ k k', c.op = .barrier k k' → k' ∉ pl.closed → ∃ ρ e,
        s.runs[c.run]? = some ρ ∧ ρ.fsm.pln = some q ∧
          (ρ.pc = .awaitBarrier k k' e ∨ ρ.pc = .gathering k' e)) ∧
      (∀ k', k' ∈ taken pl.log → k' ∉ pl.closed → ∃ j ρ ρ' w', s.runs[j]? = some ρ ∧
        ρ.fsm.pln = some q ∧ RunStep C j ρ s.replica ρ' w' ∧
        ((∃ k e, ρ.pc = .awaitBarrier k (k + 1) e ∧ ρ'.pc = .gathering (k + 1) e) ∨
          ∃ k e pl', ρ.pc = .gathering k e ∧ w'.pipelines[q]? = some pl' ∧ k ∈ pl'.closed)) := by
  obtain ⟨hJ, hI⟩ := hs.chain
  have hsh := (hs.mono fun _ h => h.1).shape
  have hcloses {i k : Nat} {sendErr failure : Option Error} {b b' : AppendFSM}
      {pl pl' : Pipeline σ} (h : readAcknowledgements i k sendErr failure b pl = some (b', pl')) :
      k ∈ pl'.closed := by
    obtain ⟨rest, hsteps, -⟩ := readAcknowledgements_steps C h
    cases hsteps with
    | cons _ hstep =>
      cases hstep with
      | close => exact List.mem_cons_self _ _
      | record _ _ _ hop => cases hop
  intro q pl hq
  have hch := hJ q pl hq
  obtain ⟨c, -, hcl⟩ := hch.inOrder
  have hmem (k : Nat) : k ∈ pl.closed ↔ k ≤ c := by
    rw [hcl]
    simp only [List.mem_reverse, List.mem_range]
    omega
  have howes {b : Call} (hb : b ∈ pl.log) {k k' : Nat} (hop : b.op = .barrier k k')
      (hk' : k' ∉ pl.closed) : ∃ ρ e, s.runs[b.run]? = some ρ ∧ ρ.fsm.pln = some q ∧
        (ρ.pc = .awaitBarrier k k' e ∨ ρ.pc = .gathering k' e) := by
    obtain ⟨ρ, hρ⟩ : ∃ ρ, s.runs[b.run]? = some ρ :=
      ⟨_, List.getElem?_eq_getElem (hs.calls_by_runs q pl hq b hb)⟩
    obtain ⟨hp, e, he⟩ := (hI b.run ρ hρ).2 q pl hq b hb rfl k k' hop hk'
    exact ⟨ρ, e, hρ, hp, he⟩
  have hgathering {j : Nat} {ρ : Run} {k' : Nat} {e : Option Error} (hj : s.runs[j]? = some ρ)
      (hp : ρ.fsm.pln = some q) (hpc : ρ.pc = .gathering k' e) :
      (⟨j, .readAcknowledgements, .barrier c (c + 1)⟩ : Call) ∈ pl.log := by
    have hW := (hI j ρ hj).1
    simp only [Waiting, hpc] at hW
    obtain ⟨q', pl', k, hq', hpl', hb, hk', hk⟩ := hW
    rw [hp] at hq'
    cases hq'
    rw [hq] at hpl'
    cases hpl'
    have hkk := hch.signals.waits _ hb k k' rfl
    rw [hmem] at hk hk'
    obtain rfl : k = c := by omega
    rwa [hkk] at hb
  refine ⟨hs.inTurn.turns q pl hq, fun i ρ ρ' w' pl' new hi h hq' hlog ⟨b, hb, k, k', hop⟩ => ?_,
    fun c l hsuf hg => hch.gathers.of_suffix hsuf hg,
    fun j₁ j₂ ρ₁ ρ₂ k₁ k₂ e₁ e₂ h₁ h₂ hp₁ hp₂ hpc₁ hpc₂ => ?_, ?_, hch.closer,
    fun b hb k k' hop hk' => howes hb hop hk', fun k' hk' hopen => ?_⟩
  · have hshρ := hsh ρ (List.getElem?_mem hi)
    obtain ⟨pl'', hq'', new', hsteps, hnew⟩ := h.extends hshρ hq
    rw [hq'] at hq''
    cases hq''
    obtain rfl : new = new' := List.append_cancel_right (hlog.symm.trans hsteps.log)
    obtain ⟨-, -, hf⟩ := hnew b hb
    rw [hop] at hf
    obtain ⟨⟨hret, -⟩, hp, hst⟩ := hf
    obtain ⟨-, -, -, -, -, -, -, -, -, -, -, -, -, hret', v, hch', hv⟩ :=
      h.of_releasing hshρ (hshρ.running_of_holding hret) hst
    exact ⟨hret, hp, hret', v, hch', by rwa [hp] at hv⟩
  · exact congrArg Call.run (hch.signals.barrier_unique (hgathering h₁ hp₁ hpc₁)
      (hgathering h₂ hp₂ hpc₂) rfl rfl)
  · have hnd : pl.closed.Nodup := by
      rw [hcl]
      exact List.nodup_reverse.mpr (List.nodup_range _)
    rw [hch.signals.closed] at hnd
    exact hnd.sublist (List.sublist_append_left _ _)
  · have hrb := (hch.signals.mem_taken.mp hk').2
    rw [hmem] at hopen
    obtain ⟨b, hb, htb⟩ := List.mem_filterMap.mp (hch.signals.mem_taken.mpr ⟨by omega, by omega⟩ :
      c + 1 ∈ taken pl.log)
    obtain ⟨k, hbop⟩ : ∃ k, b.op = .barrier k (c + 1) := by
      cases hop : b.op <;> simp only [hop, Op.takes] at htb <;> cases htb
      exact ⟨_, rfl⟩
    obtain rfl : k = c := by have := hch.signals.waits b hb k (c + 1) hbop; omega
    obtain ⟨ρ, e, hρ, hp, hpc | hpc⟩ := howes hb hbop (by rw [hmem]; omega)
    · exact ⟨b.run, ρ, _, _, hρ, hp, .passBarrier hpc hp hq ((hmem k).mpr le_rfl),
        .inl ⟨k, e, hpc, rfl⟩⟩
    · obtain ⟨-, -, -, hres, -⟩ : Releasing ρ.fsm := by
        simpa [Shape, hpc] using hsh ρ (List.getElem?_mem hρ)
      obtain ⟨r, hr⟩ := Option.ne_none_iff_exists'.mp hres
      obtain ⟨b', pl', hra, -⟩ := readAcknowledgements_finished b.run (k + 1) e none pl hr
      exact ⟨b.run, ρ, _, _, hρ, hp, .readAcknowledgements none hpc hp hq hra,
        .inr ⟨k + 1, e, pl', hpc, getElem?_set_of_some hq _, hcloses hra⟩⟩

theorem barrier_chain_sample :
    Reachable sampleCollaborators NewReplica sampleChain ∧
    sampleChain.runs[1]?.map Run.pc = some (.awaitBarrier 1 2 none) ∧
    sampleChain.replica.pipelines[0]?.map Pipeline.closed = some [1, 0] ∧
    ∀ (q : Nat) (pl : Pipeline Fragment), sampleChain.replica.pipelines[q]? = some pl →
      Turns (handoffs pl.log) ∧
      (∀ (i : Nat) (ρ ρ' : Run) (w' : Replica Fragment) (pl' : Pipeline Fragment)
        (new : List Call), sampleChain.runs[i]? = some ρ →
        RunStep sampleCollaborators i ρ sampleChain.replica ρ' w' →
        w'.pipelines[q]? = some pl' → pl'.log = new ++ pl.log →
        (∃ c ∈ new, ∃ k k', c.op = .barrier k k') →
        ρ.fsm.plnReturnCh = true ∧ ρ.fsm.pln = some q ∧ ρ'.fsm.plnReturnCh = false ∧
          ∃ v, w'.pipelineCh = sampleChain.replica.pipelineCh ++ [v] ∧ (v = some q ∨ v = none)) ∧
      (∀ c l, c :: l <:+ pl.log → (c.op = .gatherOK ∨ c.op = .gatherEOF) →
        ∃ k, (⟨c.run, .readAcknowledgements, .barrier k (k + 1)⟩ : Call) ∈ l ∧
          ClosedBefore l (k + 1)) ∧
      (∀ (j₁ j₂ : Nat) (ρ₁ ρ₂ : Run) (k₁ k₂ : Nat) (e₁ e₂ : Option Error),
        sampleChain.runs[j₁]? = some ρ₁ → sampleChain.runs[j₂]? = some ρ₂ →
        ρ₁.fsm.pln = some q → ρ₂.fsm.pln = some q → ρ₁.pc = .gathering k₁ e₁ →
        ρ₂.pc = .gathering k₂ e₂ → j₁ = j₂) ∧
      (closings pl.log).Nodup ∧
      (∀ c ∈ pl.log, ∀ k, c.op = .close k → c.state = .readAcknowledgements ∧
        ∃ k₀, (⟨c.run, .readAcknowledgements, .barrier k₀ k⟩ : Call) ∈ pl.log) ∧
      (∀ c ∈ pl.log, ∀ k k', c.op = .barrier k k' → k' ∉ pl.closed → ∃ ρ e,
        sampleChain.runs[c.run]? = some ρ ∧ ρ.fsm.pln = some q ∧
          (ρ.pc = .awaitBarrier k k' e ∨ ρ.pc = .gathering k' e)) ∧
      (∀ k', k' ∈ taken pl.log → k' ∉ pl.closed → ∃ j ρ ρ' w', sampleChain.runs[j]? = some ρ ∧
        ρ.fsm.pln = some q ∧ RunStep sampleCollaborators j ρ sampleChain.replica ρ' w' ∧
        ((∃ k e, ρ.pc = .awaitBarrier k (k + 1) e ∧ ρ'.pc = .gathering (k + 1) e) ∨
          ∃ k e pl', ρ.pc = .gathering k e ∧ w'.pipelines[q]? = some pl' ∧ k ∈ pl'.closed)) :=
  have hs := sampleChain_reachable.mono fun _ h => h ▸ sampleStart_start.1
  ⟨hs, rfl, rfl, barrier_chain hs⟩

end Gazette.Broker
