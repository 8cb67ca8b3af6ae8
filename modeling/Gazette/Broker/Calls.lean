import Gazette.Broker.Shape

/-! The calls each step of an append makes on the pipelines, as calls of the pipeline's own
step relation. A step calls only on the pipeline its FSM names; every call is its own and
tagged with its state; the send side is called only while the append holds that pipeline;
and a pipeline it builds starts with no calls. -/

namespace Gazette.Broker

variable {σ : Type} (C : Collaborators σ)

/-! ### The calls of each handler -/

theorem gatherSyncRound_steps (i : Nat) (roll rev : Int) (recvFailure sendFailure : Option Error)
    (pl : Pipeline σ) :
    Pipeline.Steps C pl
      (if pl.recvErrResult recvFailure = none then
        [⟨i, .recvPipelineSync, .sendErr (pl.sendErrResult sendFailure)⟩,
          ⟨i, .recvPipelineSync, .recvErr none⟩, ⟨i, .recvPipelineSync, .gatherSync roll rev⟩]
      else
        [⟨i, .recvPipelineSync, .recvErr (pl.recvErrResult recvFailure)⟩,
          ⟨i, .recvPipelineSync, .gatherSync roll rev⟩])
      (gatherSyncRound i roll rev recvFailure sendFailure pl).1 := by
  have h₁ : Pipeline.Steps C pl _ _ := (Pipeline.Steps.single
    (.record pl i .recvPipelineSync (.gatherSync roll rev) rfl)).cons
      (.recvErr _ i .recvPipelineSync recvFailure)
  rw [gatherSyncRound_fst]
  split_ifs with he
  · simpa [he] using h₁.cons (.sendErr _ i .recvPipelineSync sendFailure)
  · simpa using h₁

theorem releaseSendSide_steps (i : Nat) (failure : Option Error) {b : AppendFSM}
    (pl : Pipeline σ) (ch : List (Option Nat)) (hp : b.plnReturnCh = true) :
    ∃ pl', releaseSendSide i failure b pl ch = some ({ b with plnReturnCh := false }, pl',
        ch ++ [if pl.sendErrResult failure = none then b.pln else none]) ∧
      Pipeline.Steps C pl
        ((if pl.sendErrResult failure = none then [] else [⟨i, .readAcknowledgements, .closeSend⟩]) ++
          [⟨i, .readAcknowledgements, .barrier pl.readBarrier (pl.readBarrier + 1)⟩,
            ⟨i, .readAcknowledgements, .sendErr (pl.sendErrResult failure)⟩]) pl' := by
  have h₁ : Pipeline.Steps C pl _ _ :=
    (Pipeline.Steps.single (.sendErr pl i .readAcknowledgements failure)).cons
      (.barrier _ i .readAcknowledgements)
  unfold releaseSendSide
  rw [if_pos hp]
  split <;> rename_i he
  · exact ⟨(pl.sendErr i .readAcknowledgements failure).barrier i .readAcknowledgements,
      by simp [he], by simpa [he] using h₁⟩
  · exact ⟨((pl.sendErr i .readAcknowledgements failure).barrier i .readAcknowledgements).record
      i .readAcknowledgements .closeSend, by simp [he], by
      simpa [he] using h₁.cons (.record _ i .readAcknowledgements .closeSend rfl)⟩

theorem readAcknowledgements_steps {i k : Nat} {sendErr failure : Option Error}
    {b b' : AppendFSM} {pl pl' : Pipeline σ}
    (h : readAcknowledgements i k sendErr failure b pl = some (b', pl')) :
    ∃ rest, Pipeline.Steps C pl (⟨i, .readAcknowledgements, .close k⟩ :: rest) pl' ∧
      ∀ c ∈ rest, c.run = i ∧ c.state = .readAcknowledgements ∧
        (c.op = .gatherOK ∨ c.op = .gatherEOF ∨ ∃ e, c.op = .recvErr e) := by
  unfold readAcknowledgements at h
  obtain ⟨r, -, h⟩ := Option.bind_eq_some.mp h
  dsimp only at h
  obtain ⟨pl₂, mid, hpl₂, hmid, hcalls⟩ : ∃ pl₂ mid,
      (if sendErr.isSome then
        (pl.record i .readAcknowledgements .gatherOK).record i .readAcknowledgements .gatherEOF
      else pl.record i .readAcknowledgements .gatherOK) = pl₂ ∧
      Pipeline.Steps C pl mid pl₂ ∧ ∀ c ∈ mid, c.run = i ∧ c.state = .readAcknowledgements ∧
        (c.op = .gatherOK ∨ c.op = .gatherEOF ∨ ∃ e, c.op = .recvErr e) := by
    have h₁ : Pipeline.Steps C pl _ _ :=
      Pipeline.Steps.single (.record pl i .readAcknowledgements .gatherOK rfl)
    split_ifs
    · exact ⟨_, _, rfl, h₁.cons (.record _ i .readAcknowledgements .gatherEOF rfl), by simp⟩
    · exact ⟨_, _, rfl, h₁, by simp⟩
  rw [hpl₂] at h
  have hrecv : Pipeline.Steps C pl (⟨i, .readAcknowledgements, .recvErr (pl₂.recvErrResult failure)⟩ :: mid)
      (pl₂.recvErr i .readAcknowledgements failure) :=
    hmid.cons (.recvErr _ i .readAcknowledgements failure)
  split_ifs at h <;> cases h
  · exact ⟨mid, hmid.cons (.close _ i .readAcknowledgements k), hcalls⟩
  all_goals
    refine ⟨_, hrecv.cons (.close _ i .readAcknowledgements k), fun c hc => ?_⟩
    rcases List.mem_cons.mp hc with rfl | hc
    exacts [⟨rfl, rfl, .inr (.inr ⟨_, rfl⟩)⟩, hcalls c hc]

theorem syncRequest_facts (r : Resolution) (b : AppendFSM) (pl : Pipeline σ) :
    (syncRequest C r b pl).content = [] ∧
      ((syncRequest C r b pl).header ≠ none → b.rollToOffset = 0) ∧
      ((syncRequest C r b pl).header = none → (syncRequest C r b pl).journal = "") := by
  unfold syncRequest
  split_ifs <;> simp_all

/-! ### The calls of a step -/

/-- What a call of an append on pipeline `q` says about the append, by the kind of call. -/
def CallFacts (ρ : Run) (q : Nat) : Op → Prop
  | .scatter req => Holding ρ.fsm ∧ ρ.fsm.pln = some q ∧
      (req.header ≠ none → ρ.fsm.state = .sendPipelineSync ∧ ρ.fsm.rollToOffset = 0) ∧
      (req.header = none → req.journal = "") ∧
      (req.content ≠ [] → ρ.fsm.state = .streamContent ∧ Admitted ρ ∧
        ∃ r, ρ.fsm.resolved = some r ∧ r.journalSpec.flags.mayWrite = true) ∧
      (ρ.fsm.state = .sendPipelineSync ∨ ρ.fsm.state = .streamContent)
  | .barrier _ _ => Holding ρ.fsm ∧ ρ.fsm.pln = some q ∧ ρ.fsm.state = .readAcknowledgements
  | .sendErr _ | .closeSend | .gatherSync _ _ | .shutdown _ => Holding ρ.fsm ∧ ρ.fsm.pln = some q
  | .close k => ρ.fsm.pln = some q ∧ ∃ e, ρ.pc = .gathering k e
  | .gatherOK | .gatherEOF => ρ.fsm.pln = some q ∧ ∃ k e, ρ.pc = .gathering k e
  | .recvErr _ => ρ.fsm.pln = some q

def Op.plain : Op → Bool
  | .scatter _ | .barrier _ _ | .close _ | .gatherOK | .gatherEOF => false
  | _ => true

theorem CallFacts.of_holding {ρ : Run} {q : Nat} {op : Op} (hh : Holding ρ.fsm)
    (hp : ρ.fsm.pln = some q) (hop : op.plain = true) : CallFacts ρ q op := by
  cases op with
  | scatter | barrier | close | gatherOK | gatherEOF => cases hop
  | recvErr => exact hp
  | _ => exact ⟨hh, hp⟩

/-- Pipeline `q` is `pl'` after calls of append `i` on the pipeline `w` had under `q`. -/
def StepCalls (i : Nat) (ρ : Run) (w : Replica σ) (q : Nat) (pl' : Pipeline σ) : Prop :=
  ∃ pl new, w.pipelines[q]? = some pl ∧ Pipeline.Steps C pl new pl' ∧
    ∀ c ∈ new, c.run = i ∧ c.state = ρ.fsm.state ∧ CallFacts ρ q c.op

/-- Pipeline `q` is `pl'`, built by this step of an append in stateStartPipeline. -/
def Built (ρ ρ' : Run) (w : Replica σ) (q : Nat) (pl' : Pipeline σ) : Prop :=
  q = w.pipelines.length ∧ ρ.fsm.state = .startPipeline ∧ ρ'.fsm.pln = some q ∧
    ρ'.fsm.state = .sendPipelineSync ∧
    ∃ r spool, ρ.fsm.resolved = some r ∧ pl' = newPipeline r.header spool

variable {C} {i : Nat} {ρ ρ' : Run} {w w' : Replica σ} {q : Nat} {pl' : Pipeline σ}

theorem StepCalls.same (hq : w.pipelines[q]? = some pl') : StepCalls C i ρ w q pl' :=
  ⟨pl', [], hq, .nil _, by simp⟩

theorem StepCalls.set {p : Nat} {pl plx : Pipeline σ} {new : List Call}
    (hp : w.pipelines[p]? = some pl) (hsteps : Pipeline.Steps C pl new plx)
    (hnew : ∀ c ∈ new, c.run = i ∧ c.state = ρ.fsm.state ∧ CallFacts ρ p c.op)
    (hq : (w.pipelines.set p plx)[q]? = some pl') : StepCalls C i ρ w q pl' := by
  rw [List.getElem?_set] at hq
  split_ifs at hq with h1
  · subst h1
    cases hq
    exact ⟨pl, new, hp, hsteps, hnew⟩
  · exact .same hq

theorem startNewPipeline_logs {sel : Select σ} {r : Resolution} {b b' : AppendFSM}
    {w₀ : Replica σ} (h : startNewPipeline sel r b w₀ = (b', w'))
    (hw : ∀ q pl, w₀.pipelines[q]? = some pl → StepCalls C i ρ w q pl)
    (hlen : w₀.pipelines.length = w.pipelines.length) (hq : w'.pipelines[q]? = some pl') :
    StepCalls C i ρ w q pl' ∨ (q = w.pipelines.length ∧ b'.pln = some q ∧
      b'.state = .sendPipelineSync ∧ ∃ spool, pl' = newPipeline r.header spool) := by
  rcases startNewPipeline_cases h with ⟨spool, rfl, rfl⟩ | ⟨rfl, -⟩
  · by_cases hlt : q < w₀.pipelines.length
    · rw [List.getElem?_append_left hlt] at hq
      exact .inl (hw q pl' hq)
    · obtain ⟨hq₁, hq₂⟩ := List.getElem?_eq_some_iff.mp hq
      simp only [List.length_append, List.length_singleton] at hq₁
      have hq₀ : q = w₀.pipelines.length := by omega
      subst hq₀
      rw [List.getElem?_concat_length] at hq
      cases hq
      exact .inr ⟨hlen, by rw [hlen], rfl, spool, rfl⟩
  · exact .inl (hw q pl' hq)

theorem stream_stepCalls {p : Nat} {pl plx : Pipeline σ} {d : Except Error AppendRequest}
    {f : Option Error} {b : AppendFSM} (hst : ρ.fsm.state = .streamContent)
    (hs : ShapeAt .streamContent ρ) (hp : ρ.fsm.pln = some p) (hpl : w.pipelines[p]? = some pl)
    (h : onStreamContent C i d f ρ.fsm pl = some (b, plx))
    (hq : (w.pipelines.set p plx)[q]? = some pl') : StepCalls C i ρ w q pl' := by
  obtain ⟨hhold, -, ⟨r, hr, hok, -⟩, hadm, -⟩ := hs
  obtain ⟨-, new, hcalls⟩ := onStreamContent_frame C hr hok h
  refine StepCalls.set hpl hcalls.send.steps (fun c hc => ?_) hq
  obtain ⟨hrun, hstc, hop⟩ := hcalls.send.calls c hc
  refine ⟨hrun, hstc.trans hst.symm, ?_⟩
  rcases hop with ⟨req, hreq, hh, hj⟩ | ⟨e, he⟩
  · rw [hreq]
    exact ⟨hhold, hp, fun h => absurd hh h, fun _ => hj,
      fun hne => ⟨hst, hadm, r, hr, hcalls.writable c hc req hreq hne⟩, .inr hst⟩
  · rw [he]
    exact ⟨hhold, hp⟩

/-- What one step of append `i` does to each pipeline: calls of `i` with their facts, or a
pipeline it builds. -/
theorem RunStep.logs (h : RunStep C i ρ w ρ' w') (hs : Shape ρ)
    (hq : w'.pipelines[q]? = some pl') : StepCalls C i ρ w q pl' ∨ Built ρ ρ' w q pl' := by
  cases h with
  | resolve => exact .inl (.same hq)
  | acquirePipeline => exact .inl (.same hq)
  | startPipeline _ hpc hst h =>
    obtain ⟨hch, -⟩ : ShapeAt .startPipeline ρ := hst ▸ (Shape.running hpc).mp hs
    rcases onStartPipeline_cases h with
      ⟨r, hr, ⟨p, pl, -, -, -, rfl, rfl⟩ | ⟨-, h⟩ | ⟨p, pl, hp, hpl, -, h⟩⟩
    · exact .inl (.same hq)
    · rcases startNewPipeline_logs h (fun _ _ => .same) rfl hq with h | ⟨h1, h2, h3, sp, h4⟩
      exacts [.inl h, .inr ⟨h1, hst, h2, h3, r, sp, hr, h4⟩]
    · have hw : ∀ q pl', (w.pipelines.set p (pl.record i .startPipeline (.shutdown false)))[q]? =
          some pl' → StepCalls C i ρ w q pl' := fun q pl' =>
        StepCalls.set hpl (.single (.record pl i _ _ rfl)) (by
          simpa [hst] using (CallFacts.of_holding ⟨hch, by simp [hp]⟩ hp rfl :
            CallFacts ρ p (.shutdown false)))
      rcases startNewPipeline_logs h hw (List.length_set ..) hq with h | ⟨h1, h2, h3, sp, h4⟩
      exacts [.inl h, .inr ⟨h1, hst, h2, h3, r, sp, hr, h4⟩]
  | @sendPipelineSync p pl _ _ hpc hst hp hpl h =>
    obtain ⟨hhold, -⟩ : ShapeAt .sendPipelineSync ρ := hst ▸ (Shape.running hpc).mp hs
    obtain ⟨r, -, rfl, rfl⟩ := onSendPipelineSync_eq C h
    obtain ⟨hc, hh, hj⟩ := syncRequest_facts C r ρ.fsm pl
    refine .inl (StepCalls.set hpl (.single (.scatter pl i _ _)) ?_ hq)
    simp only [List.mem_singleton, forall_eq, hst, true_and]
    exact ⟨hhold, hp, fun h => ⟨hst, hh h⟩, hj, fun h => absurd hc h, .inl hst⟩
  | @recvPipelineSync p pl _ _ roll rev rf sf hpc hst hp hpl h =>
    obtain ⟨hhold, -⟩ : ShapeAt .recvPipelineSync ρ := hst ▸ (Shape.running hpc).mp hs
    have hround := gatherSyncRound_steps C i roll rev rf sf pl
    have hfacts : ∀ (extra : List Call), (∀ c ∈ extra, c.run = i ∧
        c.state = .recvPipelineSync ∧ c.op.plain = true) →
        ∀ c ∈ extra ++ (if pl.recvErrResult rf = none then
          [⟨i, .recvPipelineSync, .sendErr (pl.sendErrResult sf)⟩,
            ⟨i, .recvPipelineSync, .recvErr none⟩, ⟨i, .recvPipelineSync, .gatherSync roll rev⟩]
        else [⟨i, .recvPipelineSync, .recvErr (pl.recvErrResult rf)⟩,
          ⟨i, .recvPipelineSync, .gatherSync roll rev⟩]),
          c.run = i ∧ c.state = ρ.fsm.state ∧ CallFacts ρ p c.op := by
      intro extra hextra c hc
      have hc' : c.run = i ∧ c.state = .recvPipelineSync ∧ c.op.plain = true := by
        rcases List.mem_append.mp hc with hc | hc
        · exact hextra c hc
        · split_ifs at hc <;> simp at hc <;> rcases hc with rfl | rfl | rfl <;>
            exact ⟨rfl, rfl, rfl⟩
      exact ⟨hc'.1, hc'.2.1.trans hst.symm, .of_holding hhold hp hc'.2.2⟩
    have hshut (x : Bool) := hfacts [⟨i, .recvPipelineSync, .shutdown x⟩] (by simp [Op.plain])
    rcases onRecvPipelineSync_cases h with ⟨e, -, rfl, rfl⟩ | ⟨-, -, ⟨-, rfl, rfl⟩ |
      ⟨-, -, rfl, rfl⟩ | ⟨-, -, rfl, rfl⟩⟩
    · exact .inl (StepCalls.set hpl (hround.cons (.record _ i _ (.shutdown true) rfl))
        (hshut true) hq)
    · exact .inl (StepCalls.set hpl hround (by simpa using hfacts [] (by simp)) hq)
    · exact .inl (StepCalls.set hpl (hround.cons (.record _ i _ (.shutdown false) rfl))
        (hshut false) hq)
    · exact .inl (StepCalls.set hpl hround (by simpa using hfacts [] (by simp)) hq)
  | updateAssignments => exact .inl (.same hq)
  | awaitDesiredReplicas => exact .inl (.same hq)
  | validateOffset => exact .inl (.same hq)
  | @chunk p pl _ _ _ _ hpc hst hp hpl h =>
    exact .inl (stream_stepCalls hst (hst ▸ (Shape.running hpc).mp hs) hp hpl h hq)
  | @tickIdle p pl _ _ _ hpc hst _ hp hpl h =>
    exact .inl (stream_stepCalls hst (hst ▸ (Shape.running hpc).mp hs) hp hpl h hq)
  | tick => exact .inl (.same hq)
  | @releaseSendSide p pl _ _ _ f hpc hst hp hpl h =>
    obtain ⟨hhold, -⟩ : ShapeAt .readAcknowledgements ρ := hst ▸ (Shape.running hpc).mp hs
    obtain ⟨pl₁, heq, hsteps⟩ := releaseSendSide_steps C i f pl w.pipelineCh hhold.1
    rw [heq] at h
    cases h
    refine .inl (StepCalls.set hpl hsteps (fun c hc => ?_) hq)
    have hc' : c.run = i ∧ c.state = .readAcknowledgements ∧
        (c.op.plain = true ∨ ∃ k k', c.op = .barrier k k') := by
      split_ifs at hc <;> simp at hc <;> rcases hc with rfl | rfl | rfl <;> simp [Op.plain]
    refine ⟨hc'.1, hc'.2.1.trans hst.symm, ?_⟩
    rcases hc'.2.2 with hplain | ⟨k, k', hb⟩
    · exact .of_holding hhold hp hplain
    · rw [hb]
      exact ⟨hhold, hp, hst⟩
  | passBarrier => exact .inl (.same hq)
  | @readAcknowledgements p pl _ _ _ _ f hpc hp hpl h =>
    obtain ⟨hst, -⟩ : Releasing ρ.fsm := by simpa [Shape, hpc] using hs
    obtain ⟨rest, hsteps, hrest⟩ := readAcknowledgements_steps C h
    refine .inl (StepCalls.set hpl hsteps (fun c hc => ?_) hq)
    rcases List.mem_cons.mp hc with rfl | hc
    · exact ⟨rfl, hst.symm, hp, _, hpc⟩
    · obtain ⟨hrun, hstc, hop⟩ := hrest c hc
      refine ⟨hrun, hstc.trans hst.symm, ?_⟩
      rcases hop with h | h | ⟨e, h⟩ <;> rw [h]
      exacts [⟨hp, _, _, hpc⟩, ⟨hp, _, _, hpc⟩, hp]
  | exit => exact .inl (.same hq)

end Gazette.Broker
