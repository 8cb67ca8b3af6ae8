import Gazette.Broker.Frame

/-! What an append has checked when it scatters. From stateSendPipelineSync to
stateStreamContent the pipeline an append holds has a route equivalent to its resolution's:
`onStartPipeline` either kept it after an `Equivalent` check or built it from the
resolution's header, and a resolution changes only on the way back to stateResolve or out to
stateError. Content is scattered only after `onValidateOffset` admitted the offset. -/

namespace Gazette.Broker

variable {σ : Type} {C : Collaborators σ} {i : Nat} {ρ ρ' : Run} {w w' : Replica σ}

def AppendState.pastStart : AppendState → Bool
  | .sendPipelineSync | .recvPipelineSync | .updateAssignments | .awaitDesiredReplicas
  | .validateOffset | .streamContent => true
  | _ => false

/-- A running append that holds the token past stateStartPipeline has a pipeline whose route
is equivalent to its resolution's. -/
def Routed (w : Replica σ) (ρ : Run) : Prop :=
  ρ.pc = .running → ρ.fsm.plnReturnCh = true → ρ.fsm.state.pastStart = true →
    ∀ q, ρ.fsm.pln = some q → ∃ pl r, w.pipelines[q]? = some pl ∧ ρ.fsm.resolved = some r ∧
      pl.header.route.equivalent r.header.route = true

namespace Routed

theorem of_not (h : ρ.pc = .running → ρ.fsm.plnReturnCh = true →
    ρ.fsm.state.pastStart = false) : Routed w ρ := fun hpc hret hpast =>
  absurd hpast (by simp [h hpc hret])

theorem mono (hw : HeadersKept w w') (hr : Routed w ρ) :
    Routed w' ρ := fun hpc hret hpast q hq => by
  obtain ⟨pl, r, hpl, hres, heq⟩ := hr hpc hret hpast q hq
  obtain ⟨pl', hpl', hh⟩ := hw q pl hpl
  exact ⟨pl', r, hpl', hres, hh ▸ heq⟩

theorem keep (hw : HeadersKept w w') (hr : Routed w ρ) (hpc : ρ.pc = .running)
    (hpast : ρ.fsm.state.pastStart = true)
    (hret : ρ'.fsm.plnReturnCh = ρ.fsm.plnReturnCh) (hpln : ρ'.fsm.pln = ρ.fsm.pln)
    (hres : ρ'.fsm.resolved = ρ.fsm.resolved) : Routed w' ρ' := fun _ hret' _ q hq => by
  rw [hres]
  exact mono hw hr hpc (hret ▸ hret') hpast q (hpln ▸ hq)

end Routed

theorem startNewPipeline_routed {sel : Select σ} {r : Resolution} {b b' : AppendFSM}
    {w₀ w₁ : Replica σ} (h : startNewPipeline sel r b w₀ = (b', w₁)) :
    b'.state.pastStart = false ∨ b'.resolved = b.resolved ∧ b'.plnReturnCh = b.plnReturnCh ∧
      ∃ q spool, b'.pln = some q ∧ w₁.pipelines[q]? = some (newPipeline r.header spool) := by
  rcases startNewPipeline_cases h with ⟨spool, rfl, rfl⟩ | ⟨-, ⟨e, rfl⟩ | rfl⟩
  · exact .inr ⟨rfl, rfl, _, spool, rfl, List.getElem?_concat_length ..⟩
  · exact .inl rfl
  · exact .inl rfl

theorem RunStep.routed (h : RunStep C i ρ w ρ' w') (hs : Shape ρ) (hr : Routed w ρ) :
    Routed w' ρ' := by
  have hw := h.headers hs
  have hnew {sel : Select σ} {r : Resolution} {b b' : AppendFSM} {w₀ : Replica σ}
      (h : startNewPipeline sel r b w₀ = (b', w')) (hb : b.resolved = some r) :
      Routed w' { ρ with fsm := b' } := by
    rcases startNewPipeline_routed h with hst | ⟨hres, -, q, spool, hq, hpl⟩
    · exact .of_not fun _ _ => hst
    · intro _ _ _ q' hq'
      rw [hq] at hq'
      cases hq'
      exact ⟨_, r, hpl, hres.trans hb, Route.equivalent_self _⟩
  cases h with
  | resolve _ _ _ h =>
    refine .of_not fun _ hret => ?_
    rcases onResolve_cases h with ⟨-, ⟨e, rfl⟩ | ⟨r, -, rfl⟩ | ⟨r, -, -, -, rfl⟩ |
      ⟨r, -, -, -, rfl⟩⟩ | ⟨r, -, -, rfl, -⟩
    any_goals rfl
    exact absurd hret Bool.false_ne_true
  | acquirePipeline _ _ _ h =>
    refine .of_not fun _ _ => ?_
    rcases onAcquirePipeline_cases h with ⟨v, -, ⟨e, rfl⟩ | rfl | rfl⟩ | ⟨-, ⟨e, rfl⟩ | rfl⟩ <;> rfl
  | startPipeline _ _ _ h =>
    rcases onStartPipeline_cases h with
      ⟨r, hres, ⟨p, pl, hp, hpl, heq, rfl, rfl⟩ | ⟨-, h⟩ | ⟨p, pl, -, -, -, h⟩⟩
    · intro _ _ _ q hq
      rw [hp] at hq
      cases hq
      exact ⟨pl, r, hpl, hres, heq⟩
    · exact hnew h hres
    · exact hnew h hres
  | sendPipelineSync hpc hst _ _ h =>
    obtain ⟨r, -, rfl, -⟩ := onSendPipelineSync_eq C h
    exact hr.keep hw hpc (by rw [hst]; rfl) rfl rfl rfl
  | recvPipelineSync _ _ _ _ hpc hst _ _ h =>
    have hpast : ρ.fsm.state.pastStart = true := by rw [hst]; rfl
    rcases onRecvPipelineSync_cases h with ⟨e, -, rfl, -⟩ | ⟨-, -, ⟨-, rfl, -⟩ |
      ⟨-, -, rfl, -⟩ | ⟨-, -, rfl, -⟩⟩
    · exact .of_not fun _ _ => rfl
    · exact hr.keep hw hpc hpast rfl rfl rfl
    · exact .of_not fun _ _ => rfl
    · exact hr.keep hw hpc hpast rfl rfl rfl
  | updateAssignments _ _ hpc hst h =>
    have hpast : ρ.fsm.state.pastStart = true := by rw [hst]; rfl
    rcases onUpdateAssignments_cases h with ⟨r, -, ⟨-, rfl⟩ | ⟨-, ⟨e, -, rfl⟩ | ⟨-, rfl⟩⟩⟩
    · exact hr.keep hw hpc hpast rfl rfl rfl
    · exact .of_not fun _ _ => rfl
    · exact .of_not fun _ _ => rfl
  | awaitDesiredReplicas hpc hst h =>
    have hpast : ρ.fsm.state.pastStart = true := by rw [hst]; rfl
    rcases onAwaitDesiredReplicas_cases h with ⟨r, -, ⟨-, rfl⟩ | ⟨-, rfl⟩ | ⟨-, -, rfl⟩ |
      ⟨-, -, rfl⟩⟩
    · exact .of_not fun _ _ => rfl
    · exact .of_not fun _ _ => rfl
    · exact .of_not fun _ _ => rfl
    · exact hr.keep hw hpc hpast rfl rfl rfl
  | validateOffset _ _ hpc hst _ _ h =>
    have hpast : ρ.fsm.state.pastStart = true := by rw [hst]; rfl
    rcases onValidateOffset_cases C h with
      ⟨r, -, ⟨e, -, rfl⟩ | ⟨-, ⟨st, rfl⟩ | ⟨-, -, -, rfl⟩ | ⟨-, -, rfl⟩⟩⟩
    · exact .of_not fun _ _ => rfl
    · exact .of_not fun _ _ => rfl
    · exact hr.keep hw hpc hpast rfl rfl rfl
    · exact hr.keep hw hpc hpast rfl rfl rfl
  | chunk _ _ hpc hst _ _ h =>
    obtain ⟨-, -, ⟨r, hres, hok, -⟩, -⟩ : ShapeAt .streamContent ρ := hst ▸ (Shape.running hpc).mp hs
    obtain ⟨hpln, hret, hl | ⟨-, hres'⟩⟩ := onStreamContent_keeps hres hok h
    · exact .of_not fun _ _ => by simp only [hl]; rfl
    · exact hr.keep hw hpc (by rw [hst]; rfl) hret hpln hres'
  | tickIdle _ hpc hst _ _ _ h =>
    obtain ⟨-, -, ⟨r, hres, hok, -⟩, -⟩ : ShapeAt .streamContent ρ := hst ▸ (Shape.running hpc).mp hs
    obtain ⟨hpln, hret, hl | ⟨-, hres'⟩⟩ := onStreamContent_keeps hres hok h
    · exact .of_not fun _ _ => by simp only [hl]; rfl
    · exact hr.keep hw hpc (by rw [hst]; rfl) hret hpln hres'
  | tick hpc hst _ => exact hr.keep hw hpc (by rw [hst]; rfl) rfl rfl rfl
  | releaseSendSide => exact fun hpc => nomatch hpc
  | passBarrier => exact fun hpc => nomatch hpc
  | readAcknowledgements _ _ _ _ h =>
    refine .of_not fun _ _ => ?_
    obtain ⟨e, rfl | rfl⟩ := readAcknowledgements_fsm h <;> rfl
  | exit => exact fun hpc => nomatch hpc

theorem Reachable.routed {s : System σ} (hs : Reachable C Initial s) :
    ∀ ρ ∈ s.runs, Routed s.replica ρ := by
  refine (show True ∧ ∀ ρ ∈ s.runs, Routed s.replica ρ from
    Reachable.each (fun s h => ⟨trivial, fun ρ hρ => ?_⟩)
      (fun s i ρ ρ' w' hr _ hI hi h => ⟨trivial, ?_, ?_⟩) hs).2
  · rw [h.runs ρ hρ]
    exact .of_not fun _ _ => rfl
  · exact h.routed (hr.shape _ (List.getElem?_mem hi)) (hI _ (List.getElem?_mem hi))
  · intro j ρ₀ _ hj
    exact (hI _ (List.getElem?_mem hj)).mono (h.headers (hr.shape _ (List.getElem?_mem hi)))

/-! ### The checks at each scatter -/

/-- Every scatter of any append, in any interleaving from any start, is on the pipeline it
holds, whose route is its resolution's; and client content is scattered only in
stateStreamContent under a resolution that passed every check. -/
theorem scatter_checked {s : System σ} (hs : Reachable C Initial s) {q : Nat}
    {pl pl' : Pipeline σ} (hi : s.runs[i]? = some ρ) (h : RunStep C i ρ s.replica ρ' w')
    (hpl : s.replica.pipelines[q]? = some pl) (hpl' : w'.pipelines[q]? = some pl') :
    ∃ new, pl'.log = new ++ pl.log ∧ ∀ c ∈ new, ∀ req, c.op = .scatter req →
      ρ.fsm.pln = some q ∧
      (∃ r, ρ.fsm.resolved = some r ∧ pl'.header.route.equivalent r.header.route = true ∧
        (c.state = .streamContent → r.status = .ok ∧ r.isPrimary = true ∧
          (r.header.route.members.length : Int) = r.journalSpec.desiredReplication ∧
          journalRouteMatchesAssignments r.header.route r.assignments = true)) ∧
      (req.content ≠ [] → c.state = .streamContent) := by
  have hsh := hs.shape _ (List.getElem?_mem hi)
  obtain ⟨pl₁, hpl₁, new, hsteps, hnew⟩ := h.extends hsh hpl
  rw [hpl'] at hpl₁
  cases hpl₁
  refine ⟨new, hsteps.log, fun c hc req hop => ?_⟩
  obtain ⟨-, hcst, hf⟩ := hnew c hc
  rw [hop] at hf
  obtain ⟨⟨hret, -⟩, hp, -, -, hcontent, hstate⟩ := hf
  have hpc := hsh.running_of_holding hret
  have hpast : ρ.fsm.state.pastStart = true := by rcases hstate with h | h <;> rw [h] <;> rfl
  obtain ⟨pl₀, r, hpl₀, hr, heq⟩ := hs.routed ρ (List.getElem?_mem hi) hpc hret hpast q hp
  rw [hpl] at hpl₀
  cases hpl₀
  refine ⟨hp, ⟨r, hr, hsteps.header ▸ heq, fun hst => ?_⟩, fun hne => hcst.trans (hcontent hne).1⟩
  have hst' : ρ.fsm.state = .streamContent := hcst ▸ hst
  obtain ⟨-, -, ⟨r', hr', hok, hprim, hm, hn⟩, -⟩ : ShapeAt .streamContent ρ :=
    hst' ▸ (Shape.running hpc).mp hsh
  rw [hr] at hr'
  cases hr'
  exact ⟨hok, hprim, hn, hm⟩

theorem scatter_checked_content_chunk :
    ∃ ρ', Reachable sampleCollaborators Initial sampleStreaming ∧
      sampleStreaming.runs[0]? = some sampleStreamer ∧
      RunStep sampleCollaborators 0 sampleStreamer sampleStreaming.replica ρ'
        ⟨[], [sampleStreamed]⟩ ∧
      sampleStreaming.replica.pipelines[0]? = some sampleSynced ∧
      ∃ new, sampleStreamed.log = new ++ sampleSynced.log ∧ ∀ c ∈ new, ∀ req,
        c.op = .scatter req → sampleStreamer.fsm.pln = some 0 ∧
        (∃ r, sampleStreamer.fsm.resolved = some r ∧
          sampleStreamed.header.route.equivalent r.header.route = true ∧
          (c.state = .streamContent → r.status = .ok ∧ r.isPrimary = true ∧
            (r.header.route.members.length : Int) = r.journalSpec.desiredReplication ∧
            journalRouteMatchesAssignments r.header.route r.assignments = true)) ∧
        (req.content ≠ [] → c.state = .streamContent) :=
  have hs := sampleStreaming_reachable.mono fun _ h => h ▸ sampleStart_start.1.1
  have ⟨ρ', h⟩ := sampleStreaming_chunk
  ⟨ρ', hs, rfl, h, rfl, scatter_checked hs rfl h rfl rfl⟩

/-- Every content chunk any append scatters was admitted by its `onValidateOffset`. -/
theorem content_admitted {s : System σ} (hs : Reachable C Initial s) {q : Nat}
    {pl pl' : Pipeline σ} (hi : s.runs[i]? = some ρ) (h : RunStep C i ρ s.replica ρ' w')
    (hpl : s.replica.pipelines[q]? = some pl) (hpl' : w'.pipelines[q]? = some pl') :
    ∃ new, pl'.log = new ++ pl.log ∧ ∀ c ∈ new, ∀ req, c.op = .scatter req → req.content ≠ [] →
      c.state = .streamContent ∧ ρ.fsm.pln = some q ∧
      ∃ r spoolEnd indexEnd, ρ.fsm.resolved = some r ∧ r.journalSpec.flags.mayWrite = true ∧
        ρ.validated = some (spoolEnd, indexEnd) ∧ indexEnd ≤ spoolEnd ∧
        (ρ.fsm.req.offset ≠ 0 → spoolEnd = ρ.fsm.req.offset) := by
  obtain ⟨pl₁, hpl₁, new, hsteps, hnew⟩ := h.extends (hs.shape _ (List.getElem?_mem hi)) hpl
  rw [hpl'] at hpl₁
  cases hpl₁
  refine ⟨new, hsteps.log, fun c hc req hop hne => ?_⟩
  obtain ⟨-, hcst, hf⟩ := hnew c hc
  rw [hop] at hf
  obtain ⟨-, hp, -, -, hcontent, -⟩ := hf
  obtain ⟨hst, ⟨r, se, eo, hr, hv, hw, ho⟩, r', hr', hmw⟩ := hcontent hne
  rw [hr] at hr'
  cases hr'
  exact ⟨hcst.trans hst, hp, r, se, eo, hr, hmw, hv, hw hmw, fun h => (ho h).1⟩

theorem content_admitted_content_chunk :
    ∃ ρ', Reachable sampleCollaborators Initial sampleStreaming ∧
      sampleStreaming.runs[0]? = some sampleStreamer ∧
      RunStep sampleCollaborators 0 sampleStreamer sampleStreaming.replica ρ'
        ⟨[], [sampleStreamed]⟩ ∧
      sampleStreaming.replica.pipelines[0]? = some sampleSynced ∧
      ∃ new, sampleStreamed.log = new ++ sampleSynced.log ∧ ∀ c ∈ new, ∀ req,
        c.op = .scatter req → req.content ≠ [] →
        c.state = .streamContent ∧ sampleStreamer.fsm.pln = some 0 ∧
        ∃ r spoolEnd indexEnd, sampleStreamer.fsm.resolved = some r ∧
          r.journalSpec.flags.mayWrite = true ∧
          sampleStreamer.validated = some (spoolEnd, indexEnd) ∧ indexEnd ≤ spoolEnd ∧
          (sampleStreamer.fsm.req.offset ≠ 0 → spoolEnd = sampleStreamer.fsm.req.offset) :=
  have hs := sampleStreaming_reachable.mono fun _ h => h ▸ sampleStart_start.1.1
  have ⟨ρ', h⟩ := sampleStreaming_chunk
  ⟨ρ', hs, rfl, h, rfl, content_admitted hs rfl h rfl rfl⟩

end Gazette.Broker
