import Gazette.Broker.Calls

/-! The replica's `pipelineCh` and the appends' return channels. There is one token, the
pipeline's send side or the right to build one, and it is in the channel or held by
exactly one append, whose return channel is then `pipelineCh`. -/

namespace Gazette.Broker

variable {σ : Type} {C : Collaborators σ}

/-- The appends whose return channel is `pipelineCh`. -/
def holders (runs : List Run) : Nat := runs.countP (·.fsm.plnReturnCh)

def tokens (s : System σ) : Nat := s.replica.pipelineCh.length + holders s.runs

theorem holders_set {runs : List Run} {i : Nat} {ρ : Run} (hi : runs[i]? = some ρ) (ρ' : Run) :
    holders (runs.set i ρ') + (if ρ.fsm.plnReturnCh then 1 else 0) =
      holders runs + (if ρ'.fsm.plnReturnCh then 1 else 0) := by
  obtain ⟨hlt, rfl⟩ := List.getElem?_eq_some_iff.mp hi
  have hpos : (if runs[i].fsm.plnReturnCh then 1 else 0) ≤ holders runs := by
    split_ifs with h
    · exact List.countP_pos_iff.mpr ⟨_, List.getElem_mem hlt, h⟩
    · exact Nat.zero_le _
  simp only [holders, List.countP_set _ _ _ _ hlt] at hpos ⊢
  omega

/-- One step moves the token between `pipelineCh` and the append: it never makes or loses one. -/
theorem RunStep.tokens {i : Nat} {ρ ρ' : Run} {w w' : Replica σ} (h : RunStep C i ρ w ρ' w')
    (hs : Shape ρ) :
    w'.pipelineCh.length + (if ρ'.fsm.plnReturnCh then 1 else 0) =
      w.pipelineCh.length + (if ρ.fsm.plnReturnCh then 1 else 0) := by
  cases h with
  | resolve _ _ _ h =>
    rcases onResolve_cases h with
      ⟨rfl, ⟨e, rfl⟩ | ⟨r, -, rfl⟩ | ⟨r, -, -, -, rfl⟩ | ⟨r, -, -, -, rfl⟩⟩ | ⟨r, -, -, rfl, rfl⟩
    any_goals rfl
    cases ρ.fsm.plnReturnCh <;> simp
  | acquirePipeline _ hpc hst h =>
    obtain ⟨hch, -⟩ : ShapeAt .acquirePipeline ρ := hst ▸ (Shape.running hpc).mp hs
    rcases onAcquirePipeline_cases h with ⟨v, hv, ⟨e, rfl⟩ | rfl | rfl⟩ | ⟨rfl, ⟨e, rfl⟩ | rfl⟩
    any_goals rfl
    all_goals simp [canceledWaiting, hch, hv]
  | startPipeline _ _ _ h =>
    have hnew {sel : Select σ} {r : Resolution} {b b' : AppendFSM} {w w' : Replica σ}
        (h : startNewPipeline sel r b w = (b', w')) :
        w'.pipelineCh = w.pipelineCh ∧ b'.plnReturnCh = b.plnReturnCh := by
      rcases startNewPipeline_cases h with ⟨_, rfl, rfl⟩ | ⟨rfl, ⟨e, rfl⟩ | rfl⟩ <;>
        exact ⟨rfl, rfl⟩
    rcases onStartPipeline_cases h with ⟨r, -, ⟨p, pl, -, -, -, rfl, rfl⟩ | ⟨-, h⟩ | ⟨p, pl, -, -, -, h⟩⟩
    · rfl
    · rw [(hnew h).1, (hnew h).2]
    · rw [(hnew h).1, (hnew h).2]
  | sendPipelineSync _ _ _ _ h =>
    obtain ⟨r, -, rfl, -⟩ := onSendPipelineSync_eq C h
    rfl
  | recvPipelineSync _ _ _ _ _ _ _ _ h =>
    rcases onRecvPipelineSync_cases h with ⟨e, -, rfl, -⟩ | ⟨-, -, ⟨-, rfl, -⟩ | ⟨-, -, rfl, -⟩ |
      ⟨-, -, rfl, -⟩⟩ <;> rfl
  | updateAssignments _ _ _ _ h =>
    rcases onUpdateAssignments_cases h with ⟨r, -, ⟨-, rfl⟩ | ⟨-, ⟨e, -, rfl⟩ | ⟨-, rfl⟩⟩⟩ <;> rfl
  | awaitDesiredReplicas _ _ h =>
    rcases onAwaitDesiredReplicas_cases h with ⟨r, -, ⟨-, rfl⟩ | ⟨-, rfl⟩ | ⟨-, -, rfl⟩ |
      ⟨-, -, rfl⟩⟩ <;> rfl
  | validateOffset _ _ _ _ _ _ h =>
    rcases onValidateOffset_cases C h with
      ⟨r, -, ⟨e, -, rfl⟩ | ⟨-, ⟨st, rfl⟩ | ⟨-, -, -, rfl⟩ | ⟨-, -, rfl⟩⟩⟩ <;> rfl
  | chunk _ _ hpc hst _ _ h =>
    obtain ⟨-, -, ⟨r, hr, hok, -⟩, -⟩ : ShapeAt .streamContent ρ := hst ▸ (Shape.running hpc).mp hs
    obtain ⟨⟨_, _, _, _, _, _, rfl⟩, -⟩ := onStreamContent_frame C hr hok h
    rfl
  | tickIdle _ hpc hst _ _ _ h =>
    obtain ⟨-, -, ⟨r, hr, hok, -⟩, -⟩ : ShapeAt .streamContent ρ := hst ▸ (Shape.running hpc).mp hs
    obtain ⟨⟨_, _, _, _, _, _, rfl⟩, -⟩ := onStreamContent_frame C hr hok h
    rfl
  | tick => rfl
  | releaseSendSide _ hpc hst _ _ h =>
    obtain ⟨⟨hp, -⟩, -⟩ : ShapeAt .readAcknowledgements ρ := hst ▸ (Shape.running hpc).mp hs
    obtain ⟨pl₁, heq, -⟩ := releaseSendSide_eq _ _ _ _ hp
    rw [heq] at h
    cases h
    simp [hp]
  | passBarrier => rfl
  | readAcknowledgements _ _ _ _ h =>
    obtain ⟨e, rfl | rfl⟩ := readAcknowledgements_fsm h <;> rfl
  | exit _ _ h =>
    rw [returnPipeline_eq] at h
    cases h
    cases ρ.fsm.plnReturnCh <;> simp

theorem tokens_init {s : System σ} (h : Initial s) : tokens s = 1 := by
  obtain ⟨v, hv, -⟩ := h.channel
  have : holders s.runs = 0 := List.countP_eq_zero.mpr fun ρ hρ => by
    rw [h.runs ρ hρ]
    exact Bool.false_ne_true
  simp [tokens, hv, this]

theorem Reachable.tokens_eq_one {s : System σ} (hs : Reachable C Initial s) : tokens s = 1 := by
  induction hs with
  | init h => exact tokens_init h
  | step hr hstep ih =>
    cases hstep with
    | @run i ρ ρ' w' hi h =>
      have h₁ := h.tokens (hr.shape _ (List.getElem?_mem hi))
      have h₂ := holders_set hi ρ'
      simp only [tokens] at ih ⊢
      omega

theorem Reachable.pipelineCh_eq_nil {s : System σ} (hs : Reachable C Initial s) {ρ : Run}
    (hρ : ρ ∈ s.runs) (h : ρ.fsm.plnReturnCh = true) : s.replica.pipelineCh = [] := by
  have htok := hs.tokens_eq_one
  have hpos : 0 < holders s.runs := List.countP_pos_iff.mpr ⟨ρ, hρ, h⟩
  simp only [tokens] at htok
  exact List.eq_nil_of_length_eq_zero (by omega)

/-- The pipeline's send side is held by one append at a time, in every interleaving from any
start with one value in `pipelineCh`. -/
theorem pipelineCh_exclusive {s : System σ} (hs : Reachable C Initial s) :
    s.replica.pipelineCh.length + holders s.runs = 1 ∧
    (∀ ρ ∈ s.runs, ρ.fsm.plnReturnCh = true → s.replica.pipelineCh = []) ∧
    (∀ ρ ∈ s.runs, ρ.pc = .running → ρ.fsm.state = .acquirePipeline →
      ρ.fsm.plnReturnCh = false) ∧
    (∀ ρ ∈ s.runs, ρ.pc = .running → ρ.fsm.state = .readAcknowledgements →
      ρ.fsm.plnReturnCh = true) ∧
    (∀ ρ ∈ s.runs, ρ.pc = .running →
      (ρ.fsm.state = .sendPipelineSync ∨ ρ.fsm.state = .validateOffset ∨
        ρ.fsm.state = .streamContent ∨ (ρ.fsm.state = .startPipeline ∧ ρ.fsm.pln ≠ none)) →
      Holding ρ.fsm) ∧
    (∀ i ρ ρ' w' q pl pl', s.runs[i]? = some ρ → RunStep C i ρ s.replica ρ' w' →
      s.replica.pipelines[q]? = some pl → w'.pipelines[q]? = some pl' →
      ∃ new, pl'.log = new ++ pl.log ∧ ∀ c ∈ new, c.run = i ∧
        ((∃ req, c.op = .scatter req) ∨ (∃ k k', c.op = .barrier k k') ∨ c.op = .closeSend →
          Holding ρ.fsm ∧ ρ.fsm.pln = some q)) ∧
    ((∀ ρ ∈ s.runs, ρ.pc = .returned) → s.replica.pipelineCh.length = 1) := by
  have htok := hs.tokens_eq_one
  have hshape := hs.shape
  refine ⟨htok, fun _ hρ h => hs.pipelineCh_eq_nil hρ h, fun ρ hρ hpc hst => ?_,
    fun ρ hρ hpc hst => ?_, fun ρ hρ hpc hst => ?_, fun i ρ ρ' w' q pl pl' hi h hpl hpl' => ?_,
    fun hret => ?_⟩
  · exact (show ShapeAt .acquirePipeline ρ from hst ▸ (Shape.running hpc).mp (hshape ρ hρ)).1
  · exact (show ShapeAt .readAcknowledgements ρ from
      hst ▸ (Shape.running hpc).mp (hshape ρ hρ)).1.1
  · have hsh := (Shape.running hpc).mp (hshape ρ hρ)
    rcases hst with hst | hst | hst | ⟨hst, hpln⟩ <;> rw [hst] at hsh
    exacts [hsh.1, hsh.1, hsh.1, ⟨hsh.1, hpln⟩]
  · rcases h.logs (hshape ρ (List.getElem?_mem hi)) hpl' with ⟨pl₀, new, hpl₀, hsteps, hnew⟩ |
      ⟨rfl, -⟩
    · rw [hpl] at hpl₀
      cases hpl₀
      refine ⟨new, hsteps.log, fun c hc => ⟨(hnew c hc).1, fun hop => ?_⟩⟩
      have hf := (hnew c hc).2.2
      rcases hop with ⟨req, hop⟩ | ⟨k, k', hop⟩ | hop <;> rw [hop] at hf
      · exact ⟨hf.1, hf.2.1⟩
      · exact ⟨hf.1, hf.2.1⟩
      · exact hf
    · simp at hpl
  · have : holders s.runs = 0 := List.countP_eq_zero.mpr fun ρ hρ => by
      have h := hshape ρ hρ
      simp only [Shape, hret ρ hρ] at h
      simp [h.1]
    simp only [tokens, this] at htok
    omega

theorem pipelineCh_exclusive_streaming :
    Reachable sampleCollaborators Initial sampleStreaming ∧
    (∃ ρ ∈ sampleStreaming.runs, ρ.pc = .running ∧ ρ.fsm.state = .streamContent ∧
      Holding ρ.fsm) ∧
    (∃ ρ ∈ sampleStreaming.runs, ρ.pc = .running ∧ ρ.fsm.state = .acquirePipeline) ∧
    (∃ ρ', RunStep sampleCollaborators 0 sampleStreamer sampleStreaming.replica ρ'
      ⟨[], [sampleStreamed]⟩) ∧
    sampleStreaming.replica.pipelineCh.length + holders sampleStreaming.runs = 1 ∧
    (∀ ρ ∈ sampleStreaming.runs, ρ.fsm.plnReturnCh = true →
      sampleStreaming.replica.pipelineCh = []) ∧
    (∀ ρ ∈ sampleStreaming.runs, ρ.pc = .running → ρ.fsm.state = .acquirePipeline →
      ρ.fsm.plnReturnCh = false) ∧
    (∀ ρ ∈ sampleStreaming.runs, ρ.pc = .running → ρ.fsm.state = .readAcknowledgements →
      ρ.fsm.plnReturnCh = true) ∧
    (∀ ρ ∈ sampleStreaming.runs, ρ.pc = .running →
      (ρ.fsm.state = .sendPipelineSync ∨ ρ.fsm.state = .validateOffset ∨
        ρ.fsm.state = .streamContent ∨ (ρ.fsm.state = .startPipeline ∧ ρ.fsm.pln ≠ none)) →
      Holding ρ.fsm) ∧
    (∀ i ρ ρ' w' q pl pl', sampleStreaming.runs[i]? = some ρ →
      RunStep sampleCollaborators i ρ sampleStreaming.replica ρ' w' →
      sampleStreaming.replica.pipelines[q]? = some pl → w'.pipelines[q]? = some pl' →
      ∃ new, pl'.log = new ++ pl.log ∧ ∀ c ∈ new, c.run = i ∧
        ((∃ req, c.op = .scatter req) ∨ (∃ k k', c.op = .barrier k k') ∨ c.op = .closeSend →
          Holding ρ.fsm ∧ ρ.fsm.pln = some q)) ∧
    ((∀ ρ ∈ sampleStreaming.runs, ρ.pc = .returned) →
      sampleStreaming.replica.pipelineCh.length = 1) :=
  have hs := sampleStreaming_reachable.mono fun _ h => h ▸ sampleStart_start.1.1
  ⟨hs, ⟨_, List.mem_cons_self _ _, rfl, rfl, rfl, nofun⟩,
    ⟨_, List.mem_cons_of_mem _ (List.mem_singleton_self _), rfl, rfl⟩, sampleStreaming_chunk,
    pipelineCh_exclusive hs⟩

end Gazette.Broker
