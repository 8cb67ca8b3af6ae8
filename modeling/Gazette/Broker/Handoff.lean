import Mathlib.Data.List.Infix
import Gazette.Broker.Frame

/-! The hand-off of pipelines between appends through `pipelineCh`. A pipeline built by
`newPipeline` is synchronised by the append that built it before it goes anywhere; the
fast path of `onStartPipeline` reuses a held pipeline without synchronising it again, which
is sound because every pipeline in `pipelineCh`, and every pipeline an append holds outside
the sync round and the stream, has completed a round of `onRecvPipelineSync` with no error at
`rollToOffset = 0` and `readThroughRev = 0`, and nothing has been scattered on it since a
`sendErr()` check that answered nil. -/

namespace Gazette.Broker

variable {σ : Type} {C : Collaborators σ} {i : Nat} {ρ ρ' : Run} {w w' : Replica σ}

/-! ### What a pipeline's log records -/

def Op.isScatter : Op → Bool
  | .scatter _ => true
  | _ => false

theorem Op.sendSide_of_isScatter {op : Op} (h : op.isScatter = true) : op.sendSide = true := by
  cases op <;> first | rfl | cases h

def Fresh (log : List Call) : Prop := ∀ c ∈ log, c.op.isScatter = false

instance (log : List Call) : Decidable (Fresh log) :=
  inferInstanceAs (Decidable (∀ c ∈ log, c.op.isScatter = false))

theorem fresh_append {new log : List Call} : Fresh (new ++ log) ↔ Fresh new ∧ Fresh log :=
  List.forall_mem_append

theorem fresh_of_receive {new : List Call} (h : ∀ c ∈ new, c.op.sendSide = false) :
    Fresh new := fun c hc => by
  cases hs : c.op.isScatter
  · rfl
  · exact absurd (Op.sendSide_of_isScatter hs) (by simp [h c hc])

/-- The newest scatter or `sendErr()` of the log is a `sendErr()` that answered nil. -/
def lastSendOK : List Call → Bool
  | [] => false
  | c :: log =>
    match c.op with
    | .sendErr none => true
    | .sendErr (some _) | .scatter _ => false
    | _ => lastSendOK log

theorem lastSendOK_append {new log : List Call} (h : ∀ c ∈ new, c.op.sendSide = false) :
    lastSendOK (new ++ log) = lastSendOK log := by
  induction new with
  | nil => rfl
  | cons c new ih =>
    have hc := h c (List.mem_cons_self _ _)
    rw [List.cons_append, lastSendOK, ← ih fun c' hc' => h c' (List.mem_cons_of_mem _ hc')]
    revert hc
    cases c.op <;> intro hc <;> first | rfl | cases hc

/-- A round of `onRecvPipelineSync` by append `j` with no error, at `rollToOffset = 0` and
`readThroughRev = 0`, newest first. -/
def cleanRound (j : Nat) : List Call :=
  [⟨j, .recvPipelineSync, .sendErr none⟩, ⟨j, .recvPipelineSync, .recvErr none⟩,
    ⟨j, .recvPipelineSync, .gatherSync 0 0⟩]

def SyncedRound (log : List Call) : Prop := ∃ j, cleanRound j <:+: log

theorem syncedRound_iff {log : List Call} :
    SyncedRound log ↔ ∃ c ∈ log, cleanRound c.run <:+: log :=
  ⟨fun ⟨_, hj⟩ => ⟨_, hj.subset (List.mem_cons_self _ _), hj⟩, fun ⟨c, _, hc⟩ => ⟨c.run, hc⟩⟩

instance : DecidablePred SyncedRound := fun _ => decidable_of_iff _ syncedRound_iff.symm

theorem SyncedRound.append {log : List Call} (h : SyncedRound log) (new : List Call) :
    SyncedRound (new ++ log) :=
  let ⟨j, hj⟩ := h
  ⟨j, hj.trans (List.suffix_append new log).isInfix⟩

example : SyncedRound (⟨1, .readAcknowledgements, .gatherOK⟩ :: cleanRound 0) ∧
    ¬SyncedRound [⟨0, .recvPipelineSync, .sendErr none⟩] := by decide

/-- The log of a pipeline that may be handed to another append. -/
structure Clean (log : List Call) : Prop where
  synced : SyncedRound log
  checked : lastSendOK log = true
  scattered : ¬Fresh log

theorem Clean.frame {new log : List Call} (h : Clean log)
    (hnew : ∀ c ∈ new, c.op.sendSide = false) : Clean (new ++ log) :=
  ⟨h.synced.append new, (lastSendOK_append hnew).trans h.checked,
    fun hf => h.scattered (fresh_append.mp hf).2⟩

theorem Clean.round {log : List Call} (j : Nat) (hsc : ¬Fresh log) : Clean (cleanRound j ++ log) :=
  ⟨⟨j, List.infix_append [] _ _⟩, rfl, fun hf => hsc (fresh_append.mp hf).2⟩

theorem Clean.release {log : List Call} (hsyn : SyncedRound log) (hsc : ¬Fresh log)
    (j k k' : Nat) (st : AppendState) :
    Clean (⟨j, st, .barrier k k'⟩ :: ⟨j, st, .sendErr none⟩ :: log) :=
  ⟨hsyn.append [_, _], rfl,
    fun hf => hsc fun c hc => hf c (List.mem_cons_of_mem _ (List.mem_cons_of_mem _ hc))⟩

/-! ### The pipeline an append holds -/

/-- The states in which the pipeline an append holds is synchronised. -/
def AppendState.synced : AppendState → Bool
  | .sendPipelineSync | .recvPipelineSync => false
  | _ => true

/-- The states in which nothing is scattered on the held pipeline since its last `sendErr()`. -/
def AppendState.sendChecked : AppendState → Bool
  | .sendPipelineSync | .recvPipelineSync | .streamContent | .readAcknowledgements => false
  | _ => true

theorem AppendState.synced_of_sendChecked {st : AppendState} (h : st.sendChecked = true) :
    st.synced = true := by
  cases st <;> first | rfl | cases h

/-- What the log of the pipeline an append holds records, by the append's state. -/
structure HeldAt (b : AppendFSM) (log : List Call) : Prop where
  fresh : Fresh log ↔ b.state = .sendPipelineSync ∧ b.rollToOffset = 0
  synced : b.state.synced = true → SyncedRound log
  checked : b.state.sendChecked = true → lastSendOK log = true

variable {b b' : AppendFSM} {log : List Call}

theorem HeldAt.scattered (h : HeldAt b log) (hst : b.state.synced = true) : ¬Fresh log :=
  fun hf => by
    rw [(h.fresh.mp hf).1] at hst
    cases hst

theorem HeldAt.clean (h : HeldAt b log) (hst : b.state.sendChecked = true) : Clean log :=
  ⟨h.synced (AppendState.synced_of_sendChecked hst), h.checked hst,
    h.scattered (AppendState.synced_of_sendChecked hst)⟩

theorem Clean.heldAt (h : Clean log) (hst : b.state.synced = true) : HeldAt b log :=
  ⟨⟨fun hf => absurd hf h.scattered, fun ⟨hs, _⟩ => by rw [hs] at hst; cases hst⟩,
    fun _ => h.synced, fun _ => h.checked⟩

theorem HeldAt.frame {new : List Call} (h : HeldAt b log)
    (hnew : ∀ c ∈ new, c.op.sendSide = false) : HeldAt b (new ++ log) :=
  ⟨fresh_append.trans ⟨fun hf => h.fresh.mp hf.2, fun hs => ⟨fresh_of_receive hnew, h.fresh.mpr hs⟩⟩,
    fun hs => (h.synced hs).append new, fun hs => (lastSendOK_append hnew).trans (h.checked hs)⟩

theorem HeldAt.extend (h : HeldAt b log) (hst : b.state.synced = true)
    (hst' : b'.state.synced = true) (hck : b'.state.sendChecked = false) (new : List Call) :
    HeldAt b' (new ++ log) :=
  ⟨⟨fun hf => absurd (fresh_append.mp hf).2 (h.scattered hst),
      fun ⟨hs, _⟩ => by rw [hs] at hst'; cases hst'⟩,
    fun _ => (h.synced hst).append new, fun hs => by rw [hck] at hs; cases hs⟩

theorem AppendState.not_sendChecked {st : AppendState} (h : st.synced = false) :
    st.sendChecked = false := by
  cases st <;> first | rfl | cases h

theorem HeldAt.of_round (hsyn : b.state.synced = false)
    (hfresh : Fresh log ↔ b.state = .sendPipelineSync ∧ b.rollToOffset = 0) : HeldAt b log := by
  refine ⟨hfresh, fun hs => ?_, fun hs => ?_⟩
  · rw [hsyn] at hs
    cases hs
  · rw [AppendState.not_sendChecked hsyn] at hs
    cases hs

theorem HeldAt.of_scattered (hsc : ¬Fresh log)
    (hst : (b.state = .sendPipelineSync ∧ b.rollToOffset ≠ 0) ∨ b.state = .recvPipelineSync) :
    HeldAt b log := by
  refine .of_round (by rcases hst with ⟨h, _⟩ | h <;> rw [h] <;> rfl) ⟨fun hf => absurd hf hsc, ?_⟩
  rintro ⟨hs, hr⟩
  rcases hst with ⟨_, h⟩ | h
  · exact absurd hr h
  · rw [h] at hs
    cases hs

theorem HeldAt.new (hst : b.state = .sendPipelineSync) (hroll : b.rollToOffset = 0) :
    HeldAt b [] :=
  .of_round (by rw [hst]; rfl) ⟨fun _ => ⟨hst, hroll⟩, fun _ c hc => nomatch hc⟩

def Held (w : Replica σ) (ρ : Run) : Prop :=
  ρ.pc = .running → ρ.fsm.plnReturnCh = true → ∀ p, ρ.fsm.pln = some p →
    ∃ pl, w.pipelines[p]? = some pl ∧ HeldAt ρ.fsm pl.log

/-- Every pipeline in `pipelineCh` is there, with a clean log. -/
def Handed (w : Replica σ) : Prop :=
  ∀ p, some p ∈ w.pipelineCh → ∃ pl, w.pipelines[p]? = some pl ∧ Clean pl.log

namespace Held

theorem of_pln_none (h : ρ.fsm.pln = none) : Held w ρ := fun _ _ p hp => by
  rw [h] at hp
  cases hp

theorem of_pipeline {p : Nat} {pl : Pipeline σ} (hp : ρ.fsm.pln = some p)
    (hq : w.pipelines[p]? = some pl) (hat : HeldAt ρ.fsm pl.log) : Held w ρ := fun _ _ p' hp' => by
  rw [hp] at hp'
  cases hp'
  exact ⟨pl, hq, hat⟩

theorem move (hh : Held w ρ) (hpc : ρ.pc = .running) (hpl : w'.pipelines = w.pipelines)
    (hpln : ρ'.fsm.pln = ρ.fsm.pln) (hret : ρ'.fsm.plnReturnCh = ρ.fsm.plnReturnCh)
    (hst : ρ.fsm.state.sendChecked = true) (hst' : ρ'.fsm.state.synced = true) : Held w' ρ' :=
  fun _ hr p hp => by
    obtain ⟨pl, hq, hat⟩ := hh hpc (hret ▸ hr) p (hpln ▸ hp)
    exact ⟨pl, hpl ▸ hq, (hat.clean hst).heldAt hst'⟩

end Held

/-! ### One step -/

/-- One step keeps what each held pipeline records, and puts only clean pipelines or nil into
`pipelineCh`. -/
theorem RunStep.handoff (h : RunStep C i ρ w ρ' w') (hs : Shape ρ) (hheld : Held w ρ)
    (hch : Handed w) :
    Held w' ρ' ∧ (w'.pipelineCh = w.pipelineCh ∨
      (ρ.fsm.plnReturnCh = false ∧ ∃ v, w.pipelineCh = v :: w'.pipelineCh) ∨
      (ρ.fsm.plnReturnCh = true ∧ ∃ v, w'.pipelineCh = w.pipelineCh ++ [v] ∧
        ∀ p, v = some p → ∃ pl, w'.pipelines[p]? = some pl ∧ Clean pl.log)) := by
  have hnew {sel : Select σ} {r : Resolution} {b b' : AppendFSM} {w₀ : Replica σ}
      (h : startNewPipeline sel r b w₀ = (b', w')) (hpln : b.pln = none)
      (hroll : b.rollToOffset = 0) :
      Held w' { ρ with fsm := b' } ∧ w'.pipelineCh = w₀.pipelineCh := by
    rcases startNewPipeline_cases h with ⟨_, rfl, rfl⟩ | ⟨rfl, ⟨e, rfl⟩ | rfl⟩
    · exact ⟨.of_pipeline rfl (List.getElem?_concat_length ..) (.new rfl hroll), rfl⟩
    · exact ⟨.of_pln_none hpln, rfl⟩
    · exact ⟨.of_pln_none hpln, rfl⟩
  cases h with
  | resolve _ hpc hst h =>
    have hck : ρ.fsm.state.sendChecked = true := by rw [hst]; rfl
    rcases onResolve_cases h with ⟨rfl, hb⟩ | ⟨r, -, -, rfl, rfl⟩
    · refine ⟨?_, .inl rfl⟩
      rcases hb with ⟨e, rfl⟩ | ⟨r, -, rfl⟩ | ⟨r, -, -, -, rfl⟩ | ⟨r, -, -, -, rfl⟩ <;>
        exact hheld.move hpc rfl rfl rfl hck rfl
    refine ⟨fun _ hr => absurd hr Bool.false_ne_true, ?_⟩
    cases hret : ρ.fsm.plnReturnCh
    · exact .inl (by simp)
    · refine .inr (.inr ⟨rfl, ρ.fsm.pln, by simp, fun p hp => ?_⟩)
      obtain ⟨pl, hq, hat⟩ := hheld hpc hret p hp
      exact ⟨pl, hq, hat.clean hck⟩
  | acquirePipeline _ hpc hst h =>
    obtain ⟨hnot, -⟩ : ShapeAt .acquirePipeline ρ := hst ▸ (Shape.running hpc).mp hs
    rcases onAcquirePipeline_cases h with ⟨v, hv, hb⟩ | ⟨rfl, ⟨e, rfl⟩ | rfl⟩
    · refine ⟨fun _ _ p hp => ?_, .inr (.inl ⟨hnot, v, hv⟩)⟩
      have hp' : v = some p := by rcases hb with ⟨e, rfl⟩ | rfl | rfl <;> exact hp
      obtain ⟨pl, hq, hc⟩ := hch p (by rw [hv, ← hp']; exact List.mem_cons_self _ _)
      exact ⟨pl, hq, hc.heldAt (by rcases hb with ⟨e, rfl⟩ | rfl | rfl <;> rfl)⟩
    · exact ⟨fun _ hr => by simp [canceledWaiting, hnot] at hr, .inl rfl⟩
    · exact ⟨fun _ hr => by simp [hnot] at hr, .inl rfl⟩
  | startPipeline _ hpc hst h =>
    obtain ⟨-, hroll, -⟩ : ShapeAt .startPipeline ρ := hst ▸ (Shape.running hpc).mp hs
    rcases onStartPipeline_cases h with
      ⟨r, -, ⟨p, pl, -, -, -, rfl, rfl⟩ | ⟨hpln, h⟩ | ⟨p, pl, -, -, -, h⟩⟩
    · exact ⟨hheld.move hpc rfl rfl rfl (by rw [hst]; rfl) rfl, .inl rfl⟩
    · exact ⟨(hnew h hpln hroll).1, .inl (hnew h hpln hroll).2⟩
    · exact ⟨(hnew h rfl hroll).1, .inl (hnew h rfl hroll).2⟩
  | @sendPipelineSync p pl _ _ hpc hst hp hpl h =>
    obtain ⟨r, -, rfl, rfl⟩ := onSendPipelineSync_eq C h
    refine ⟨.of_pipeline hp (getElem?_set_of_some hpl _) (.of_scattered ?_ (.inr rfl)), .inl rfl⟩
    exact fun hf => by simpa [Op.isScatter] using hf _ (List.mem_cons_self _ _)
  | @recvPipelineSync p pl _ _ roll rev rf sf hpc hst hp hpl h =>
    obtain ⟨⟨hret, -⟩, -⟩ : ShapeAt .recvPipelineSync ρ := hst ▸ (Shape.running hpc).mp hs
    obtain ⟨pl₀, hpl₀, hat⟩ := hheld hpc hret p hp
    rw [hpl] at hpl₀
    cases hpl₀
    have hsc : ¬Fresh pl.log := fun hf => by
      have := (hat.fresh.mp hf).1
      rw [hst] at this
      cases this
    have hround := (gatherSyncRound_steps C i roll rev rf sf pl).log
    refine ⟨?_, .inl rfl⟩
    rcases onRecvPipelineSync_cases h with ⟨e, -, rfl, -⟩ | ⟨hr, hsd, ⟨hroll, rfl, rfl⟩ |
      ⟨-, -, rfl, -⟩ | ⟨rfl, rfl, rfl, rfl⟩⟩
    · exact .of_pln_none rfl
    · refine .of_pipeline hp (getElem?_set_of_some hpl _) (.of_scattered ?_ (.inl ⟨rfl, hroll⟩))
      rw [hround]
      exact fun hf => hsc (fresh_append.mp hf).2
    · exact .of_pln_none rfl
    · refine .of_pipeline hp (getElem?_set_of_some hpl _) (Clean.heldAt ?_ rfl)
      rw [hround, if_pos hr, hsd]
      exact Clean.round i hsc
  | updateAssignments _ _ hpc hst h =>
    have hck : ρ.fsm.state.sendChecked = true := by rw [hst]; rfl
    rcases onUpdateAssignments_cases h with ⟨r, -, ⟨-, rfl⟩ | ⟨-, ⟨e, -, rfl⟩ | ⟨-, rfl⟩⟩⟩ <;>
      exact ⟨hheld.move hpc rfl rfl rfl hck rfl, .inl rfl⟩
  | awaitDesiredReplicas hpc hst h =>
    have hck : ρ.fsm.state.sendChecked = true := by rw [hst]; rfl
    rcases onAwaitDesiredReplicas_cases h with ⟨r, -, ⟨-, rfl⟩ | ⟨-, rfl⟩ | ⟨-, -, rfl⟩ |
      ⟨-, -, rfl⟩⟩ <;>
      exact ⟨hheld.move hpc rfl rfl rfl hck rfl, .inl rfl⟩
  | validateOffset _ _ hpc hst _ _ h =>
    have hck : ρ.fsm.state.sendChecked = true := by rw [hst]; rfl
    refine ⟨?_, .inl rfl⟩
    rcases onValidateOffset_cases C h with
      ⟨r, -, ⟨e, -, rfl⟩ | ⟨-, ⟨st, rfl⟩ | ⟨ho, -, -, rfl⟩ | ⟨-, -, rfl⟩⟩⟩
    · exact hheld.move hpc rfl rfl rfl hck rfl
    · exact hheld.move hpc rfl rfl rfl hck rfl
    · intro _ hret p hp
      obtain ⟨pl, hq, hat⟩ := hheld hpc hret p hp
      exact ⟨pl, hq, .of_scattered (hat.clean hck).scattered (.inl ⟨rfl, ho⟩)⟩
    · exact hheld.move hpc rfl rfl rfl hck rfl
  | @chunk p pl _ _ _ _ hpc hst hp hpl h =>
    obtain ⟨⟨hret, -⟩, -, ⟨r, hres, hok, -⟩, -⟩ : ShapeAt .streamContent ρ :=
      hst ▸ (Shape.running hpc).mp hs
    obtain ⟨pl₀, hpl₀, hat⟩ := hheld hpc hret p hp
    rw [hpl] at hpl₀
    cases hpl₀
    obtain ⟨-, new, hcalls⟩ := onStreamContent_frame C hres hok h
    obtain ⟨hpln, -, hst'⟩ := onStreamContent_keeps hres hok h
    refine ⟨.of_pipeline (hpln.trans hp) (getElem?_set_of_some hpl _) ?_, .inl rfl⟩
    rw [hcalls.send.steps.log]
    refine hat.extend (by rw [hst]; rfl) ?_ ?_ new <;>
      rcases hst' with h' | ⟨h', -⟩ <;> rw [h'] <;> try rw [hst]
    all_goals rfl
  | @tickIdle p pl _ _ _ hpc hst _ hp hpl h =>
    obtain ⟨⟨hret, -⟩, -, ⟨r, hres, hok, -⟩, -⟩ : ShapeAt .streamContent ρ :=
      hst ▸ (Shape.running hpc).mp hs
    obtain ⟨pl₀, hpl₀, hat⟩ := hheld hpc hret p hp
    rw [hpl] at hpl₀
    cases hpl₀
    obtain ⟨-, new, hcalls⟩ := onStreamContent_frame C hres hok h
    obtain ⟨hpln, -, hst'⟩ := onStreamContent_keeps hres hok h
    refine ⟨.of_pipeline (hpln.trans hp) (getElem?_set_of_some hpl _) ?_, .inl rfl⟩
    rw [hcalls.send.steps.log]
    refine hat.extend (by rw [hst]; rfl) ?_ ?_ new <;>
      rcases hst' with h' | ⟨h', -⟩ <;> rw [h'] <;> try rw [hst]
    all_goals rfl
  | tick => exact ⟨hheld, .inl rfl⟩
  | @releaseSendSide p pl _ _ _ f hpc hst hp hpl h =>
    obtain ⟨⟨hret, -⟩, -⟩ : ShapeAt .readAcknowledgements ρ := hst ▸ (Shape.running hpc).mp hs
    obtain ⟨pl₀, hpl₀, hat⟩ := hheld hpc hret p hp
    rw [hpl] at hpl₀
    cases hpl₀
    obtain ⟨pl₁, heq, hsteps⟩ := releaseSendSide_steps C i f pl w.pipelineCh hret
    rw [heq] at h
    cases h
    refine ⟨(fun hpc' => nomatch hpc'), .inr (.inr ⟨hret, _, rfl, fun p' hv => ?_⟩)⟩
    have hsyn : ρ.fsm.state.synced = true := by rw [hst]; rfl
    split_ifs at hv with he
    rw [hp] at hv
    cases hv
    refine ⟨_, getElem?_set_of_some hpl _, ?_⟩
    rw [hsteps.log, if_pos he, he]
    exact Clean.release (hat.synced hsyn) (hat.scattered hsyn) i _ _ _
  | passBarrier => exact ⟨(fun hpc' => nomatch hpc'), .inl rfl⟩
  | readAcknowledgements _ hpc _ _ h =>
    obtain ⟨-, hret, -⟩ : Releasing ρ.fsm := by simpa [Shape, hpc] using hs
    obtain ⟨e, rfl | rfl⟩ := readAcknowledgements_fsm h <;>
      exact ⟨fun _ hr => by simp [hret] at hr, .inl rfl⟩
  | exit hpc hst h =>
    rw [returnPipeline_eq] at h
    cases h
    refine ⟨(fun hpc' => nomatch hpc'), ?_⟩
    cases hret : ρ.fsm.plnReturnCh
    · exact .inl (by simp)
    · refine .inr (.inr ⟨rfl, ρ.fsm.pln, by simp, fun p hp => ?_⟩)
      obtain ⟨pl, hq, hat⟩ := hheld hpc hret p hp
      exact ⟨pl, hq, hat.clean (by rcases hst with h | h | h <;> rw [h] <;> rfl)⟩

/-! ### Every reachable state -/

theorem Reachable.handoff {s : System σ} (hs : Reachable C NilStart s) :
    Handed s.replica ∧ ∀ ρ ∈ s.runs, Held s.replica ρ := by
  refine Reachable.each (fun s h => ⟨fun p hp => ?_, fun ρ hρ => ?_⟩)
    (fun s i ρ ρ' w' hr hJ hI hi h => ?_) hs
  · rw [h.2] at hp
    simp at hp
  · rw [h.1.runs ρ hρ]
    exact fun _ hr => absurd hr Bool.false_ne_true
  have hr' : Reachable C Initial s := hr.mono fun _ h => h.1
  have hρ := List.getElem?_mem hi
  have hsh := hr'.shape _ hρ
  obtain ⟨hheld, hch⟩ := h.handoff hsh (hI ρ hρ) hJ
  have hother {q : Nat} {pl : Pipeline σ} (hq : s.replica.pipelines[q]? = some pl)
      (hnh : ρ.fsm.plnReturnCh = true → ρ.fsm.pln ≠ some q) :
      ∃ pl', w'.pipelines[q]? = some pl' ∧ ∃ new, pl'.log = new ++ pl.log ∧
        ∀ c ∈ new, c.op.sendSide = false :=
    let ⟨pl', hq', _, hrest⟩ := h.frame hsh hq hnh
    ⟨pl', hq', hrest⟩
  refine ⟨?_, hheld, fun j ρ₀ hj hρ₀ hpc hret p hp => ?_⟩
  · rcases hch with hsame | ⟨hnot, v, hv⟩ | ⟨hret, v, hv, hclean⟩
    · intro p hp
      rw [hsame] at hp
      obtain ⟨pl, hq, hc⟩ := hJ p hp
      obtain ⟨pl', hq', new, hlog, hnew⟩ := hother hq fun hret => by
        rw [hr'.pipelineCh_eq_nil hρ hret] at hp
        cases hp
      exact ⟨pl', hq', hlog ▸ hc.frame hnew⟩
    · intro p hp
      obtain ⟨pl, hq, hc⟩ := hJ p (by rw [hv]; exact List.mem_cons_of_mem _ hp)
      obtain ⟨pl', hq', new, hlog, hnew⟩ := hother hq fun h => absurd h (by simp [hnot])
      exact ⟨pl', hq', hlog ▸ hc.frame hnew⟩
    · intro p hp
      rw [hv, hr'.pipelineCh_eq_nil hρ hret] at hp
      exact hclean p (List.mem_singleton.mp hp).symm
  · obtain ⟨pl, hq, hat⟩ := hI ρ₀ (List.getElem?_mem hρ₀) hpc hret p hp
    obtain ⟨pl', hq', new, hlog, hnew⟩ := hother hq fun h _ =>
      hj (hr'.holder_unique hρ₀ hi hret h)
    exact ⟨pl', hq', hlog ▸ hat.frame hnew⟩


/-- From any start whose `pipelineCh` holds nil, in every interleaving: every pipeline in
`pipelineCh` has completed a clean sync round and a nil `sendErr()` after its last scatter. -/
theorem handoff_synchronised {s : System σ} (hs : Reachable C NilStart s) :
    (∀ p, some p ∈ s.replica.pipelineCh → ∃ pl, s.replica.pipelines[p]? = some pl ∧
      SyncedRound pl.log ∧ lastSendOK pl.log = true ∧ ¬Fresh pl.log) ∧
    (∀ ρ ∈ s.runs, ρ.pc = .running → ρ.fsm.state = .startPipeline → ∀ p, ρ.fsm.pln = some p →
      ∃ pl, s.replica.pipelines[p]? = some pl ∧ SyncedRound pl.log ∧
        lastSendOK pl.log = true) := by
  obtain ⟨hch, hheld⟩ := hs.handoff
  refine ⟨fun p hp => ?_, fun ρ hρ hpc hst p hp => ?_⟩
  · obtain ⟨pl, hq, hc⟩ := hch p hp
    exact ⟨pl, hq, hc.synced, hc.checked, hc.scattered⟩
  · have hsh := (hs.mono fun _ h => h.1).shape ρ hρ
    obtain ⟨hret, -⟩ : ShapeAt .startPipeline ρ := hst ▸ (Shape.running hpc).mp hsh
    obtain ⟨pl, hq, hat⟩ := hheld ρ hρ hpc hret p hp
    have hc := hat.clean (by rw [hst]; rfl)
    exact ⟨pl, hq, hc.synced, hc.checked⟩

theorem handoff_synchronised_sample :
    (Reachable sampleCollaborators NilStart sampleHandoff ∧
      some 0 ∈ sampleHandoff.replica.pipelineCh ∧
      (∀ p, some p ∈ sampleHandoff.replica.pipelineCh →
        ∃ pl, sampleHandoff.replica.pipelines[p]? = some pl ∧
          SyncedRound pl.log ∧ lastSendOK pl.log = true ∧ ¬Fresh pl.log) ∧
      (∀ ρ ∈ sampleHandoff.runs, ρ.pc = .running → ρ.fsm.state = .startPipeline →
        ∀ p, ρ.fsm.pln = some p → ∃ pl, sampleHandoff.replica.pipelines[p]? = some pl ∧
          SyncedRound pl.log ∧ lastSendOK pl.log = true)) ∧
    (Reachable sampleCollaborators NilStart sampleReuse ∧
      (∃ ρ ∈ sampleReuse.runs, ρ.pc = .running ∧ ρ.fsm.state = .startPipeline ∧
        ρ.fsm.pln = some 0) ∧
      (∀ p, some p ∈ sampleReuse.replica.pipelineCh →
        ∃ pl, sampleReuse.replica.pipelines[p]? = some pl ∧
          SyncedRound pl.log ∧ lastSendOK pl.log = true ∧ ¬Fresh pl.log) ∧
      (∀ ρ ∈ sampleReuse.runs, ρ.pc = .running → ρ.fsm.state = .startPipeline →
        ∀ p, ρ.fsm.pln = some p → ∃ pl, sampleReuse.replica.pipelines[p]? = some pl ∧
          SyncedRound pl.log ∧ lastSendOK pl.log = true)) :=
  have hh := sampleHandoff_reachable.mono fun _ h => h ▸ sampleStart_start.2
  have hr := sampleReuse_reachable.mono fun _ h => h ▸ sampleStart_start.2
  ⟨⟨hh, List.mem_singleton_self _, handoff_synchronised hh⟩,
    ⟨hr, ⟨_, List.mem_cons_of_mem _ (List.mem_singleton_self _), rfl, rfl, rfl⟩,
      handoff_synchronised hr⟩⟩

end Gazette.Broker
