import Gazette.Broker.Handlers

/-! Any number of appends running `appendFSM.run` against one replica, in any interleaving
of their steps. A step of an append is one handler of `runTo` or of the stream loop, one of
the two halves of `onReadAcknowledgements` around its barrier wait, the wait itself, or the
deferred `returnPipeline` on the way out. -/

namespace Gazette.Broker

/-- Where the goroutine running `appendFSM.run` is. -/
inductive RunPc where
  /-- Running handlers: `runTo`, the stream loop, or entering `onReadAcknowledgements`. -/
  | running
  /-- In `onReadAcknowledgements`, the send side released, blocked on `<-waitFor`. -/
  | awaitBarrier (waitFor closeAfter : Nat) (sendErr : Option Error)
  /-- In `onReadAcknowledgements` past `<-waitFor`, owning the receive side. -/
  | gathering (closeAfter : Nat) (sendErr : Option Error)
  /-- The `run` has returned. -/
  | returned
  deriving DecidableEq, Repr

/-- One append: its `appendFSM`, where its `run` is, and the stream loop's `sawChunk`;
`validated`, the offsets its latest `onValidateOffset` saw, is auxiliary. -/
structure Run where
  fsm : AppendFSM
  pc : RunPc
  sawChunk : Bool
  validated : Option (Int × Int)

def Run.init (req : AppendRequest) : Run := ⟨AppendFSM.init req, .running, false, none⟩

/-- The replica and the appends running against it. -/
structure System (σ : Type) where
  replica : Replica σ
  runs : List Run

variable {σ : Type} (C : Collaborators σ)

/-- One step of append `i`, from `ρ` with replica `w` to `ρ'` with replica `w'`. -/
inductive RunStep (i : Nat) : Run → Replica σ → Run → Replica σ → Prop where
  | resolve {ρ w b ch} (resolve : ResolveArgs → Except Error Resolution)
      (hpc : ρ.pc = .running) (hst : ρ.fsm.state = .resolve)
      (h : onResolve resolve ρ.fsm w.pipelineCh = (b, ch)) :
      RunStep i ρ w { ρ with fsm := b } { w with pipelineCh := ch }
  | acquirePipeline {ρ w b ch} (sel : Select PostCheck) (hpc : ρ.pc = .running)
      (hst : ρ.fsm.state = .acquirePipeline)
      (h : onAcquirePipeline sel ρ.fsm w.pipelineCh = some (b, ch)) :
      RunStep i ρ w { ρ with fsm := b } { w with pipelineCh := ch }
  | startPipeline {ρ w b w'} (sel : Select σ) (hpc : ρ.pc = .running)
      (hst : ρ.fsm.state = .startPipeline) (h : onStartPipeline i sel ρ.fsm w = some (b, w')) :
      RunStep i ρ w { ρ with fsm := b } w'
  | sendPipelineSync {ρ w p pl b pl'} (hpc : ρ.pc = .running)
      (hst : ρ.fsm.state = .sendPipelineSync) (hp : ρ.fsm.pln = some p)
      (hpl : w.pipelines[p]? = some pl) (h : onSendPipelineSync C i ρ.fsm pl = some (b, pl')) :
      RunStep i ρ w { ρ with fsm := b } { w with pipelines := w.pipelines.set p pl' }
  | recvPipelineSync {ρ w p pl b pl'} (roll rev : Int) (recvFailure sendFailure : Option Error)
      (hpc : ρ.pc = .running) (hst : ρ.fsm.state = .recvPipelineSync)
      (hp : ρ.fsm.pln = some p) (hpl : w.pipelines[p]? = some pl)
      (h : onRecvPipelineSync i roll rev recvFailure sendFailure ρ.fsm pl = (b, pl')) :
      RunStep i ρ w { ρ with fsm := b } { w with pipelines := w.pipelines.set p pl' }
  | updateAssignments {ρ w b} (rev : Int) (err : Option Error) (hpc : ρ.pc = .running)
      (hst : ρ.fsm.state = .updateAssignments) (h : onUpdateAssignments rev err ρ.fsm = some b) :
      RunStep i ρ w { ρ with fsm := b } w
  | awaitDesiredReplicas {ρ w b} (hpc : ρ.pc = .running)
      (hst : ρ.fsm.state = .awaitDesiredReplicas) (h : onAwaitDesiredReplicas ρ.fsm = some b) :
      RunStep i ρ w { ρ with fsm := b } w
  | validateOffset {ρ w p pl b} (refresh : Option Error) (endOffset : Int)
      (hpc : ρ.pc = .running) (hst : ρ.fsm.state = .validateOffset)
      (hp : ρ.fsm.pln = some p) (hpl : w.pipelines[p]? = some pl)
      (h : onValidateOffset C refresh endOffset ρ.fsm pl = some b) :
      RunStep i ρ w { ρ with fsm := b, validated := some ((C.fragment pl.spool).end, endOffset) } w
  | chunk {ρ w p pl b pl'} (chunk : Except Error AppendRequest) (failure : Option Error)
      (hpc : ρ.pc = .running) (hst : ρ.fsm.state = .streamContent)
      (hp : ρ.fsm.pln = some p) (hpl : w.pipelines[p]? = some pl)
      (h : onStreamContent C i chunk failure ρ.fsm pl = some (b, pl')) :
      RunStep i ρ w { ρ with fsm := b, sawChunk := true }
        { w with pipelines := w.pipelines.set p pl' }
  | tickIdle {ρ w p pl b pl'} (failure : Option Error) (hpc : ρ.pc = .running)
      (hst : ρ.fsm.state = .streamContent) (hsaw : ρ.sawChunk = false)
      (hp : ρ.fsm.pln = some p) (hpl : w.pipelines[p]? = some pl)
      (h : onStreamContent C i (.error .deadlineExceeded) failure ρ.fsm pl = some (b, pl')) :
      RunStep i ρ w { ρ with fsm := b } { w with pipelines := w.pipelines.set p pl' }
  | tick {ρ w} (hpc : ρ.pc = .running) (hst : ρ.fsm.state = .streamContent)
      (hsaw : ρ.sawChunk = true) :
      RunStep i ρ w { ρ with sawChunk := false } w
  | releaseSendSide {ρ w p pl b pl' ch} (failure : Option Error) (hpc : ρ.pc = .running)
      (hst : ρ.fsm.state = .readAcknowledgements) (hp : ρ.fsm.pln = some p)
      (hpl : w.pipelines[p]? = some pl)
      (h : releaseSendSide i failure ρ.fsm pl w.pipelineCh = some (b, pl', ch)) :
      RunStep i ρ w
        { ρ with
          fsm := b
          pc := .awaitBarrier pl.readBarrier (pl.readBarrier + 1) (pl.sendErrResult failure) }
        { pipelineCh := ch, pipelines := w.pipelines.set p pl' }
  | passBarrier {ρ w p pl k k' e} (hpc : ρ.pc = .awaitBarrier k k' e) (hp : ρ.fsm.pln = some p)
      (hpl : w.pipelines[p]? = some pl) (hk : k ∈ pl.closed) :
      RunStep i ρ w { ρ with pc := .gathering k' e } w
  | readAcknowledgements {ρ w p pl k e b pl'} (failure : Option Error)
      (hpc : ρ.pc = .gathering k e) (hp : ρ.fsm.pln = some p) (hpl : w.pipelines[p]? = some pl)
      (h : readAcknowledgements i k e failure ρ.fsm pl = some (b, pl')) :
      RunStep i ρ w { ρ with fsm := b, pc := .running }
        { w with pipelines := w.pipelines.set p pl' }
  | exit {ρ w b ch} (hpc : ρ.pc = .running)
      (hst : ρ.fsm.state = .error ∨ ρ.fsm.state = .proxy ∨ ρ.fsm.state = .finished)
      (h : returnPipeline ρ.fsm w.pipelineCh = (b, ch)) :
      RunStep i ρ w { ρ with fsm := b, pc := .returned } { w with pipelineCh := ch }

/-- A step of the system: one step of one append. -/
inductive Step : System σ → System σ → Prop where
  | run {s i ρ ρ' w'} (hi : s.runs[i]? = some ρ) (h : RunStep C i ρ s.replica ρ' w') :
      Step s { replica := w', runs := s.runs.set i ρ' }

/-- A start: appends before their first step, and one value in `pipelineCh`. -/
structure Initial (s : System σ) : Prop where
  runs : ∀ ρ ∈ s.runs, ρ = Run.init ρ.fsm.req
  channel : ∃ v, s.replica.pipelineCh = [v] ∧ ∀ p, v = some p → p < s.replica.pipelines.length

def NilStart (s : System σ) : Prop := Initial s ∧ s.replica.pipelineCh = [none]

/-- The start `newReplica` makes: `pipelineCh` holds nil and no pipeline is built yet. -/
def NewReplica (s : System σ) : Prop := Initial s ∧ s.replica.pipelines = []

/-- The states the system reaches from a state that satisfies `start`. -/
inductive Reachable (start : System σ → Prop) : System σ → Prop where
  | init {s} : start s → Reachable start s
  | step {s s'} : Reachable start s → Step C s s' → Reachable start s'

variable {C}

theorem Reachable.induction {start I : System σ → Prop} (hinit : ∀ s, start s → I s)
    (hstep : ∀ s s', Reachable C start s → I s → Step C s s' → I s') {s : System σ}
    (hs : Reachable C start s) : I s := by
  induction hs with
  | init h => exact hinit _ h
  | step hs h ih => exact hstep _ _ hs ih h

theorem Reachable.mono {start start' : System σ → Prop} (h : ∀ s, start s → start' s)
    {s : System σ} (hs : Reachable C start s) : Reachable C start' s := by
  induction hs with
  | init h0 => exact .init (h _ h0)
  | step _ hst ih => exact .step ih hst

theorem Reachable.runStep {start : System σ → Prop} {s : System σ} (hs : Reachable C start s)
    (i : Nat) {ρ ρ' : Run} {w' : Replica σ} (hi : s.runs[i]? = some ρ)
    (h : RunStep C i ρ s.replica ρ' w') : Reachable C start ⟨w', s.runs.set i ρ'⟩ :=
  hs.step (.run hi h)

/-! ### A sample run

Two appends of one byte each against a new replica. The first resolves, takes nil from
`pipelineCh`, builds pipeline 0 and syncs it cleanly, validates its offset, streams its byte,
the empty chunk and EOF, commits and releases the send side; the second, waiting in
stateAcquirePipeline meanwhile, takes pipeline 0, reuses it without a new sync, commits in
turn and takes the next barrier; then the first gathers its acknowledgements. The results on
the pipeline are instantiated at its milestones. -/

/-- The spool is its fragment, a proposal replaces it and content extends it. -/
def sampleCollaborators : Collaborators Fragment where
  fragment := id
  next f := { f with begin := f.end }
  apply f req := req.proposal.getD { f with «end» := f.end + req.content.length }
  nextProposal f _ _ := f
  validate _ := none
  sha1 _ := .zero

def sampleRequest : AppendRequest := ⟨none, "a/journal", false, 0, [1]⟩

def sampleResolution : Resolution :=
  ⟨.ok, ⟨⟨"local", "broker"⟩, ⟨[⟨"local", "broker"⟩], 0⟩, 1⟩, ⟨"local", "broker"⟩,
    ⟨"a/journal", 1, .rdWr, ⟨1024, .none⟩⟩, []⟩

def sampleSpool : Fragment := ⟨"a/journal", 0, 0, .zero, .none, "", 0⟩

def sampleFsm (st : AppendState) : AppendFSM :=
  { AppendFSM.init sampleRequest with resolved := some sampleResolution, state := st }

def sampleStart : System Fragment :=
  ⟨⟨[none], []⟩, [Run.init sampleRequest, Run.init sampleRequest]⟩

theorem sampleStart_start : NewReplica sampleStart ∧ NilStart sampleStart := by
  have h : Initial sampleStart := ⟨fun ρ hρ => by
    simp only [sampleStart, List.mem_cons, List.mem_singleton, List.not_mem_nil, or_false] at hρ
    rcases hρ with rfl | rfl <;> rfl, none, rfl, nofun⟩
  exact ⟨⟨h, rfl⟩, h, rfl⟩

def sampleWaiter : Run := ⟨sampleFsm .acquirePipeline, .running, false, none⟩

def sampleBuilder : Run :=
  ⟨{ sampleFsm .sendPipelineSync with pln := some 0, plnReturnCh := true }, .running, false, none⟩

def sampleBuilt : System Fragment :=
  ⟨⟨[], [newPipeline sampleResolution.header sampleSpool]⟩, [sampleBuilder, sampleWaiter]⟩

def sampleSyncRequest : ReplicateRequest :=
  { proposal := some sampleSpool, acknowledge := true, header := some sampleResolution.header,
    journal := "a/journal" }

/-- Pipeline 0 after its clean sync round. -/
def sampleSynced : Pipeline Fragment :=
  (newPipeline sampleResolution.header sampleSpool).scatter sampleCollaborators 0
      .sendPipelineSync sampleSyncRequest
    |>.record 0 .recvPipelineSync (.gatherSync 0 0) |>.recvErr 0 .recvPipelineSync none
    |>.sendErr 0 .recvPipelineSync none

def sampleStreamer : Run :=
  ⟨{ sampleFsm .streamContent with pln := some 0, plnReturnCh := true }, .running, false,
    some (0, 0)⟩

def sampleStreaming : System Fragment := ⟨⟨[], [sampleSynced]⟩, [sampleStreamer, sampleWaiter]⟩

def sampleStreamed : Pipeline Fragment :=
  sampleSynced.scatter sampleCollaborators 0 .streamContent { content := [1] }
    |>.sendErr 0 .streamContent none

/-- Pipeline 0 once the first append has committed and released the send side. -/
def sampleCommitted : Pipeline Fragment :=
  sampleStreamed.sendErr 0 .streamContent none
    |>.scatter sampleCollaborators 0 .streamContent
      { proposal := some ⟨"a/journal", 1, 1, .zero, .none, "", 0⟩, acknowledge := true }
    |>.sendErr 0 .readAcknowledgements none |>.barrier 0 .readAcknowledgements

def sampleCommitter : Run :=
  ⟨{ sampleFsm .readAcknowledgements with
      pln := some 0
      clientCommit := true
      clientFragment := some ⟨"a/journal", 0, 1, .zero, .none, "", 0⟩
      clientSummer := [1] }, .awaitBarrier 0 1 none, true, some (0, 0)⟩

/-- The first append has handed pipeline 0 back to `pipelineCh`. -/
def sampleHandoff : System Fragment :=
  ⟨⟨[some 0], [sampleCommitted]⟩, [sampleCommitter, sampleWaiter]⟩

/-- The second append has taken pipeline 0, in stateStartPipeline. -/
def sampleReuse : System Fragment :=
  ⟨⟨[], [sampleCommitted]⟩,
    [sampleCommitter,
      ⟨{ sampleFsm .startPipeline with pln := some 0, plnReturnCh := true }, .running, false,
        none⟩]⟩

/-- The second append waits on barrier signal 1, which the first has closed. -/
def sampleChain : System Fragment :=
  ⟨⟨[some 0], [sampleCommitted.scatter sampleCollaborators 1 .streamContent { content := [1] }
      |>.sendErr 1 .streamContent none |>.sendErr 1 .streamContent none
      |>.scatter sampleCollaborators 1 .streamContent
        { proposal := some ⟨"a/journal", 2, 2, .zero, .none, "", 0⟩, acknowledge := true }
      |>.sendErr 1 .readAcknowledgements none |>.barrier 1 .readAcknowledgements
      |>.record 0 .readAcknowledgements .gatherOK |>.recvErr 0 .readAcknowledgements none
      |>.close 0 .readAcknowledgements 1]⟩,
    [{ sampleCommitter with
        fsm := { sampleCommitter.fsm with state := .finished }
        pc := .running },
      ⟨{ sampleFsm .readAcknowledgements with
          pln := some 0
          clientCommit := true
          clientFragment := some ⟨"a/journal", 1, 2, .zero, .none, "", 0⟩
          clientSummer := [1] }, .awaitBarrier 1 2 none, true, some (1, 0)⟩]⟩

theorem sampleBuilt_reachable : Reachable sampleCollaborators (· = sampleStart) sampleBuilt :=
  ((Reachable.init rfl : Reachable sampleCollaborators (· = sampleStart) sampleStart)
    |>.runStep 0 rfl (.resolve (fun _ => .ok sampleResolution) rfl rfl rfl)
    |>.runStep 1 rfl (.resolve (fun _ => .ok sampleResolution) rfl rfl rfl)
    |>.runStep 0 rfl (.acquirePipeline (.recv .pass) rfl rfl rfl)
    |>.runStep 0 rfl (.startPipeline (.recv sampleSpool) rfl rfl rfl) : Reachable _ _ _)

theorem sampleStreaming_reachable :
    Reachable sampleCollaborators (· = sampleStart) sampleStreaming :=
  (sampleBuilt_reachable.runStep 0 rfl (.sendPipelineSync rfl rfl rfl rfl rfl)
    |>.runStep 0 rfl (.recvPipelineSync 0 0 none none rfl rfl rfl rfl rfl)
    |>.runStep 0 rfl (.updateAssignments 0 none rfl rfl rfl)
    |>.runStep 0 rfl (.awaitDesiredReplicas rfl rfl rfl)
    |>.runStep 0 rfl (.validateOffset none 0 rfl rfl rfl rfl rfl) : Reachable _ _ _)

theorem sampleStreaming_chunk : ∃ ρ', RunStep sampleCollaborators 0 sampleStreamer
    sampleStreaming.replica ρ' ⟨[], [sampleStreamed]⟩ :=
  ⟨_, (.chunk (.ok ⟨none, "", false, 0, [1]⟩) none rfl rfl rfl rfl rfl :
    RunStep sampleCollaborators 0 sampleStreamer sampleStreaming.replica _ _)⟩

theorem sampleHandoff_reachable : Reachable sampleCollaborators (· = sampleStart) sampleHandoff :=
  (sampleStreaming_reachable
    |>.runStep 0 rfl (.chunk (.ok ⟨none, "", false, 0, [1]⟩) none rfl rfl rfl rfl rfl)
    |>.runStep 0 rfl (.chunk (.ok ⟨none, "", false, 0, []⟩) none rfl rfl rfl rfl rfl)
    |>.runStep 0 rfl (.chunk (.error .eof) none rfl rfl rfl rfl rfl)
    |>.runStep 0 rfl (.releaseSendSide none rfl rfl rfl rfl rfl) : Reachable _ _ _)

theorem sampleReuse_reachable : Reachable sampleCollaborators (· = sampleStart) sampleReuse :=
  (sampleHandoff_reachable.runStep 1 rfl (.acquirePipeline (.recv .pass) rfl rfl rfl) :
    Reachable _ _ _)

theorem sampleChain_reachable : Reachable sampleCollaborators (· = sampleStart) sampleChain :=
  (sampleReuse_reachable.runStep 1 rfl (.startPipeline (.recv sampleSpool) rfl rfl rfl)
    |>.runStep 1 rfl (.updateAssignments 0 none rfl rfl rfl)
    |>.runStep 1 rfl (.awaitDesiredReplicas rfl rfl rfl)
    |>.runStep 1 rfl (.validateOffset none 0 rfl rfl rfl rfl rfl)
    |>.runStep 1 rfl (.chunk (.ok ⟨none, "", false, 0, [1]⟩) none rfl rfl rfl rfl rfl)
    |>.runStep 1 rfl (.chunk (.ok ⟨none, "", false, 0, []⟩) none rfl rfl rfl rfl rfl)
    |>.runStep 1 rfl (.chunk (.error .eof) none rfl rfl rfl rfl rfl)
    |>.runStep 1 rfl (.releaseSendSide none rfl rfl rfl rfl rfl)
    |>.runStep 0 rfl (.passBarrier rfl rfl rfl (List.mem_singleton_self 0))
    |>.runStep 0 rfl (.readAcknowledgements none rfl rfl rfl rfl) : Reachable _ _ _)

end Gazette.Broker
