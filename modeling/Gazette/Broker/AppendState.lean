import Gazette.Protocol

/-! The fields and states of `appendFSM`, and the resolution it acts on. The model has one
replica, so a return channel is either the replica's `pipelineCh` or nil. -/

namespace Gazette.Broker

/-- The states of `appendFSM`, from `stateResolve` to the terminal ones. -/
inductive AppendState where
  | resolve
  | acquirePipeline
  | startPipeline
  | sendPipelineSync
  | recvPipelineSync
  | updateAssignments
  | awaitDesiredReplicas
  | validateOffset
  | streamContent
  | readAcknowledgements
  | error
  | proxy
  | finished
  deriving DecidableEq, Repr

/-- A journal `resolution`: status, `pb.Header`, local process, spec and advertised routes; its
replica is the model's one replica. -/
structure Resolution where
  status : Status
  header : Header
  localID : ProcessSpecID
  journalSpec : JournalSpec
  assignments : List Route
  deriving DecidableEq, Repr

def Resolution.isPrimary (r : Resolution) : Bool := decide (r.header.processId = r.localID)

/-- The fields of `appendFSM` other than `svc` and `ctx`; `plnReturnCh` is whether the return
channel is the replica's `pipelineCh`. -/
structure AppendFSM where
  req : AppendRequest
  resolved : Option Resolution
  pln : Option Nat
  plnReturnCh : Bool
  readThroughRev : Int
  rollToOffset : Int
  clientCommit : Bool
  clientFragment : Option Fragment
  clientSummer : List UInt8
  state : AppendState
  err : Option Error

/-- The `appendFSM` the Append RPC builds for its first request. -/
def AppendFSM.init (req : AppendRequest) : AppendFSM where
  req := req
  resolved := none
  pln := none
  plnReturnCh := false
  readThroughRev := 0
  rollToOffset := 0
  clientCommit := false
  clientFragment := none
  clientSummer := []
  state := .resolve
  err := none

end Gazette.Broker
