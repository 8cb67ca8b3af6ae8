import Mathlib.Tactic.Simps.Basic
import Gazette.Broker.AppendState

/-! The replication pipeline and the replica that owns it, as the append path drives them.
The pipeline's peer streams lie outside this excerpt: each call an append makes is
recorded in the pipeline's log, what the gathers answer and the first error a peer raises
are inputs of the handler, and `sendErr()` and `recvErr()` latch that error, as the spec's
pipeline does. The read barrier is modelled from the spec's barrier chain: barrier `k`
waits on signal `k` and closes signal `k + 1`. -/

namespace Gazette.Broker

/-- The collaborators of the append path outside this excerpt: the spool's
`Fragment.Fragment`, its `Next()`, how a request applies to it, `nextProposal`,
`AppendRequest.Validate` and `SHA1SumFromDigest`. Every result holds for all of them. -/
structure Collaborators (σ : Type) where
  fragment : σ → Fragment
  next : σ → Fragment
  apply : σ → ReplicateRequest → σ
  nextProposal : σ → Int → FragmentSpec → Fragment
  validate : AppendRequest → Option Error
  sha1 : List UInt8 → SHA1Sum

/-- A call an append makes on a pipeline; `close` closes a barrier signal. -/
inductive Op where
  | scatter (req : ReplicateRequest)
  | gatherSync (rollToOffset readThroughRev : Int)
  | recvErr (result : Option Error)
  | sendErr (result : Option Error)
  | barrier (waitFor closeAfter : Nat)
  | closeSend
  | gatherOK
  | gatherEOF
  | close (signal : Nat)
  | shutdown (expectErr : Bool)
  deriving DecidableEq, Repr

def Op.logOnly : Op → Bool
  | .gatherSync _ _ | .closeSend | .gatherOK | .gatherEOF | .shutdown _ => true
  | _ => false

/-- An entry of a pipeline's log: which append, in which state, made which call. -/
structure Call where
  run : Nat
  state : AppendState
  op : Op
  deriving DecidableEq, Repr

/-- A `pipeline`: its header, spool, read barrier, closed barrier signals and latched errors;
`log` records every call made on it, newest first. -/
structure Pipeline (σ : Type) where
  header : Header
  spool : σ
  readBarrier : Nat
  closed : List Nat
  sendLatch : Option Error
  recvLatch : Option Error
  log : List Call

/-- `newPipeline`: no calls yet, no error latched, and its first barrier signal closed. -/
def newPipeline {σ : Type} (header : Header) (spool : σ) : Pipeline σ where
  header := header
  spool := spool
  readBarrier := 0
  closed := [0]
  sendLatch := none
  recvLatch := none
  log := []

namespace Pipeline

variable {σ : Type}

@[simps] def record (pl : Pipeline σ) (i : Nat) (st : AppendState) (op : Op) : Pipeline σ :=
  { pl with log := ⟨i, st, op⟩ :: pl.log }

/-- `scatter(req)`: send `req` to every peer and apply it to the pipeline's spool. -/
@[simps] def scatter (C : Collaborators σ) (pl : Pipeline σ) (i : Nat) (st : AppendState)
    (req : ReplicateRequest) : Pipeline σ :=
  { pl with spool := C.apply pl.spool req, log := ⟨i, st, .scatter req⟩ :: pl.log }

/-- `barrier()`: wait on the current signal, and make the next one current. -/
@[simps] def barrier (pl : Pipeline σ) (i : Nat) (st : AppendState) : Pipeline σ :=
  { pl with
    readBarrier := pl.readBarrier + 1
    log := ⟨i, st, .barrier pl.readBarrier (pl.readBarrier + 1)⟩ :: pl.log }

/-- `close(closeAfter)` on barrier signal `k`. -/
@[simps] def close (pl : Pipeline σ) (i : Nat) (st : AppendState) (k : Nat) : Pipeline σ :=
  { pl with closed := k :: pl.closed, log := ⟨i, st, .close k⟩ :: pl.log }

/-- What `sendErr()` answers: the error latched before, or else a peer's, `failure`. -/
def sendErrResult (pl : Pipeline σ) (failure : Option Error) : Option Error :=
  pl.sendLatch.or failure

theorem sendErrResult_congr {pl pl' : Pipeline σ} (h : pl.sendLatch = pl'.sendLatch)
    (failure : Option Error) : pl.sendErrResult failure = pl'.sendErrResult failure := by
  rw [sendErrResult, sendErrResult, h]

@[simp] theorem sendErrResult_record (pl : Pipeline σ) (i : Nat) (st : AppendState) (op : Op)
    (failure : Option Error) : (pl.record i st op).sendErrResult failure =
      pl.sendErrResult failure := rfl

@[simp] theorem sendErrResult_scatter (C : Collaborators σ) (pl : Pipeline σ) (i : Nat)
    (st : AppendState) (req : ReplicateRequest) (failure : Option Error) :
    (pl.scatter C i st req).sendErrResult failure = pl.sendErrResult failure := rfl

@[simp] theorem sendErrResult_barrier (pl : Pipeline σ) (i : Nat) (st : AppendState)
    (failure : Option Error) : (pl.barrier i st).sendErrResult failure =
      pl.sendErrResult failure := rfl

/-- The call `sendErr()`: its answer is recorded and stays latched. -/
@[simps] def sendErr (pl : Pipeline σ) (i : Nat) (st : AppendState) (failure : Option Error) :
    Pipeline σ :=
  { pl with
    sendLatch := pl.sendErrResult failure
    log := ⟨i, st, .sendErr (pl.sendErrResult failure)⟩ :: pl.log }

def recvErrResult (pl : Pipeline σ) (failure : Option Error) : Option Error :=
  pl.recvLatch.or failure

@[simp] theorem recvErrResult_record (pl : Pipeline σ) (i : Nat) (st : AppendState) (op : Op)
    (failure : Option Error) : (pl.record i st op).recvErrResult failure =
      pl.recvErrResult failure := rfl

@[simp] theorem recvErrResult_barrier (pl : Pipeline σ) (i : Nat) (st : AppendState)
    (failure : Option Error) : (pl.barrier i st).recvErrResult failure =
      pl.recvErrResult failure := rfl

@[simp] theorem recvErrResult_sendErr (pl : Pipeline σ) (i : Nat) (st : AppendState)
    (f failure : Option Error) : (pl.sendErr i st f).recvErrResult failure =
      pl.recvErrResult failure := rfl

/-- The call `recvErr()`: its answer is recorded and stays latched. -/
@[simps] def recvErr (pl : Pipeline σ) (i : Nat) (st : AppendState) (failure : Option Error) :
    Pipeline σ :=
  { pl with
    recvLatch := pl.recvErrResult failure
    log := ⟨i, st, .recvErr (pl.recvErrResult failure)⟩ :: pl.log }

@[simp] theorem sendErrResult_recvErr (pl : Pipeline σ) (i : Nat) (st : AppendState)
    (f failure : Option Error) : (pl.recvErr i st f).sendErrResult failure =
      pl.sendErrResult failure := rfl

/-- One call on a pipeline. -/
inductive Step (C : Collaborators σ) : Pipeline σ → Call → Pipeline σ → Prop where
  | scatter (pl : Pipeline σ) (i : Nat) (st : AppendState) (req : ReplicateRequest) :
      Step C pl ⟨i, st, .scatter req⟩ (pl.scatter C i st req)
  | sendErr (pl : Pipeline σ) (i : Nat) (st : AppendState) (failure : Option Error) :
      Step C pl ⟨i, st, .sendErr (pl.sendErrResult failure)⟩ (pl.sendErr i st failure)
  | recvErr (pl : Pipeline σ) (i : Nat) (st : AppendState) (failure : Option Error) :
      Step C pl ⟨i, st, .recvErr (pl.recvErrResult failure)⟩ (pl.recvErr i st failure)
  | barrier (pl : Pipeline σ) (i : Nat) (st : AppendState) :
      Step C pl ⟨i, st, .barrier pl.readBarrier (pl.readBarrier + 1)⟩ (pl.barrier i st)
  | close (pl : Pipeline σ) (i : Nat) (st : AppendState) (k : Nat) :
      Step C pl ⟨i, st, .close k⟩ (pl.close i st k)
  | record (pl : Pipeline σ) (i : Nat) (st : AppendState) (op : Op) (h : op.logOnly = true) :
      Step C pl ⟨i, st, op⟩ (pl.record i st op)

inductive Steps (C : Collaborators σ) : Pipeline σ → List Call → Pipeline σ → Prop where
  | nil (pl : Pipeline σ) : Steps C pl [] pl
  | cons {pl pl₁ pl₂ : Pipeline σ} {c : Call} {cs : List Call} :
      Steps C pl cs pl₁ → Step C pl₁ c pl₂ → Steps C pl (c :: cs) pl₂

variable {C : Collaborators σ} {pl pl' pl'' : Pipeline σ} {c : Call} {cs cs' : List Call}

theorem Step.log (h : Step C pl c pl') : pl'.log = c :: pl.log := by
  cases h <;> rfl

theorem Step.header (h : Step C pl c pl') : pl'.header = pl.header := by
  cases h <;> rfl

theorem Steps.single (h : Step C pl c pl') : Steps C pl [c] pl' := .cons (.nil pl) h

theorem Steps.trans (h : Steps C pl cs pl') (h' : Steps C pl' cs' pl'') :
    Steps C pl (cs' ++ cs) pl'' := by
  induction h' with
  | nil => exact h
  | cons _ hs ih => exact .cons ih hs

theorem Steps.log (h : Steps C pl cs pl') : pl'.log = cs ++ pl.log := by
  induction h with
  | nil => rfl
  | cons _ hs ih => rw [hs.log, ih, List.cons_append]

theorem Steps.header (h : Steps C pl cs pl') : pl'.header = pl.header := by
  induction h with
  | nil => rfl
  | cons _ hs ih => rw [hs.header, ih]

end Pipeline

/-- The replica's shared state: its one-slot `pipelineCh`, and every pipeline built so far. -/
structure Replica (σ : Type) where
  pipelineCh : List (Option Nat)
  pipelines : List (Pipeline σ)

end Gazette.Broker
