import Gazette.Broker.Pipeline

/-! The handlers of `appendFSM`, one function per `on*` method. A handler reads what its
method reads: the FSM, the pipeline it owns and the replica's channel. What the method asks
of the world (the resolver, a `select`, a gather, the error a peer raises) is an argument. A handler
returns `none` where the method would dereference nil, or where the `select` case it is
asked to take cannot fire. -/

namespace Gazette.Broker

variable {σ : Type} (C : Collaborators σ)

def errExpectedEOF : Error := .new "expected EOF after empty Content chunk"

def errExpectedContentChunk : Error := .new "expected Content chunk"

/-- Which case of a `select` fired: a receive, `<-ctx.Done()` with `ctx.Err()`, or
`invalidateCh`. -/
inductive Select (α : Type) where
  | recv (v : α)
  | done (err : Error)
  | invalidated
  deriving DecidableEq, Repr

inductive PostCheck where
  | done (err : Error)
  | invalidated
  | pass
  deriving DecidableEq, Repr

/-- `returnPipeline`: send an owned pipeline, or nil, back on the replica's channel. -/
def returnPipeline (b : AppendFSM) (ch : List (Option Nat)) : AppendFSM × List (Option Nat) :=
  if b.plnReturnCh then ({ b with plnReturnCh := false }, ch ++ [b.pln]) else (b, ch)

/-- The `resolveArgs` that `onResolve` hands the resolver. -/
structure ResolveArgs where
  journal : String
  mayProxy : Bool
  requirePrimary : Bool
  minEtcdRevision : Int
  proxyHeader : Option Header
  deriving DecidableEq, Repr

def resolveArgs (b : AppendFSM) : ResolveArgs where
  journal := b.req.journal
  mayProxy := !b.req.doNotProxy
  requirePrimary := true
  minEtcdRevision := b.readThroughRev
  proxyHeader := b.req.header

/-- `onResolve`, `resolve` being what the resolver answers at the time of the call. -/
def onResolve (resolve : ResolveArgs → Except Error Resolution) (b : AppendFSM)
    (ch : List (Option Nat)) : AppendFSM × List (Option Nat) :=
  match resolve (resolveArgs b) with
  | .error e =>
    ({ b with resolved := none, err := some (.withMessage "resolve" e), state := .error }, ch)
  | .ok r =>
    let b := { b with resolved := some r, err := none }
    if r.status ≠ .ok then ({ b with state := .error }, ch)
    else if !r.isPrimary then
      let rb := returnPipeline b ch
      ({ rb.1 with state := .awaitDesiredReplicas }, rb.2)
    else if b.plnReturnCh then ({ b with state := .startPipeline }, ch)
    else ({ b with state := .acquirePipeline }, ch)

def canceledWaiting (msg : String) (e : Error) (b : AppendFSM) : AppendFSM :=
  { b with err := some (.withMessage msg e), state := .error }

/-- `onAcquirePipeline`: receive the replica's pipeline, or leave on cancellation or
invalidation; after a receive, the post-check `select`. -/
def onAcquirePipeline (sel : Select PostCheck) (b : AppendFSM) (ch : List (Option Nat)) :
    Option (AppendFSM × List (Option Nat)) :=
  match sel, ch with
  | .recv post, v :: rest =>
    let b := { b with pln := v, plnReturnCh := true }
    match post with
    | .done e => some (canceledWaiting "waiting for pipeline" e b, rest)
    | .invalidated => some ({ b with state := .resolve }, rest)
    | .pass => some ({ b with state := .startPipeline }, rest)
  | .recv _, [] => none
  | .done e, ch => some (canceledWaiting "waiting for pipeline" e b, ch)
  | .invalidated, ch => some ({ b with state := .resolve }, ch)

/-- The second half of `onStartPipeline`: receive a spool and build a new pipeline around it. -/
def startNewPipeline (sel : Select σ) (r : Resolution) (b : AppendFSM) (w : Replica σ) :
    AppendFSM × Replica σ :=
  match sel with
  | .recv spool =>
    ({ b with pln := some w.pipelines.length, state := .sendPipelineSync },
      { w with pipelines := w.pipelines ++ [newPipeline r.header spool] })
  | .done e => (canceledWaiting "waiting for spool" e b, w)
  | .invalidated => ({ b with state := .resolve }, w)

/-- `onStartPipeline`: keep an owned pipeline whose route is equivalent to the resolved one,
or shut it down and start a new one. -/
def onStartPipeline (i : Nat) (sel : Select σ) (b : AppendFSM) (w : Replica σ) :
    Option (AppendFSM × Replica σ) := do
  let r ← b.resolved
  match b.pln with
  | none => some (startNewPipeline sel r b w)
  | some p =>
    let pl ← w.pipelines[p]?
    if pl.header.route.equivalent r.header.route then
      some ({ b with state := .updateAssignments }, w)
    else
      let w := { w with
        pipelines := w.pipelines.set p (pl.record i .startPipeline (.shutdown false)) }
      some (startNewPipeline sel r { b with pln := none } w)

/-- The sync proposal `onSendPipelineSync` scatters, with the header and journal on the first
sync of a pipeline. -/
def syncRequest (r : Resolution) (b : AppendFSM) (pl : Pipeline σ) : ReplicateRequest :=
  let proposal := C.nextProposal pl.spool b.rollToOffset r.journalSpec.fragment
  if b.rollToOffset = 0 then
    { proposal := some proposal, acknowledge := true, header := some pl.header,
      journal := (C.fragment pl.spool).journal }
  else { proposal := some proposal, acknowledge := true }

def onSendPipelineSync (i : Nat) (b : AppendFSM) (pl : Pipeline σ) :
    Option (AppendFSM × Pipeline σ) := do
  let r ← b.resolved
  some ({ b with state := .recvPipelineSync },
    pl.scatter C i .sendPipelineSync (syncRequest C r b pl))

/-- The calls of one `onRecvPipelineSync`, and the error the handler keeps. -/
def gatherSyncRound (i : Nat) (roll rev : Int) (recvFailure sendFailure : Option Error)
    (pl : Pipeline σ) : Pipeline σ × Option Error :=
  let pl := pl.record i .recvPipelineSync (.gatherSync roll rev)
  match pl.recvErrResult recvFailure with
  | some e => (pl.recvErr i .recvPipelineSync recvFailure, some e)
  | none =>
    let pl := pl.recvErr i .recvPipelineSync recvFailure
    (pl.sendErr i .recvPipelineSync sendFailure, pl.sendErrResult sendFailure)

/-- `onRecvPipelineSync`: fail, roll forward, re-resolve, or go on with a synchronized pipeline. -/
def onRecvPipelineSync (i : Nat) (roll rev : Int) (recvFailure sendFailure : Option Error)
    (b : AppendFSM) (pl : Pipeline σ) : AppendFSM × Pipeline σ :=
  let g := gatherSyncRound i roll rev recvFailure sendFailure pl
  let b := { b with rollToOffset := roll, readThroughRev := rev }
  match g.2 with
  | some e =>
    ({ b with pln := none, err := some (.withMessage "gatherSync" e), state := .error },
      g.1.record i .recvPipelineSync (.shutdown true))
  | none =>
    if roll ≠ 0 then ({ b with err := none, state := .sendPipelineSync }, g.1)
    else if rev ≠ 0 then
      ({ b with pln := none, err := none, state := .resolve },
        g.1.record i .recvPipelineSync (.shutdown false))
    else ({ b with err := none, state := .updateAssignments }, g.1)

/-- `onUpdateAssignments`, `(rev, err)` being what `updateAssignments` returns. -/
def onUpdateAssignments (rev : Int) (err : Option Error) (b : AppendFSM) : Option AppendFSM := do
  let r ← b.resolved
  if journalRouteMatchesAssignments r.header.route r.assignments then
    some { b with state := .awaitDesiredReplicas }
  else
    match err with
    | some e =>
      some { b with
        readThroughRev := rev
        err := some (.withMessage "updateAssignments" e)
        state := .error }
    | none => some { b with readThroughRev := rev, err := none, state := .resolve }

/-- `onAwaitDesiredReplicas`: wait, fail, proxy to a remote primary, or validate the offset. -/
def onAwaitDesiredReplicas (b : AppendFSM) : Option AppendFSM := do
  let r ← b.resolved
  let n : Int := r.header.route.members.length
  let d := r.journalSpec.desiredReplication
  if n > d then
    some { b with readThroughRev := r.header.etcdRevision + 1, state := .resolve }
  else if n < d then
    some { b with
      resolved := some { r with status := .insufficientJournalBrokers }
      state := .error }
  else if !r.isPrimary then some { b with state := .proxy }
  else some { b with state := .validateOffset }

/-- `onValidateOffset`, with what `WaitForFirstRemoteRefresh` and `index.EndOffset()` return. -/
def onValidateOffset (refresh : Option Error) (endOffset : Int) (b : AppendFSM)
    (pl : Pipeline σ) : Option AppendFSM := do
  let r ← b.resolved
  match refresh with
  | some e =>
    some { b with err := some (.withMessage "WaitForFirstRemoteRefresh" e), state := .error }
  | none =>
    let b : AppendFSM := { b with err := none }
    let spoolEnd : Int := (C.fragment pl.spool).end
    let maxOffset : Int := if endOffset > spoolEnd then endOffset else spoolEnd
    if spoolEnd ≠ maxOffset ∧ b.req.offset = 0 ∧ r.journalSpec.flags.mayWrite then
      some { b with
        resolved := some { r with status := .indexHasGreaterOffset }
        state := .error }
    else if b.req.offset ≠ 0 ∧ b.req.offset ≠ maxOffset then
      some { b with resolved := some { r with status := .wrongAppendOffset }, state := .error }
    else if b.req.offset ≠ 0 ∧ spoolEnd ≠ maxOffset then
      some { b with rollToOffset := maxOffset, state := .sendPipelineSync }
    else some { b with state := .streamContent }

/-- The first-call part of `onStreamContent`: roll the spool's fragment forward if
`nextProposal` differs, then open the client's fragment at the spool's end. -/
def beginClientFragment (i : Nat) (r : Resolution) (b : AppendFSM) (pl : Pipeline σ) :
    AppendFSM × Pipeline σ :=
  let proposal := C.nextProposal pl.spool 0 r.journalSpec.fragment
  let pl := if C.fragment pl.spool ≠ proposal then
    pl.scatter C i .streamContent { proposal := some proposal, acknowledge := false } else pl
  let f := C.fragment pl.spool
  ({ b with
      clientFragment := some
        { journal := f.journal, begin := f.end, «end» := f.end, sum := .zero,
          compressionCodec := f.compressionCodec, backingStore := "", modTime := 0 }
      clientSummer := [] }, pl)

/-- The error a chunk carries after `req.Validate()` and the check that it names no journal. -/
def chunkError : Except Error AppendRequest → Option Error
  | .error e => some e
  | .ok req =>
    match C.validate req with
    | some e => some e
    | none => if req.journal ≠ "" then some errExpectedContentChunk else none

def chunkContent : Except Error AppendRequest → List UInt8
  | .error _ => []
  | .ok req => req.content

/-- The end of `onStreamContent`: digest the content, then scatter the commit proposal on a
clean EOF, the rollback proposal otherwise; `none` is the `reqCommit` panic. -/
def finishStream (i : Nat) (err failure : Option Error) (b : AppendFSM) (pl : Pipeline σ) :
    Option (AppendFSM × Pipeline σ) := do
  let cf ← b.clientFragment
  let r ← b.resolved
  let b := { b with clientFragment := some { cf with sum := C.sha1 b.clientSummer } }
  let sent := pl.sendErrResult failure
  let pl := if err = some .eof then pl.sendErr i .streamContent failure else pl
  if err = some .eof ∧ sent = none ∧ r.status = .ok then
    if b.clientCommit then
      some ({ b with state := .readAcknowledgements },
        pl.scatter C i .streamContent { proposal := some (C.next pl.spool), acknowledge := true })
    else none
  else
    some ({ b with
        err := err.map (.withMessage "append stream")
        state := .readAcknowledgements },
      pl.scatter C i .streamContent
        { proposal := some (C.fragment pl.spool), acknowledge := true })

/-- The chunk part of `onStreamContent`, on a started client fragment. -/
def streamChunk (i : Nat) (r : Resolution) (chunk : Except Error AppendRequest)
    (failure : Option Error) (b : AppendFSM) (pl : Pipeline σ) :
    Option (AppendFSM × Pipeline σ) := do
  let err := chunkError C chunk
  let content := chunkContent chunk
  if err = some .eof ∧ !b.clientCommit then finishStream C i (some .unexpectedEOF) failure b pl
  else if err = none ∧ b.clientCommit then finishStream C i (some errExpectedEOF) failure b pl
  else if err = none ∧ content = [] then some ({ b with clientCommit := true }, pl)
  else if err = none ∧ !r.journalSpec.flags.mayWrite then
    finishStream C i none failure { b with resolved := some { r with status := .notAllowed } } pl
  else if err = none then
    let cf ← b.clientFragment
    let sent := pl.sendErrResult failure
    let pl := (pl.scatter C i .streamContent
      { content := content, contentDelta := cf.contentLength }).sendErr i .streamContent failure
    let b := { b with
      clientSummer := b.clientSummer ++ content
      clientFragment := some { cf with «end» := cf.end + content.length } }
    if sent = none then some (b, pl) else finishStream C i none failure b pl
  else finishStream C i err failure b pl

/-- `onStreamContent`, `failure` being the send error a peer may raise before `pln.sendErr()`. -/
def onStreamContent (i : Nat) (chunk : Except Error AppendRequest) (failure : Option Error)
    (b : AppendFSM) (pl : Pipeline σ) : Option (AppendFSM × Pipeline σ) := do
  let r ← b.resolved
  let s := if b.clientFragment = none then beginClientFragment C i r b pl else (b, pl)
  streamChunk C i r chunk failure s.1 s.2

/-- The first half of `onReadAcknowledgements`: retain `sendErr()`, take a barrier slot, and
release the send side; a send on a nil return channel never completes. -/
def releaseSendSide (i : Nat) (failure : Option Error) (b : AppendFSM) (pl : Pipeline σ)
    (ch : List (Option Nat)) : Option (AppendFSM × Pipeline σ × List (Option Nat)) :=
  if b.plnReturnCh then
    let pl' := (pl.sendErr i .readAcknowledgements failure).barrier i .readAcknowledgements
    match pl.sendErrResult failure with
    | none => some ({ b with plnReturnCh := false }, pl', ch ++ [b.pln])
    | some _ =>
      some ({ b with plnReturnCh := false }, pl'.record i .readAcknowledgements .closeSend,
        ch ++ [none])
  else none

/-- The second half of `onReadAcknowledgements`, once its barrier signal is closed: gather,
set the final state, and close `closeAfter`. -/
def readAcknowledgements (i : Nat) (closeAfter : Nat) (sendErr failure : Option Error)
    (b : AppendFSM) (pl : Pipeline σ) : Option (AppendFSM × Pipeline σ) := do
  let r ← b.resolved
  let pl := pl.record i .readAcknowledgements .gatherOK
  let pl := if sendErr.isSome then pl.record i .readAcknowledgements .gatherEOF else pl
  let done (b : AppendFSM) (pl : Pipeline σ) := (b, pl.close i .readAcknowledgements closeAfter)
  if b.err.isSome ∨ r.status ≠ .ok then some (done { b with state := .error } pl)
  else
    let recvErr := pl.recvErrResult failure
    let pl := pl.recvErr i .readAcknowledgements failure
    if recvErr.isSome then some (done { b with err := recvErr, state := .error } pl)
    else if sendErr.isSome then some (done { b with err := sendErr, state := .error } pl)
    else some (done { b with err := none, state := .finished } pl)

end Gazette.Broker
