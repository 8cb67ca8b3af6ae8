import Gazette.Client.FragmentReader

/-! `Reader`, which adapts the Read RPC to `io.Reader`: it copies out the content of the
broker's frames, reports offset jumps, and reads a fragment directly when the broker ends
its stream after handing out a fragment URL. What the reader is answered (the opening of
the RPC, the frames of its stream, the fragment store) is an input, consumed in order.
Routing advice (`UpdateRoute`), the mapping of gRPC context errors and closing the direct
reader change nothing the reader reads again, and are left out. -/

namespace Gazette.Client

def errOffsetJump : Error := .new "offset jump"

def errNotJournalBroker : Error := .new Status.notJournalBroker.name

def errOffsetNotYetAvailable : Error := .new Status.offsetNotYetAvailable.name

/-- The fields of `pb.ReadRequest` that `Read` reads and writes. -/
structure ReadRequest where
  offset : Int
  metadataOnly : Bool
  deriving DecidableEq, Repr

/-- A `pb.ReadResponse` frame, as far as `Read` reads it. -/
structure ReadResponse where
  status : Status
  offset : Int
  content : List UInt8
  fragment : Option Fragment
  fragmentUrl : String
  deriving DecidableEq, Repr

def ReadResponse.zero : ReadResponse := ⟨.ok, 0, [], none, ""⟩

/-- A `Reader`: its request, the last response, whether its stream is open, and its direct
fragment reader. -/
structure Reader where
  request : ReadRequest
  response : ReadResponse
  streamOpen : Bool
  direct : Option FragmentReader
  deriving DecidableEq, Repr

/-- `NewReader`. -/
def newReader (req : ReadRequest) : Reader := ⟨req, .zero, false, none⟩

/-- What the reader is answered besides its stream's frames: RPC opens, `OpenFragmentURL`s,
and the decompressor's `Read`s. -/
structure Peers where
  dials : List (Option Error)
  urls : List (Except Error FragmentReader)
  decomp : List DecompRead

/-- What a `Read` leaves, and what it returned. -/
structure Outcome where
  reader : Reader
  frames : List (Except Error ReadResponse)
  peers : Peers
  result : ReadResult

def offsetBehind (resp req : Int) : Error :=
  .new ("invalid ReadResponse offset (" ++ toString resp ++ "; expected >= " ++ toString req ++
    ")")

/-- The error `Read` maps the status of the frame before the end of the stream to. -/
def statusError : Status → Error
  | .ok => .eof
  | .notJournalBroker => errNotJournalBroker
  | .offsetNotYetAvailable => errOffsetNotYetAvailable
  | st => .new st.name

namespace Reader

/-- Content of the last response not yet copied out. -/
def buffered (r : Reader) : Prop :=
  r.response.content.length ≠ 0 ∧
    (r.response.content.length : Int) > r.request.offset - r.response.offset

instance (r : Reader) : Decidable r.buffered := inferInstanceAs (Decidable (_ ∧ _))

def remaining (r : Reader) : List UInt8 :=
  r.response.content.drop (r.request.offset - r.response.offset).toNat

/-- `Read(p)` up to its first receive from the stream: delegate to the direct reader, copy out
what is left of the last response, or open the stream. -/
def readHead (len : Nat) (frames : List (Except Error ReadResponse))
    (recv : Reader → Peers → Option Outcome) (r : Reader) (w : Peers) : Option Outcome :=
  match r.direct with
  | some fr =>
    match w.decomp with
    | [] => none
    | d :: ds =>
      let out := fr.read d
      some ⟨{ r with
          direct := some out.1
          request := { r.request with offset := r.request.offset + out.2.n } },
        frames, { w with decomp := ds }, out.2⟩
  | none =>
    let d := r.request.offset - r.response.offset
    if r.buffered then
      if d < 0 then none
      else
        let chunk := r.remaining.take len
        some ⟨{ r with request := { r.request with offset := r.request.offset + chunk.length } },
          frames, w, ⟨chunk.length, chunk, none⟩⟩
    else if !r.streamOpen then
      match w.dials with
      | [] => none
      | some e :: ds => some ⟨r, frames, { w with dials := ds }, ⟨0, [], some e⟩⟩
      | none :: ds => recv { r with streamOpen := true } { w with dials := ds }
    else recv r w

/-- The rest of `Read(p)`, from `RecvMsg` on. -/
def readFrom (validate : ReadResponse → Option Error) (len : Nat) (r : Reader) (w : Peers) :
    List (Except Error ReadResponse) → Option Outcome
  | [] => none
  | msg :: frames =>
    let again := readHead len frames (fun r w => readFrom validate len r w frames)
    match msg with
    | .ok resp =>
      let err : Option Error := match validate resp with
        | some e => some (.withMessage "ReadResponse" e)
        | none =>
          if resp.status = .ok ∧ resp.offset < r.request.offset then
            some (offsetBehind resp.offset r.request.offset)
          else none
      let r := { r with response := resp }
      match err with
      | some e => some ⟨r, frames, w, ⟨0, [], some e⟩⟩
      | none =>
        let jumped := decide (r.request.offset < resp.offset)
        let r := if jumped then { r with request := { r.request with offset := resp.offset } }
          else r
        let err : Option Error := if jumped then some errOffsetJump else none
        if resp.status = .ok then some ⟨r, frames, w, ⟨0, [], err⟩⟩ else again r w
    | .error e =>
      if e ≠ Error.eof then some ⟨r, frames, w, ⟨0, [], some e⟩⟩
      else if !r.request.metadataOnly ∧ r.response.status = .ok ∧ r.response.fragmentUrl ≠ "" then
        match r.response.fragment, w.urls with
        | none, _ => none
        | some _, [] => none
        | some _, .error e :: us => some ⟨r, frames, { w with urls := us }, ⟨0, [], some e⟩⟩
        | some _, .ok fr :: us => again { r with direct := some fr } { w with urls := us }
      else some ⟨r, frames, w, ⟨0, [], some (statusError r.response.status)⟩⟩

/-- `Reader.Read(p)` with `len(p) = len`; `frames` is what the stream delivers next. -/
def read (validate : ReadResponse → Option Error) (len : Nat) (r : Reader)
    (frames : List (Except Error ReadResponse)) (w : Peers) : Option Outcome :=
  readHead len frames (fun r w => readFrom validate len r w frames) r w

/-- Two broker streams: a fragment URL gives bytes no frame carried, and a frame with status
`OFFSET_NOT_YET_AVAILABLE` moves the offset and reports the status. -/
theorem read_fragment_store_bytes :
    let f : Fragment := ⟨"a/journal", 0, 4, .zero, .none, "", 0⟩
    let frames : List (Except Error ReadResponse) :=
      [.ok ⟨.ok, 0, [], some f, "file:///a/journal"⟩, .error .eof]
    let w : Peers := ⟨[none], [.ok ⟨f, 0⟩], [⟨[7, 7], none⟩]⟩
    let out := read (fun _ => none) 4 (newReader ⟨0, false⟩) frames w
    let frames' : List (Except Error ReadResponse) :=
      [.ok ⟨.offsetNotYetAvailable, 10, [], none, ""⟩, .error .eof]
    let out' := read (fun _ => none) 4 (newReader ⟨0, false⟩) frames' ⟨[none], [], []⟩
    out.map (·.result) = some ⟨0, [], none⟩ ∧
      (out.bind fun o => read (fun _ => none) 4 o.reader o.frames o.peers).map (·.result) =
        some ⟨2, [7, 7], none⟩ ∧
      frames.flatMap (fun | .ok fr => fr.content | .error _ => []) = [] ∧
      out'.map (·.result) = some ⟨0, [], some errOffsetNotYetAvailable⟩ ∧
      out'.map (·.reader.request.offset) = some 10 := by
  decide

end Reader

end Gazette.Client
