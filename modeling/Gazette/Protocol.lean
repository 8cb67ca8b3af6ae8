import Mathlib.Data.List.Basic

/-! Values of the broker protocol (`pb`) that the append path, the consumer resolver and
the client reader read and write. Offsets are `Int`: the code compares them and adds
chunk lengths to them, and no such sum comes near the int64 range. -/

namespace Gazette

/-- Errors, by the identity the code compares them with. -/
inductive Error where
  | eof
  | unexpectedEOF
  | canceled
  | deadlineExceeded
  /-- An error made by `errors.New` or `fmt.Errorf`, by its text. -/
  | new (text : String)
  /-- A non-nil cause wrapped by `errors.WithMessage` or `errors.Wrap`. -/
  | withMessage (msg : String) (cause : Error)
  deriving DecidableEq, Repr

/-- The identity of a broker process, `pb.ProcessSpec_ID`. -/
structure ProcessSpecID where
  zone : String
  suffix : String
  deriving DecidableEq, Repr

/-- The `pb.Route` of a journal: its ordered members and the index of its primary. -/
structure Route where
  members : List ProcessSpecID
  primary : Int
  deriving DecidableEq, Repr

/-- Modelled from the spec: `Route.Equivalent` holds on the same members and primary. -/
def Route.equivalent (r o : Route) : Bool :=
  decide (r.members = o.members ∧ r.primary = o.primary)

@[simp] theorem Route.equivalent_self (r : Route) : r.equivalent r = true := by
  simp [Route.equivalent]

/-- The `pb.Header` of a resolution. -/
structure Header where
  processId : ProcessSpecID
  route : Route
  etcdRevision : Int
  deriving DecidableEq, Repr

/-- The `pb.Status` codes the append path and the reader produce or test. -/
inductive Status where
  | ok
  | journalNotFound
  | noJournalPrimaryBroker
  | notJournalBroker
  | notJournalPrimaryBroker
  | insufficientJournalBrokers
  | indexHasGreaterOffset
  | wrongAppendOffset
  | notAllowed
  | offsetNotYetAvailable
  deriving DecidableEq, Repr

def Status.name : Status → String
  | .ok => "OK"
  | .journalNotFound => "JOURNAL_NOT_FOUND"
  | .noJournalPrimaryBroker => "NO_JOURNAL_PRIMARY_BROKER"
  | .notJournalBroker => "NOT_JOURNAL_BROKER"
  | .notJournalPrimaryBroker => "NOT_JOURNAL_PRIMARY_BROKER"
  | .insufficientJournalBrokers => "INSUFFICIENT_JOURNAL_BROKERS"
  | .indexHasGreaterOffset => "INDEX_HAS_GREATER_OFFSET"
  | .wrongAppendOffset => "WRONG_APPEND_OFFSET"
  | .notAllowed => "NOT_ALLOWED"
  | .offsetNotYetAvailable => "OFFSET_NOT_YET_AVAILABLE"

/-- The `pb.CompressionCodec` of a fragment. -/
inductive CompressionCodec where
  | invalid
  | none
  | gzip
  | zstandard
  | snappy
  | gzipOffloadDecompression
  deriving DecidableEq, Repr

/-- The content digest `pb.SHA1Sum`. -/
structure SHA1Sum where
  part1 : UInt64
  part2 : UInt64
  part3 : UInt32
  deriving DecidableEq, Repr

def SHA1Sum.zero : SHA1Sum := ⟨0, 0, 0⟩

/-- A `pb.Fragment`: the byte range `[begin, end)` of a journal. -/
structure Fragment where
  journal : String
  begin : Int
  «end» : Int
  sum : SHA1Sum
  compressionCodec : CompressionCodec
  backingStore : String
  modTime : Int
  deriving DecidableEq, Repr

def Fragment.contentLength (f : Fragment) : Int := f.end - f.begin

/-- The fragment settings `pb.JournalSpec_Fragment` handed to `nextProposal`. -/
structure FragmentSpec where
  length : Int
  compressionCodec : CompressionCodec
  deriving DecidableEq, Repr

/-- Modelled from the spec: the journal's write and read flags. -/
inductive Flag where
  | notSpecified
  | rdOnly
  | wrOnly
  | rdWr
  deriving DecidableEq, Repr

/-- Modelled from the spec: writes are refused only on a read-only journal. -/
def Flag.mayWrite : Flag → Bool
  | .rdOnly => false
  | _ => true

/-- The `pb.JournalSpec` of a journal. -/
structure JournalSpec where
  name : String
  replication : Int
  flags : Flag
  fragment : FragmentSpec
  deriving DecidableEq, Repr

/-- Modelled from the spec: `DesiredReplication` is the configured replication. -/
def JournalSpec.desiredReplication (s : JournalSpec) : Int := s.replication

/-- Modelled from the spec: every assignment advertises the live route. -/
def journalRouteMatchesAssignments (rt : Route) (assignments : List Route) : Bool :=
  assignments.all (·.equivalent rt)

/-- A `pb.AppendRequest`: the first message names the journal, later ones carry content. -/
structure AppendRequest where
  header : Option Header
  journal : String
  doNotProxy : Bool
  offset : Int
  content : List UInt8
  deriving DecidableEq, Repr

/-- A `pb.ReplicateRequest`: a proposal or a content chunk sent to each peer. -/
structure ReplicateRequest where
  header : Option Header := none
  journal : String := ""
  proposal : Option Fragment := none
  content : List UInt8 := []
  contentDelta : Int := 0
  acknowledge : Bool := false
  deriving DecidableEq, Repr

end Gazette
