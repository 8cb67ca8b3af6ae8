import Gazette.Protocol
import Gazette.Consumer.Resolver

/-! `Resolver.Resolve`, which maps a shard to the consumer process responsible for it and,
when that process is this one, attaches the local replica. The key space (`allocator.State`
and its `KeySpace`) lies outside the excerpt: `Resolve` reads of it the Etcd header, the
local member, the shard's spec (`allocator.LookupItem`) and the route its assignments give
(`Route.Init` and `AttachEndpoints`), and `updateResolutions` reads its `LocalItems`.

This module is the part of `Resolve` that runs under the key space's read lock; where the
lock is taken and released, and what runs without it, is `Consumer.Serving`. -/

namespace Gazette

/-- The zero `pb.ProcessSpec_ID{}`. -/
def ProcessSpecID.zero : ProcessSpecID := ⟨"", ""⟩

/-- `Route.Members[Route.Primary]`, the zero ID when `Primary` is -1, `none` where Go panics. -/
def Route.primaryId (rt : Route) : Option ProcessSpecID :=
  if rt.primary = -1 then some .zero
  else if 0 ≤ rt.primary then rt.members[rt.primary.toNat]? else none

end Gazette

namespace Gazette.Consumer

/-- The `pc.Status` codes `Resolve` returns. -/
inductive Status where
  | ok
  | shardNotFound
  | noShardPrimary
  | notShardPrimary
  deriving DecidableEq, Repr

/-- The cluster and revision of a `pb.Header_Etcd`. -/
structure Etcd where
  clusterId : Nat
  revision : Int
  deriving DecidableEq, Repr

structure Header where
  processId : ProcessSpecID
  route : Route
  etcd : Etcd
  deriving DecidableEq, Repr

/-- A `pc.ShardSpec`, by its ID: `Resolve` hands the rest back unread. -/
structure ShardSpec where
  id : ShardID
  deriving DecidableEq, Repr

/-- `ResolveArgs`; its `Context` is where a call's cancellations come from. -/
structure ResolveArgs where
  shardId : ShardID
  mayProxy : Bool
  proxyHeader : Option Header
  deriving DecidableEq, Repr

/-- What `Resolve` and `updateResolutions` read of `r.state` and its `KeySpace`; `localMember`
is `none` when `LocalMemberInd` is -1. -/
structure KeySpace where
  header : Etcd
  localMember : Option ProcessSpecID
  item : ShardID → Option ShardSpec
  route : ShardID → Route
  localItems : List ShardID

/-- The placeholder `localID` once the local member key has left Etcd. -/
def missingLocalID : ProcessSpecID := ⟨"local ConsumerSpec", "missing from Etcd"⟩

def KeySpace.localID (ks : KeySpace) : ProcessSpecID := ks.localMember.getD missingLocalID

/-- The errors `Resolve` returns, by their format and arguments. -/
inductive ResolveError where
  /-- `"proxied request Etcd ClusterId doesn't match our own (%d vs %d)"`. -/
  | clusterIdMismatch (proxied ours : Nat)
  /-- `"proxied request ProcessId doesn't match our own (%s vs %s)"`. -/
  | processIdMismatch (proxied ours : ProcessSpecID)
  /-- The error of the call's context or of the replica's. -/
  | context (e : Error)
  /-- `ErrResolverStopped`. -/
  | stopped
  deriving DecidableEq, Repr

/-- A `Resolution`, with the replica attached as its `Shard`, `Store` and `Done`. -/
structure Resolution where
  status : Status
  header : Header
  spec : Option ShardSpec
  shard : Option Nat
  deriving DecidableEq, Repr

/-- The zero `Resolution` an early error return leaves. -/
def Resolution.zero : Resolution := ⟨.ok, ⟨.zero, ⟨[], 0⟩, ⟨0, 0⟩⟩, none, none⟩

/-! ### The resolution -/

def selectStatus (spec : Option ShardSpec) (processId localID : ProcessSpecID)
    (mayProxy : Bool) : Status :=
  if spec = none then .shardNotFound
  else if processId = .zero then .noShardPrimary
  else if !mayProxy ∧ processId ≠ localID then .notShardPrimary
  else .ok

/-- The resolution `Resolve` computes from the key space with the `localID` it read. -/
def KeySpace.resolve (ks : KeySpace) (localID : ProcessSpecID) (args : ResolveArgs) :
    Option Resolution :=
  (ks.route args.shardId).primaryId.map fun processId =>
    let status := selectStatus (ks.item args.shardId) processId localID args.mayProxy
    ⟨status, ⟨if status = .ok then processId else localID, ks.route args.shardId, ks.header⟩,
      ks.item args.shardId, none⟩

/-- Where the part of `Resolve` under the read lock ends. -/
inductive Locked where
  | returns (res : Resolution) (err : Option ResolveError)
  | waits (revision : Int)
  /-- `ks.Mu.RUnlock()`, then the select on the local replica's store. -/
  | attaches (res : Resolution) (replica : Nat)
  /-- No replica for the shard, or a primary out of its route's members. -/
  | panics
  deriving DecidableEq, Repr

/-- `Resolve` under the lock from `res.Header.Etcd = ...` on, with the `localID` read at the
first `RLock`. -/
def resolveLocked (ks : KeySpace) (localID : ProcessSpecID) (replicas : Option ReplicaMap)
    (args : ResolveArgs) : Locked :=
  match ks.resolve localID args with
  | none => .panics
  | some res =>
    if res.status = .ok ∧ res.header.processId = localID then
      match replicas with
      | none => .returns res (some .stopped)
      | some m =>
        match m.lookup args.shardId with
        | none => .panics
        | some k => .attaches res k
    else .returns res none

/-- `Resolve` from `ks.Mu.RLock()`: read `localID`, check a proxy header, wait, then resolve. -/
def beginLocked (ks : KeySpace) (replicas : Option ReplicaMap) (args : ResolveArgs) : Locked :=
  match args.proxyHeader with
  | none => resolveLocked ks ks.localID replicas args
  | some hdr =>
    if hdr.etcd.clusterId ≠ ks.header.clusterId then
      .returns .zero (some (.clusterIdMismatch hdr.etcd.clusterId ks.header.clusterId))
    else if hdr.processId ≠ ks.localID then
      .returns .zero (some (.processIdMismatch hdr.processId ks.localID))
    else if hdr.etcd.revision > ks.header.revision then .waits hdr.etcd.revision
    else resolveLocked ks ks.localID replicas args

/-! ### What the resolution says -/

theorem selectStatus_eq_ok {spec : Option ShardSpec} {processId localID : ProcessSpecID}
    {mayProxy : Bool} :
    selectStatus spec processId localID mayProxy = .ok ↔
      spec ≠ none ∧ processId ≠ .zero ∧ (mayProxy = true ∨ processId = localID) := by
  unfold selectStatus
  by_cases h1 : spec = none
  · simp [h1]
  by_cases h2 : processId = .zero
  · simp [h1, h2]
  by_cases h3 : mayProxy = true <;> by_cases h4 : processId = localID <;> simp [*]

theorem KeySpace.resolve_spec {ks : KeySpace} {localID : ProcessSpecID} {args : ResolveArgs}
    {res : Resolution} (h : ks.resolve localID args = some res) :
    ∃ processId, (ks.route args.shardId).primaryId = some processId ∧
      res.status = selectStatus (ks.item args.shardId) processId localID args.mayProxy ∧
      res.header.processId = (if res.status = .ok then processId else localID) ∧
      res.header.route = ks.route args.shardId ∧ res.header.etcd = ks.header ∧
      res.spec = ks.item args.shardId ∧ res.shard = none := by
  unfold KeySpace.resolve at h
  obtain ⟨processId, hp, rfl⟩ := Option.map_eq_some'.mp h
  exact ⟨processId, hp, rfl, rfl, rfl, rfl, rfl, rfl⟩

theorem resolveLocked_cases (ks : KeySpace) (localID : ProcessSpecID)
    (replicas : Option ReplicaMap) (args : ResolveArgs) :
    (ks.resolve localID args = none ∧ resolveLocked ks localID replicas args = .panics) ∨
    ∃ res, ks.resolve localID args = some res ∧
      ((¬(res.status = .ok ∧ res.header.processId = localID) ∧
          resolveLocked ks localID replicas args = .returns res none) ∨
        (res.status = .ok ∧ res.header.processId = localID ∧
          ((replicas = none ∧
              resolveLocked ks localID replicas args = .returns res (some .stopped)) ∨
            ∃ m, replicas = some m ∧
              ((m.lookup args.shardId = none ∧ resolveLocked ks localID replicas args = .panics) ∨
                ∃ k, m.lookup args.shardId = some k ∧
                  resolveLocked ks localID replicas args = .attaches res k)))) := by
  unfold resolveLocked
  cases hres : ks.resolve localID args with
  | none => exact .inl ⟨rfl, rfl⟩
  | some res =>
    refine .inr ⟨res, rfl, ?_⟩
    dsimp only
    by_cases hloc : res.status = .ok ∧ res.header.processId = localID
    · refine .inr ⟨hloc.1, hloc.2, ?_⟩
      rw [if_pos hloc]
      cases replicas with
      | none => exact .inl ⟨rfl, rfl⟩
      | some m =>
        cases hk : m.lookup args.shardId with
        | none => exact .inr ⟨m, rfl, .inl ⟨hk, by dsimp only; rw [hk]⟩⟩
        | some k => exact .inr ⟨m, rfl, .inr ⟨k, hk, by dsimp only; rw [hk]⟩⟩
    · exact .inl ⟨hloc, by rw [if_neg hloc]⟩

/-- An Etcd header of the proxy header's cluster at or past its revision. -/
def ResolveArgs.MetBy (args : ResolveArgs) (etcd : Etcd) : Prop :=
  ∀ hdr, args.proxyHeader = some hdr →
    hdr.etcd.clusterId = etcd.clusterId ∧ hdr.etcd.revision ≤ etcd.revision

theorem beginLocked_cases (ks : KeySpace) (replicas : Option ReplicaMap) (args : ResolveArgs) :
    (args.MetBy ks.header ∧
      beginLocked ks replicas args = resolveLocked ks ks.localID replicas args) ∨
    ∃ hdr, args.proxyHeader = some hdr ∧
      ((∃ e, beginLocked ks replicas args = .returns .zero (some e)) ∨
        (hdr.etcd.clusterId = ks.header.clusterId ∧ ks.header.revision < hdr.etcd.revision ∧
          beginLocked ks replicas args = .waits hdr.etcd.revision)) := by
  unfold beginLocked
  cases hh : args.proxyHeader with
  | none => exact .inl ⟨fun _ h => Option.noConfusion (hh.symm.trans h), rfl⟩
  | some hdr =>
    dsimp only
    by_cases hc : hdr.etcd.clusterId ≠ ks.header.clusterId
    · exact .inr ⟨hdr, rfl, .inl ⟨_, if_pos hc⟩⟩
    rw [if_neg hc]
    by_cases hp : hdr.processId ≠ ks.localID
    · exact .inr ⟨hdr, rfl, .inl ⟨_, if_pos hp⟩⟩
    rw [if_neg hp]
    by_cases hr : hdr.etcd.revision > ks.header.revision
    · exact .inr ⟨hdr, rfl, .inr ⟨not_not.mp hc, hr, if_pos hr⟩⟩
    · refine .inl ⟨fun _ he => ?_, if_neg hr⟩
      obtain rfl := Option.some.inj (hh.symm.trans he)
      exact ⟨not_not.mp hc, not_lt.mp hr⟩

/-! ### On a coherent key space -/

/-- What the allocator's key space guarantees `Resolve`. -/
structure KeySpace.Coherent (ks : KeySpace) : Prop where
  nodup : ks.localItems.Nodup
  routes : ∀ id, (ks.route id).primaryId ≠ none
  assigned : ∀ id, ks.item id ≠ none → (ks.route id).primaryId = some ks.localID →
    id ∈ ks.localItems

/-- On a coherent key space the resolution with the key space's own `localID` never panics. -/
theorem resolveLocked_ne_panics {ks : KeySpace} (hks : ks.Coherent)
    {replicas : Option ReplicaMap} (hkeys : ∀ m, replicas = some m → m.keys.Perm ks.localItems)
    (args : ResolveArgs) : resolveLocked ks ks.localID replicas args ≠ .panics := by
  rcases resolveLocked_cases ks ks.localID replicas args with ⟨hres, -⟩ | ⟨res, hres, ⟨-, h⟩ |
      ⟨hok, hloc, ⟨-, h⟩ | ⟨m, hm, ⟨hk, -⟩ | ⟨k, -, h⟩⟩⟩⟩
  · -- every route of a coherent key space resolves to a process ID
    obtain ⟨pid, hp⟩ := Option.ne_none_iff_exists'.mp (hks.routes args.shardId)
    simp [KeySpace.resolve, hp] at hres
  · rw [h]; nofun
  · rw [h]; nofun
  · -- the shard is this process's, so it is among `LocalItems` and has a replica
    obtain ⟨pid, hp, hst, hpid, -⟩ := ks.resolve_spec hres
    have hitem := (selectStatus_eq_ok.mp (hst.symm.trans hok)).1
    rw [hok, if_pos rfl] at hpid
    have hid := hks.assigned _ hitem (hp.trans (congrArg some (hpid.symm.trans hloc)))
    have hmem : args.shardId ∈ m := AList.mem_keys.mp ((hkeys m hm).mem_iff.mpr hid)
    exact absurd (AList.lookup_isSome.mpr hmem) (by simp [hk])
  · rw [h]; nofun

theorem beginLocked_ne_panics {ks : KeySpace} (hks : ks.Coherent)
    {replicas : Option ReplicaMap} (hkeys : ∀ m, replicas = some m → m.keys.Perm ks.localItems)
    (args : ResolveArgs) : beginLocked ks replicas args ≠ .panics := by
  rcases beginLocked_cases ks replicas args with ⟨-, h⟩ | ⟨_, -, ⟨_, h⟩ | ⟨-, -, h⟩⟩ <;> rw [h]
  · exact resolveLocked_ne_panics hks hkeys args
  all_goals nofun

theorem resolveLocked_of_stopped {ks : KeySpace} {localID : ProcessSpecID} {args : ResolveArgs}
    {res : Resolution} (hres : ks.resolve localID args = some res) (hok : res.status = .ok)
    (hloc : res.header.processId = localID) :
    resolveLocked ks localID none args = .returns res (some .stopped) := by
  simp [resolveLocked, hres, hok, hloc]

end Gazette.Consumer
