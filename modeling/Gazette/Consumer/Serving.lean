import Mathlib.Logic.Relation
import Gazette.Consumer.Resolve
import Gazette.Consumer.Lifecycle

/-! The consumer serving `Resolve` calls against its key space and its resolver, as a system
of interleaved steps. Any number of calls run at once, each at its own place (`ResolvePc`);
between their steps the key space applies Etcd updates and runs its observer
`updateResolutions` under the write lock of `ks.Mu`, `stopServingLocalReplicas` takes that
lock too, replica tear-downs complete, and replica stores become ready.

A call takes the read lock, checks the proxy header, and may wait in `WaitForRevision`, which
releases and retakes the lock; it then resolves under the lock (`Consumer.Resolve`) and, for a
shard of this process, releases the lock before it selects on the replica's `storeReadyCh`,
its own context and the replica's context. `WaitForRevision`, the writers of the key space and
the stores are outside the excerpt: the model keeps what `Resolve` relies on, that `ks.Mu` is
held for writing only with no reader, that Etcd keeps its cluster ID and its revision never
goes back, and that the allocator's key space is coherent (`KeySpace.Coherent`). A context may
be done at any time, so a select that reads one may take it.

Over every interleaving: the read locks held are those of the calls between their `RLock` and
its release, so no call sees an update half-way; a call panics only when it resolves with the
`localID` it read before `WaitForRevision` and an update has since changed the local member,
which a run below does; a call waits on and returns
only the replica transitioned for its shard, and returns it only once its store is ready; each
replica's `wg` counts the resolutions that hold it; a proxied call resolves at or past the
proxy's revision; and once the resolver stops, no call gains a replica. -/

namespace Gazette.Consumer

/-! ### Lists of calls -/

section Lists

variable {α : Type*} {l : List α} {j : Nat} {x : α}

theorem forall_mem_set {P : α → Prop} (h : ∀ a ∈ l, P a) {y : α} (hy : P y) :
    ∀ a ∈ l.set j y, P a :=
  fun a ha => (List.mem_or_eq_of_mem_set ha).elim (h a) (· ▸ hy)

theorem countP_set_add (p : α → Bool) (hj : l[j]? = some x) (y : α) :
    (l.set j y).countP p + (if p x then 1 else 0) = l.countP p + (if p y then 1 else 0) := by
  obtain ⟨hlt, rfl⟩ := List.getElem?_eq_some_iff.mp hj
  have := List.boole_getElem_le_countP p l j hlt
  rw [List.countP_set p l j y hlt]
  omega

theorem getElem?_set_of (hj : l[j]? = some x) (y : α) (i : Nat) :
    (l.set j y)[i]? = if j = i then some y else l[i]? := by
  rw [List.getElem?_set, if_pos (List.getElem?_eq_some_iff.mp hj).1]

theorem getElem?_of_set_ne (hj : l[j]? = some x) {y z : α} {i : Nat}
    (h : (l.set j y)[i]? = some z) (hy : y ≠ z) : l[i]? = some z := by
  rw [getElem?_set_of hj] at h
  by_cases hji : j = i
  · rw [if_pos hji] at h
    exact absurd (Option.some.inj h) hy
  · rwa [if_neg hji] at h

end Lists

/-! ### The replicas the resolver transitions -/

namespace Loop

variable {l : Loop}

theorem item_transitions (l : Loop) (id : ShardID) :
    (l.item id).transitions = (id, (l.replicas.lookup id).getD l.created) :: l.transitions := by
  rcases l.item_cases id with ⟨h, he⟩ | ⟨k, h, he⟩ <;> simp [he, h]

def NextTransitioned (l : Loop) : Prop :=
  ∀ id k, l.next.lookup id = some k → (id, k) ∈ l.transitions

theorem NextTransitioned.item (h : l.NextTransitioned) (id : ShardID) :
    (l.item id).NextTransitioned := by
  intro j k hk
  rw [item_next] at hk
  rw [item_transitions]
  by_cases hj : j = id
  · subst hj
    rw [AList.lookup_insert, Option.some.injEq] at hk
    exact hk ▸ List.mem_cons_self _ _
  · rw [AList.lookup_insert_ne hj] at hk
    exact List.mem_cons_of_mem _ (h j k hk)

theorem NextTransitioned.foldl (h : l.NextTransitioned) (ids : List ShardID) :
    (ids.foldl Loop.item l).NextTransitioned ∧
      l.transitions ⊆ (ids.foldl Loop.item l).transitions := by
  induction ids generalizing l with
  | nil => exact ⟨h, List.Subset.refl _⟩
  | cons id ids ih =>
    obtain ⟨h', hsub⟩ := ih (h.item id)
    refine ⟨h', fun p hp => hsub ?_⟩
    rw [item_transitions]
    exact List.mem_cons_of_mem _ hp

end Loop

namespace Resolver

variable {r : Resolver}

/-- Each replica in `r.replicas` was transitioned for its shard. -/
def Transitioned (r : Resolver) : Prop :=
  ∀ m, r.replicas = some m → ∀ id k, m.lookup id = some k → (id, k) ∈ r.transitions

theorem Transitioned.updateResolutions (h : r.Transitioned) (localItems : List ShardID) :
    (r.updateResolutions localItems).Transitioned ∧
      r.transitions ⊆ (r.updateResolutions localItems).transitions := by
  cases hr : r.replicas with
  | none => rw [updateResolutions_of_none hr]; exact ⟨h, List.Subset.refl _⟩
  | some m =>
    have h₀ : Loop.NextTransitioned ⟨m, ∅, r.created, r.wg, r.transitions⟩ :=
      fun _ _ hk => by simp at hk
    obtain ⟨hn, hsub⟩ := h₀.foldl localItems
    rw [updateResolutions_of_some hr rfl]
    exact ⟨fun _ hm => by cases hm; exact hn, hsub⟩

end Resolver

/-! ### The calls of Resolve -/

/-- Where a call of `Resolve` is. -/
inductive ResolvePc where
  /-- Called, before `ks.Mu.RLock()`. -/
  | start (args : ResolveArgs)
  /-- Holding the read lock, with the `localID` read before `WaitForRevision` once back from it. -/
  | locked (args : ResolveArgs) (localID : Option ProcessSpecID)
  /-- In `WaitForRevision` for `revision`, waiting for an update with the lock released. -/
  | waiting (args : ResolveArgs) (localID : ProcessSpecID) (revision : Int)
  /-- In `WaitForRevision` for `revision`, holding the read lock. -/
  | relocked (args : ResolveArgs) (localID : ProcessSpecID) (revision : Int)
  /-- In the select on `replica.storeReadyCh`, the one with a default case if `first`. -/
  | awaitStore (args : ResolveArgs) (res : Resolution) (replica : Nat) (first : Bool)
  | returned (args : ResolveArgs) (res : Resolution) (err : Option ResolveError)
  /-- Returned a replica, on which the caller has since called `res.Done()`. -/
  | released (args : ResolveArgs) (res : Resolution)
  | panicked
  deriving DecidableEq, Repr

namespace ResolvePc

/-- Whether the call holds a read lock of `ks.Mu`. -/
def holdsLock : ResolvePc → Bool
  | .locked .. | .relocked .. => true
  | _ => false

/-- The replica a returned resolution holds until its caller calls `res.Done()`. -/
def holding : ResolvePc → Option Nat
  | .returned _ res none => res.shard
  | _ => none

def replica : ResolvePc → Option (ShardID × Nat)
  | .awaitStore args _ k _ => some (args.shardId, k)
  | .returned args res none | .released args res => res.shard.map (args.shardId, ·)
  | _ => none

/-- What a proxied call knows of the key space: that it meets the header once checked, and
that a resolution it waits on or returns meets it. -/
def Proxied (ks : KeySpace) : ResolvePc → Prop
  | .locked args localID => localID ≠ none → args.MetBy ks.header
  | .waiting args _ revision | .relocked args _ revision =>
    ∃ hdr, args.proxyHeader = some hdr ∧ hdr.etcd.clusterId = ks.header.clusterId ∧
      hdr.etcd.revision = revision
  | .awaitStore args res _ _ | .released args res => args.MetBy res.header.etcd
  | .returned args res err => err = none → args.MetBy res.header.etcd
  | .start _ | .panicked => True

theorem Proxied.update {pc : ResolvePc} {ks ks' : KeySpace} (h : pc.Proxied ks)
    (hfree : ¬pc.holdsLock) (hcluster : ks'.header.clusterId = ks.header.clusterId) :
    pc.Proxied ks' := by
  cases pc with
  | locked | relocked => exact absurd rfl hfree
  | waiting args _ revision =>
    obtain ⟨hdr, hh, hc, hr⟩ := h
    exact ⟨hdr, hh, hc.trans hcluster.symm, hr⟩
  | start | awaitStore | returned | released | panicked => exact h

/-- What each call knows between two steps. -/
structure Sound (ks : KeySpace) (transitions : List (ShardID × Nat)) (pc : ResolvePc) :
    Prop where
  transitioned : ∀ p, pc.replica = some p → p ∈ transitions
  proxied : pc.Proxied ks

theorem sound_returned_error {ks : KeySpace} {transitions : List (ShardID × Nat)}
    (args : ResolveArgs) (res : Resolution) (e : ResolveError) :
    (returned args res (some e)).Sound ks transitions :=
  ⟨(fun _ hp => nomatch hp), nofun⟩

end ResolvePc

def Locked.next (args : ResolveArgs) (localID : ProcessSpecID) : Locked → ResolvePc
  | .returns res err => .returned args res err
  | .waits revision => .relocked args localID revision
  | .attaches res replica => .awaitStore args res replica true
  | .panics => .panicked

/-- Whether the body releases the read lock; `WaitForRevision` is entered holding it. -/
def Locked.unlocks : Locked → Bool
  | .waits _ => false
  | _ => true

@[simp] theorem Locked.holdsLock_next (args : ResolveArgs) (localID : ProcessSpecID)
    (l : Locked) : (l.next args localID).holdsLock = !l.unlocks := by
  cases l <;> rfl

theorem Locked.next_eq_panicked {args : ResolveArgs} {localID : ProcessSpecID} {l : Locked} :
    l.next args localID = .panicked ↔ l = .panics := by
  cases l <;> simp [Locked.next]

theorem resolveLocked_next (ks : KeySpace) (localID : ProcessSpecID)
    (replicas : Option ReplicaMap) (args : ResolveArgs) :
    (resolveLocked ks localID replicas args).next args localID = .panicked ∨
    (∃ res err, ks.resolve localID args = some res ∧ res.shard = none ∧
      (resolveLocked ks localID replicas args).next args localID = .returned args res err) ∨
    (∃ m res k, replicas = some m ∧ m.lookup args.shardId = some k ∧
      ks.resolve localID args = some res ∧
      (resolveLocked ks localID replicas args).next args localID =
        .awaitStore args res k true) := by
  rcases resolveLocked_cases ks localID replicas args with ⟨-, h⟩ | ⟨res, hres, hcases⟩
  · exact .inl (by rw [h]; rfl)
  obtain ⟨-, -, -, -, -, -, -, hshard⟩ := ks.resolve_spec hres
  rcases hcases with ⟨-, h⟩ | ⟨-, -, ⟨-, h⟩ | ⟨m, hm, ⟨-, h⟩ | ⟨k, hk, h⟩⟩⟩ <;> rw [h]
  · exact .inr (.inl ⟨res, _, hres, hshard, rfl⟩)
  · exact .inr (.inl ⟨res, _, hres, hshard, rfl⟩)
  · exact .inl rfl
  · exact .inr (.inr ⟨m, res, k, hm, hk, hres, rfl⟩)

/-! ### The system -/

/-- What `ctx.Err()` returns once a context is done. -/
def ContextError (e : Error) : Prop := e = .canceled ∨ e = .deadlineExceeded

/-- The state the calls of `Resolve` share with the key space and the resolver. -/
structure Serving where
  ks : KeySpace
  resolver : Resolver
  readers : Nat
  /-- The replicas whose `storeReadyCh` is closed. -/
  ready : List Nat
  calls : List ResolvePc
  /-- Each `replica.wg.Add(1)` of `Resolve`, by replica. -/
  attached : List Nat
  /-- Each `res.Done()`, that is `replica.wg.Done()`, by replica. -/
  released : List Nat

namespace Serving

/-- The state when the resolver is built by `NewResolver`: no call yet. -/
def init (ks : KeySpace) : Serving := ⟨ks, newResolver, 0, [], [], [], []⟩

/-- The body of `Resolve` under the read lock: from the proxy header's checks on the first hold,
from the resolution with the `localID` read then once back from `WaitForRevision`. -/
def lockedBody (s : Serving) (args : ResolveArgs) : Option ProcessSpecID → Locked
  | none => beginLocked s.ks s.resolver.replicas args
  | some localID => resolveLocked s.ks localID s.resolver.replicas args

def bodyNext (s : Serving) (args : ResolveArgs) (localID : Option ProcessSpecID) : ResolvePc :=
  (s.lockedBody args localID).next args (localID.getD s.ks.localID)

/-- One step of the system. -/
inductive Step : Serving → Serving → Prop where
  /-- An Etcd update under the write lock, held with no reader, and its observer
    `updateResolutions`; Etcd keeps its cluster and its revision does not go back. -/
  | update {s : Serving} (ks : KeySpace) (hidle : s.readers = 0)
      (hcluster : ks.header.clusterId = s.ks.header.clusterId)
      (hrevision : s.ks.header.revision ≤ ks.header.revision) (hks : ks.Coherent) :
      Step s { s with ks := ks, resolver := s.resolver.updateResolutions ks.localItems }
  /-- `stopServingLocalReplicas`, under the write lock. -/
  | stop {s : Serving} (hidle : s.readers = 0) :
      Step s { s with resolver := s.resolver.stopServingLocalReplicas }
  /-- A started tear-down of `replica` completes. -/
  | tornDown {s : Serving} (replica : Nat)
      (hk : s.resolver.tornDown.count replica < s.resolver.tearDowns.count replica) :
      Step s { s with resolver := s.resolver.tearDownDone replica }
  /-- The store of a replica becomes ready, and its `storeReadyCh` is closed. -/
  | storeReady {s : Serving} (replica : Nat) (hk : replica < s.resolver.created)
      (hn : replica ∉ s.ready) : Step s { s with ready := replica :: s.ready }
  /-- `Resolve(args)` is called. -/
  | call {s : Serving} (args : ResolveArgs) :
      Step s { s with calls := s.calls ++ [.start args] }
  /-- `ks.Mu.RLock()`. -/
  | rlock {s : Serving} (j : Nat) {args : ResolveArgs}
      (hj : s.calls[j]? = some (.start args)) :
      Step s { s with readers := s.readers + 1, calls := s.calls.set j (.locked args none) }
  /-- The body under the read lock. -/
  | body {s : Serving} (j : Nat) {args : ResolveArgs} {localID : Option ProcessSpecID}
      (hj : s.calls[j]? = some (.locked args localID)) :
      Step s { s with
        readers := if (s.lockedBody args localID).unlocks then s.readers - 1 else s.readers,
        calls := s.calls.set j (s.bodyNext args localID) }
  /-- `WaitForRevision` finds the call's context done, and `Resolve` returns its error. -/
  | waitCanceled {s : Serving} (j : Nat) {args : ResolveArgs} {localID : ProcessSpecID}
      {revision : Int} {e : Error} (hj : s.calls[j]? = some (.relocked args localID revision))
      (he : ContextError e) :
      Step s { s with
        readers := s.readers - 1,
        calls := s.calls.set j (.returned args .zero (some (.context e))) }
  /-- `WaitForRevision` returns at the revision it waits for. -/
  | revisionReached {s : Serving} (j : Nat) {args : ResolveArgs} {localID : ProcessSpecID}
      {revision : Int} (hj : s.calls[j]? = some (.relocked args localID revision))
      (hr : revision ≤ s.ks.header.revision) :
      Step s { s with calls := s.calls.set j (.locked args (some localID)) }
  /-- `WaitForRevision` releases the lock to wait for an update. -/
  | revisionBehind {s : Serving} (j : Nat) {args : ResolveArgs} {localID : ProcessSpecID}
      {revision : Int} (hj : s.calls[j]? = some (.relocked args localID revision))
      (hr : s.ks.header.revision < revision) :
      Step s { s with
        readers := s.readers - 1, calls := s.calls.set j (.waiting args localID revision) }
  /-- `WaitForRevision` retakes the lock. -/
  | relock {s : Serving} (j : Nat) {args : ResolveArgs} {localID : ProcessSpecID}
      {revision : Int} (hj : s.calls[j]? = some (.waiting args localID revision)) :
      Step s { s with
        readers := s.readers + 1, calls := s.calls.set j (.relocked args localID revision) }
  /-- A select takes `replica.storeReadyCh`: `replica.wg.Add(1)`, and the replica is returned. -/
  | storeAttached {s : Serving} (j : Nat) {args : ResolveArgs} {res : Resolution} {replica : Nat}
      {first : Bool} (hj : s.calls[j]? = some (.awaitStore args res replica first))
      (hk : replica ∈ s.ready) :
      Step s { s with
        calls := s.calls.set j (.returned args { res with shard := some replica } none),
        attached := replica :: s.attached }
  /-- The select with a default case finds the store not ready. -/
  | storeNotReady {s : Serving} (j : Nat) {args : ResolveArgs} {res : Resolution} {replica : Nat}
      (hj : s.calls[j]? = some (.awaitStore args res replica true)) (hk : replica ∉ s.ready) :
      Step s { s with calls := s.calls.set j (.awaitStore args res replica false) }
  /-- The blocking select takes `args.Context.Done()`. -/
  | callCanceled {s : Serving} (j : Nat) {args : ResolveArgs} {res : Resolution} {replica : Nat}
      {e : Error} (hj : s.calls[j]? = some (.awaitStore args res replica false))
      (he : ContextError e) :
      Step s { s with calls := s.calls.set j (.returned args res (some (.context e))) }
  /-- The blocking select takes `replica.ctx.Done()`: the replica was cancelled. -/
  | replicaCanceled {s : Serving} (j : Nat) {args : ResolveArgs} {res : Resolution}
      {replica : Nat} (hj : s.calls[j]? = some (.awaitStore args res replica false))
      (hk : replica ∈ s.resolver.cancels) :
      Step s { s with calls := s.calls.set j (.returned args res (some (.context .canceled))) }
  /-- The caller of a resolution holding a replica calls `res.Done()`. -/
  | done {s : Serving} (j : Nat) {args : ResolveArgs} {res : Resolution} {replica : Nat}
      (hj : s.calls[j]? = some (.returned args res none)) (hk : res.shard = some replica) :
      Step s { s with
        calls := s.calls.set j (.released args res),
        released := replica :: s.released }

/-- The states reachable from `NewResolver` over a coherent key space with no local item. -/
inductive Reachable : Serving → Prop where
  | init {ks : KeySpace} (hks : ks.Coherent) (hl : ks.localItems = []) : Reachable (init ks)
  | step {s s' : Serving} (h : Reachable s) (hs : Step s s') : Reachable s'

theorem bodyNext_cases (s : Serving) (args : ResolveArgs) (localID : Option ProcessSpecID) :
    ((localID = none → args.MetBy s.ks.header) ∧
      s.bodyNext args localID = (resolveLocked s.ks (localID.getD s.ks.localID)
        s.resolver.replicas args).next args (localID.getD s.ks.localID)) ∨
    (∃ e, s.bodyNext args localID = .returned args .zero (some e)) ∨
    (∃ hdr, args.proxyHeader = some hdr ∧ hdr.etcd.clusterId = s.ks.header.clusterId ∧
      s.bodyNext args localID = .relocked args s.ks.localID hdr.etcd.revision) := by
  cases localID with
  | some _ => exact .inl ⟨nofun, rfl⟩
  | none =>
    rcases beginLocked_cases s.ks s.resolver.replicas args with
      ⟨hm, h⟩ | ⟨hdr, hh, ⟨e, h⟩ | ⟨hc, -, h⟩⟩
    · exact .inl ⟨fun _ => hm, by rw [bodyNext, lockedBody, h]; rfl⟩
    · exact .inr (.inl ⟨e, by rw [bodyNext, lockedBody, h]; rfl⟩)
    · exact .inr (.inr ⟨hdr, hh, hc, by rw [bodyNext, lockedBody, h]; rfl⟩)

/-! ### The invariant -/

/-- What holds between any two steps of a run. -/
structure Valid (s : Serving) : Prop where
  readers : s.readers = s.calls.countP ResolvePc.holdsLock
  coherent : s.ks.Coherent
  resolver : s.resolver.Valid s.ks.localItems
  transitioned : s.resolver.Transitioned
  calls : ∀ pc ∈ s.calls, pc.Sound s.ks s.resolver.transitions
  holders : ∀ k, s.attached.count k =
    s.released.count k + s.calls.countP (fun pc => pc.holding = some k)
  ready : ∀ k ∈ s.attached, k ∈ s.ready

variable {s s' : Serving}

theorem Valid.init {ks : KeySpace} (hks : ks.Coherent) (hl : ks.localItems = []) :
    (init ks).Valid :=
  ⟨rfl, hks, show newResolver.Valid ks.localItems from hl ▸ Resolver.valid_newResolver,
    fun _ hm _ _ hk => by cases hm; simp at hk, fun _ h => absurd h (List.not_mem_nil _),
    fun _ => rfl, fun _ h => absurd h (List.not_mem_nil _)⟩

theorem Valid.readers_pos (h : s.Valid) {j : Nat} {x : ResolvePc} (hj : s.calls[j]? = some x)
    (hx : x.holdsLock) : 0 < s.readers :=
  h.readers ▸ List.countP_pos_iff.mpr ⟨x, List.getElem?_mem hj, hx⟩

theorem Valid.body_sound (h : s.Valid) {args : ResolveArgs} {localID : Option ProcessSpecID}
    (hmet : localID ≠ none → args.MetBy s.ks.header) :
    (s.bodyNext args localID).Sound s.ks s.resolver.transitions ∧
      (s.bodyNext args localID).holding = none := by
  rcases bodyNext_cases s args localID with ⟨hm, heq⟩ | ⟨e, heq⟩ | ⟨hdr, hh, hc, heq⟩ <;>
    rw [heq]
  · replace hm : args.MetBy s.ks.header := by
      cases localID; exacts [hm rfl, hmet (Option.some_ne_none _)]
    rcases resolveLocked_next s.ks (localID.getD s.ks.localID) s.resolver.replicas args with
      hp | ⟨res, err, hres, hshard, hnext⟩ | ⟨m, res, k, hm', hk, hres, hnext⟩
    · rw [hp]
      exact ⟨⟨(fun _ hp => nomatch hp), trivial⟩, rfl⟩
    all_goals
      obtain ⟨-, -, -, -, -, hetcd, -⟩ := s.ks.resolve_spec hres
      rw [hnext]
    · have hnone : (ResolvePc.returned args res err).replica = none ∧
          (ResolvePc.returned args res err).holding = none := by
        cases err <;> simp [ResolvePc.replica, ResolvePc.holding, hshard]
      exact ⟨⟨fun p hp => by simp [hnone.1] at hp, fun _ => hetcd ▸ hm⟩, hnone.2⟩
    · exact ⟨⟨fun p hp => by cases hp; exact h.transitioned m hm' _ _ hk,
        show args.MetBy res.header.etcd from hetcd ▸ hm⟩, rfl⟩
  · exact ⟨ResolvePc.sound_returned_error _ _ _, rfl⟩
  · exact ⟨⟨(fun _ hp => nomatch hp), ⟨hdr, hh, hc, rfl⟩⟩, rfl⟩

theorem Valid.set (h : s.Valid) {j : Nat} {x y : ResolvePc} (hj : s.calls[j]? = some x)
    (hy : y.Sound s.ks s.resolver.transitions) {readers : Nat}
    (hreaders : readers + (if x.holdsLock then 1 else 0) =
      s.readers + (if y.holdsLock then 1 else 0))
    {attached released : List Nat}
    (hheld : ∀ k, attached.count k + (if x.holding = some k then 1 else 0) + s.released.count k =
      s.attached.count k + released.count k + (if y.holding = some k then 1 else 0))
    (hready : ∀ k ∈ attached, k ∈ s.ready) :
    Valid { s with
      readers := readers, calls := s.calls.set j y, attached := attached, released := released } :=
  { h with
    readers := by
      have := countP_set_add ResolvePc.holdsLock hj y
      have := h.readers
      dsimp only
      omega
    calls := forall_mem_set h.calls hy
    holders := fun k => by
      have := countP_set_add (fun pc => decide (pc.holding = some k)) hj y
      have := h.holders k
      have := hheld k
      simp only [decide_eq_true_eq] at *
      omega
    ready := hready }

theorem Valid.update (h : s.Valid) {ks : KeySpace} (hidle : s.readers = 0)
    (hcluster : ks.header.clusterId = s.ks.header.clusterId) (hks : ks.Coherent) :
    Valid { s with ks := ks, resolver := s.resolver.updateResolutions ks.localItems } := by
  obtain ⟨ht, hsub⟩ := h.transitioned.updateResolutions ks.localItems
  refine { h with coherent := hks, resolver := h.resolver.updateResolutions hks.nodup,
                  transitioned := ht, calls := fun pc hpc => ?_ }
  have hfree : ¬pc.holdsLock := List.countP_eq_zero.mp (h.readers ▸ hidle) pc hpc
  obtain ⟨htr, hpr⟩ := h.calls pc hpc
  exact ⟨fun p hp => hsub (htr p hp), hpr.update hfree hcluster⟩

theorem Valid.stop (h : s.Valid) :
    Valid { s with resolver := s.resolver.stopServingLocalReplicas } := by
  have ht : s.resolver.stopServingLocalReplicas.transitions = s.resolver.transitions := by
    simp [Resolver.stopServingLocalReplicas_eq]
  exact { h with
    resolver := h.resolver.stopServingLocalReplicas
    transitioned := fun _ hm => by simp [Resolver.stopServingLocalReplicas_eq] at hm
    calls := by dsimp only; rw [ht]; exact h.calls }

theorem Valid.call (h : s.Valid) (args : ResolveArgs) :
    Valid { s with calls := s.calls ++ [.start args] } :=
  { h with
    readers := by simp [h.readers, ResolvePc.holdsLock]
    calls := by
      simp only [List.mem_append, List.mem_singleton]
      rintro pc (hpc | rfl)
      exacts [h.calls pc hpc, ⟨(fun _ hp => nomatch hp), trivial⟩]
    holders := fun k => by simp [h.holders k, ResolvePc.holding] }

/-- Every step keeps the invariant. -/
theorem Valid.step (h : s.Valid) (hs : Step s s') : s'.Valid := by
  cases hs with
  | update ks hidle hcluster _ hks => exact h.update hidle hcluster hks
  | stop => exact h.stop
  | tornDown k hk => exact { h with resolver := h.resolver.tearDownDone hk }
  | storeReady k =>
    exact { h with ready := fun k' hk' => List.mem_cons_of_mem _ (h.ready k' hk') }
  | call args => exact h.call args
  | rlock _ hj =>
    refine h.set hj ?_ (by simp [ResolvePc.holdsLock]) (by simp [ResolvePc.holding]) h.ready
    exact ⟨(fun _ hp => nomatch hp), fun hn => absurd rfl hn⟩
  | body _ hj =>
    have hpos := h.readers_pos hj rfl
    obtain ⟨hsound, hheld⟩ := h.body_sound (h.calls _ (List.getElem?_mem hj)).proxied
    refine h.set hj hsound ?_ (fun k => by rw [hheld]; simp [ResolvePc.holding]) h.ready
    rw [bodyNext, Locked.holdsLock_next]
    cases (s.lockedBody _ _).unlocks <;> simp [ResolvePc.holdsLock]
    omega
  | waitCanceled _ hj =>
    have hpos := h.readers_pos hj rfl
    refine h.set hj (ResolvePc.sound_returned_error _ _ _) ?_ (by simp [ResolvePc.holding])
      h.ready
    simp [ResolvePc.holdsLock]
    omega
  | revisionReached _ hj hr =>
    obtain ⟨hdr, hh, hc, rfl⟩ := (h.calls _ (List.getElem?_mem hj)).proxied
    refine h.set hj ?_ (by simp [ResolvePc.holdsLock]) (by simp [ResolvePc.holding]) h.ready
    refine ⟨(fun _ hp => nomatch hp), fun _ hdr' hh' => ?_⟩
    obtain rfl := Option.some.inj (hh.symm.trans hh')
    exact ⟨hc, hr⟩
  | revisionBehind _ hj =>
    have hpos := h.readers_pos hj rfl
    refine h.set hj ?_ ?_ (by simp [ResolvePc.holding]) h.ready
    · exact ⟨(fun _ hp => nomatch hp), (h.calls _ (List.getElem?_mem hj)).proxied⟩
    · simp [ResolvePc.holdsLock]
      omega
  | relock _ hj =>
    refine h.set hj ?_ (by simp [ResolvePc.holdsLock]) (by simp [ResolvePc.holding]) h.ready
    exact ⟨(fun _ hp => nomatch hp), (h.calls _ (List.getElem?_mem hj)).proxied⟩
  | storeAttached _ hj hk =>
    have hx := h.calls _ (List.getElem?_mem hj)
    refine h.set hj ?_ (by simp [ResolvePc.holdsLock]) (fun k' => ?_) ?_
    · exact ⟨hx.transitioned, fun _ => hx.proxied⟩
    · simp [ResolvePc.holding, List.count_cons]
      omega
    · intro k' hk'
      rcases List.mem_cons.mp hk' with rfl | hk'
      exacts [hk, h.ready k' hk']
  | storeNotReady _ hj =>
    have hx := h.calls _ (List.getElem?_mem hj)
    refine h.set hj ?_ (by simp [ResolvePc.holdsLock]) (by simp [ResolvePc.holding]) h.ready
    exact ⟨hx.transitioned, hx.proxied⟩
  | callCanceled _ hj | replicaCanceled _ hj =>
    exact h.set hj (ResolvePc.sound_returned_error _ _ _) (by simp [ResolvePc.holdsLock])
      (by simp [ResolvePc.holding]) h.ready
  | done _ hj hk =>
    have hx := h.calls _ (List.getElem?_mem hj)
    refine h.set hj ?_ (by simp [ResolvePc.holdsLock]) (fun k' => ?_) h.ready
    · exact ⟨hx.transitioned, hx.proxied rfl⟩
    · simp [ResolvePc.holding, hk, List.count_cons]
      omega

theorem Reachable.valid (h : Reachable s) : s.Valid := by
  induction h with
  | init hks hl => exact Valid.init hks hl
  | step _ hs ih => exact ih.step hs

/-! ### A run

One consumer process and one shard, assigned to it as primary by an update of the key space;
a call proxied by a peer at that update's revision resolves the shard, the replica's store
becomes ready, and the call returns the replica. The resolver then stops, and a second such
call gets `ErrResolverStopped`. In a second run a call proxied at the next revision waits for
it, the local member key leaves Etcd meanwhile, and the call panics. The results below are
instantiated on them. -/

def runMember : ProcessSpecID := ⟨"zone-a", "consumer-1"⟩

/-- The key space before its first update: no shard. -/
def runKs₀ : KeySpace := ⟨⟨7, 1⟩, some runMember, fun _ => none, fun _ => ⟨[], -1⟩, []⟩

/-- The key space once shard "shard-1" is assigned to `runMember` as primary. -/
def runKs₁ : KeySpace :=
  ⟨⟨7, 2⟩, some runMember, fun id => if id = "shard-1" then some ⟨"shard-1"⟩ else none,
    fun id => if id = "shard-1" then ⟨[runMember], 0⟩ else ⟨[], -1⟩, ["shard-1"]⟩

def runProxyHeader : Header := ⟨runMember, ⟨[runMember], 0⟩, ⟨7, 2⟩⟩

def runArgs : ResolveArgs := ⟨"shard-1", false, some runProxyHeader⟩

def runResolution : Resolution :=
  ⟨.ok, ⟨runMember, ⟨[runMember], 0⟩, ⟨7, 2⟩⟩, some ⟨"shard-1"⟩, none⟩

theorem runKs₀_coherent : runKs₀.Coherent :=
  ⟨List.nodup_nil, fun _ => by simp [runKs₀, Route.primaryId], fun _ h => absurd rfl h⟩

theorem runKs₁_coherent : runKs₁.Coherent := by
  refine ⟨by decide, fun id => ?_, fun id h _ => ?_⟩ <;> by_cases hid : id = "shard-1"
  · simp [runKs₁, Route.primaryId, hid]
  · simp [runKs₁, Route.primaryId, hid]
  · simp [runKs₁, hid]
  · simp [runKs₁, hid] at h

/-- The call holds the read lock, before the proxy header's checks. -/
def runLocked : Serving :=
  ⟨runKs₁, newResolver.updateResolutions runKs₁.localItems, 1, [], [.locked runArgs none], [],
    []⟩

/-- The call has returned the shard's replica. -/
def runAttached : Serving :=
  ⟨runKs₁, newResolver.updateResolutions runKs₁.localItems, 0, [0],
    [.returned runArgs { runResolution with shard := some 0 } none], [0], []⟩

/-- The resolver has stopped. -/
def runStopped : Serving :=
  { runAttached with resolver := runAttached.resolver.stopServingLocalReplicas }

/-- A second call of `runArgs` has returned `ErrResolverStopped`. -/
def runRefused : Serving :=
  { runStopped with
    calls := runStopped.calls ++ [.returned runArgs runResolution (some .stopped)] }

theorem runLocked_reachable : Reachable runLocked :=
  .step (.step (.step (.init runKs₀_coherent rfl)
    (.update runKs₁ rfl rfl (by decide) runKs₁_coherent)) (.call runArgs))
    (.rlock 0 rfl)

theorem runAttached_reachable : Reachable runAttached :=
  .step (.step (.step runLocked_reachable (.body 0 rfl))
    (.storeReady 0 (by decide) (by decide))) (.storeAttached 0 rfl (by decide))

theorem runStopped_refused : Relation.ReflTransGen Step runStopped runRefused :=
  (.tail (.tail (.single (.call runArgs)) (.rlock 1 rfl)) (.body 1 rfl) :
    Relation.ReflTransGen Step runStopped _)

/-- The key space once the local member key has left Etcd, the shard still assigned to it. -/
def runKs₂ : KeySpace := { runKs₁ with header := ⟨7, 3⟩, localMember := none, localItems := [] }

def runArgsAhead : ResolveArgs := ⟨"shard-1", false, some ⟨runMember, ⟨[runMember], 0⟩, ⟨7, 3⟩⟩⟩

/-- The call is back from `WaitForRevision` over `runKs₂`, with the `localID` of `runKs₁`. -/
def runWaited : Serving :=
  ⟨runKs₂, (newResolver.updateResolutions runKs₁.localItems).updateResolutions runKs₂.localItems,
    1, [], [.locked runArgsAhead (some runMember)], [], []⟩

/-- The call has panicked. -/
def runPanicked : Serving := { runWaited with readers := 0, calls := [.panicked] }

theorem runKs₂_coherent : runKs₂.Coherent := by
  refine ⟨List.nodup_nil, runKs₁_coherent.routes, fun id _ h => ?_⟩
  by_cases hid : id = "shard-1" <;>
    simp [runKs₂, runKs₁, KeySpace.localID, Route.primaryId, runMember, missingLocalID,
      ProcessSpecID.zero, hid] at h

theorem runWaited_reachable : Reachable runWaited :=
  (.step (.step (.step (.step (.step (.step (.step (.step (.init runKs₀_coherent rfl)
    (.update runKs₁ rfl rfl (by decide) runKs₁_coherent)) (.call runArgsAhead)) (.rlock 0 rfl))
    (.body 0 rfl)) (.revisionBehind 0 rfl (by decide)))
    (.update runKs₂ rfl rfl (by decide) runKs₂_coherent)) (.relock 0 rfl))
    (.revisionReached 0 rfl (by decide)) : Reachable runWaited)

theorem runWaited_panics : Step runWaited runPanicked :=
  @Step.body runWaited 0 runArgsAhead (some runMember) rfl

/-! ### Over every run -/

/-- The read locks held on `ks.Mu` are those of the calls between their `RLock` and its release,
so no update or stop runs while a call holds one. -/
theorem read_lock_exclusion (h : Reachable s) :
    s.readers = s.calls.countP ResolvePc.holdsLock ∧
      ∀ s', Step s s' → (∃ pc ∈ s.calls, pc.holdsLock) →
        s'.ks = s.ks ∧ s'.resolver.replicas = s.resolver.replicas := by
  have hv := h.valid
  refine ⟨hv.readers, fun s' hs hheld => ?_⟩
  have hpos : 0 < s.readers := hv.readers ▸ List.countP_pos_iff.mpr hheld
  cases hs with
  | update _ hidle | stop hidle => omega
  | _ => exact ⟨rfl, rfl⟩

theorem read_lock_exclusion_locked_call :
    Reachable runLocked ∧ runLocked.readers = runLocked.calls.countP ResolvePc.holdsLock ∧
      ∀ s', Step runLocked s' → (∃ pc ∈ runLocked.calls, pc.holdsLock) →
        s'.ks = runLocked.ks ∧ s'.resolver.replicas = runLocked.resolver.replicas :=
  ⟨runLocked_reachable, read_lock_exclusion runLocked_reachable⟩

/-- A call panics only in the body it runs back from `WaitForRevision` with a `localID` that an
update has since replaced: with the key space's own, coherence rules the panic out. -/
theorem resolve_panics_only_stale (h : Reachable s) (hs : Step s s') {j : Nat}
    (hj : s'.calls[j]? = some .panicked) :
    s.calls[j]? = some .panicked ∨
      ∃ args localID, s.calls[j]? = some (.locked args (some localID)) ∧
        localID ≠ s.ks.localID := by
  have hv := h.valid
  cases hs with
  | update | stop | tornDown | storeReady => exact .inl hj
  | call args =>
    refine .inl ?_
    by_cases hi : j < s.calls.length
    · rwa [List.getElem?_append_left hi] at hj
    · rw [List.getElem?_append_right (not_lt.mp hi)] at hj
      rcases hk : j - s.calls.length with _ | n <;> simp [hk] at hj
  | @body j' _ localID hj' =>
    rw [getElem?_set_of hj'] at hj
    by_cases hjj : j' = j
    · subst hjj
      rw [if_pos rfl, Option.some.injEq, bodyNext, Locked.next_eq_panicked] at hj
      cases localID with
      | none => exact absurd hj (beginLocked_ne_panics hv.coherent hv.resolver.keys _)
      | some id =>
        refine .inr ⟨_, id, hj', fun hid => ?_⟩
        exact resolveLocked_ne_panics hv.coherent hv.resolver.keys _ (hid ▸ hj)
    · rw [if_neg hjj] at hj
      exact .inl hj
  | rlock _ hj' | waitCanceled _ hj' | revisionReached _ hj' | revisionBehind _ hj'
  | relock _ hj' | storeAttached _ hj' | storeNotReady _ hj' | callCanceled _ hj'
  | replicaCanceled _ hj' | done _ hj' => exact .inl (getElem?_of_set_ne hj' hj nofun)

theorem resolve_panics_after_member_left :
    Reachable runWaited ∧ Step runWaited runPanicked ∧ runPanicked.calls[0]? = some .panicked ∧
      (runWaited.calls[0]? = some .panicked ∨
        ∃ args localID, runWaited.calls[0]? = some (.locked args (some localID)) ∧
          localID ≠ runWaited.ks.localID) :=
  ⟨runWaited_reachable, runWaited_panics, rfl,
    resolve_panics_only_stale runWaited_reachable runWaited_panics rfl⟩

/-- A call waits on and returns only a replica transitioned for its shard. -/
theorem resolve_replica_transitioned (h : Reachable s) :
    (∀ args res k first, .awaitStore args res k first ∈ s.calls →
      (args.shardId, k) ∈ s.resolver.transitions) ∧
    (∀ args res k, .returned args res none ∈ s.calls → res.shard = some k →
      (args.shardId, k) ∈ s.resolver.transitions) :=
  ⟨fun _ _ _ _ hpc => (h.valid.calls _ hpc).transitioned _ rfl,
    fun _ _ _ hpc hk => (h.valid.calls _ hpc).transitioned _ (by simp [ResolvePc.replica, hk])⟩

theorem resolve_replica_transitioned_attached :
    Reachable runAttached ∧
      (∀ args res k first, .awaitStore args res k first ∈ runAttached.calls →
        (args.shardId, k) ∈ runAttached.resolver.transitions) ∧
      (∀ args res k, .returned args res none ∈ runAttached.calls → res.shard = some k →
        (args.shardId, k) ∈ runAttached.resolver.transitions) :=
  ⟨runAttached_reachable, resolve_replica_transitioned runAttached_reachable⟩

/-- A proxied call that returns without error resolves at or past the proxy's revision. -/
theorem proxied_resolution_current (h : Reachable s) {args : ResolveArgs} {res : Resolution}
    (hpc : .returned args res none ∈ s.calls) {hdr : Header} (hh : args.proxyHeader = some hdr) :
    hdr.etcd.clusterId = res.header.etcd.clusterId ∧
      hdr.etcd.revision ≤ res.header.etcd.revision :=
  (h.valid.calls _ hpc).proxied rfl hdr hh

theorem proxied_resolution_current_attached :
    Reachable runAttached ∧
      ResolvePc.returned runArgs { runResolution with shard := some 0 } none ∈ runAttached.calls ∧
      runArgs.proxyHeader = some runProxyHeader ∧
      runProxyHeader.etcd.clusterId =
        ({ runResolution with shard := some 0 } : Resolution).header.etcd.clusterId ∧
      runProxyHeader.etcd.revision ≤
        ({ runResolution with shard := some 0 } : Resolution).header.etcd.revision :=
  ⟨runAttached_reachable, List.mem_singleton_self _, rfl,
    proxied_resolution_current runAttached_reachable (List.mem_singleton_self _) rfl⟩

/-- Each replica's `wg` counts the returned resolutions that still hold it, and `Resolve` attaches
a replica only once its store is ready. -/
theorem replica_wg_balanced (h : Reachable s) (k : Nat) :
    s.attached.count k = s.released.count k + s.calls.countP (fun pc => pc.holding = some k) ∧
      (k ∈ s.attached → k ∈ s.ready) :=
  ⟨h.valid.holders k, h.valid.ready k⟩

theorem replica_wg_balanced_attached :
    Reachable runAttached ∧
      runAttached.attached.count 0 =
        runAttached.released.count 0 + runAttached.calls.countP (fun pc => pc.holding = some 0) ∧
      (0 ∈ runAttached.attached → 0 ∈ runAttached.ready) :=
  ⟨runAttached_reachable, replica_wg_balanced runAttached_reachable 0⟩

/-! ### After the stop -/

theorem replica_set_of {l : List ResolvePc} {j : Nat} {x y : ResolvePc} (hj : l[j]? = some x)
    (hy : ∀ p, y.replica = some p → x.replica = some p) (i : Nat) (p : ShardID × Nat) :
    ((l.set j y)[i]?).bind ResolvePc.replica = some p →
      (l[i]?).bind ResolvePc.replica = some p := by
  rw [getElem?_set_of hj]
  by_cases hji : j = i
  · subst hji
    rw [if_pos rfl, hj]
    exact hy p
  · rw [if_neg hji]
    exact id

theorem bodyNext_replica_of_stopped (hstop : s.resolver.replicas = none) (args : ResolveArgs)
    (localID : Option ProcessSpecID) : (s.bodyNext args localID).replica = none := by
  rcases bodyNext_cases s args localID with ⟨-, heq⟩ | ⟨e, heq⟩ | ⟨_, -, -, heq⟩ <;> rw [heq]
  · rcases resolveLocked_next s.ks (localID.getD s.ks.localID) s.resolver.replicas args with
      h | ⟨res, err, -, hshard, h⟩ | ⟨m, -, -, hm, -⟩
    · rw [h]; rfl
    · rw [h]; cases err <;> simp [ResolvePc.replica, hshard]
    · simp [hstop] at hm
  · rfl
  · rfl

theorem Step.of_stopped (hs : Step s s') (hstop : s.resolver.replicas = none) :
    s'.resolver.replicas = none ∧
      ∀ (i : Nat) p, (s'.calls[i]?).bind ResolvePc.replica = some p →
        (s.calls[i]?).bind ResolvePc.replica = some p := by
  cases hs with
  | update => exact ⟨by simp [Resolver.updateResolutions_of_none hstop, hstop], fun _ _ => id⟩
  | stop => exact ⟨by simp [Resolver.stopServingLocalReplicas_eq], fun _ _ => id⟩
  | tornDown | storeReady => exact ⟨hstop, fun _ _ => id⟩
  | call args =>
    refine ⟨hstop, fun i p hp => ?_⟩
    by_cases hi : i < s.calls.length
    · rwa [List.getElem?_append_left hi] at hp
    · rw [List.getElem?_append_right (not_lt.mp hi)] at hp
      rcases hk : i - s.calls.length with _ | n <;> simp [hk, ResolvePc.replica] at hp
  | body _ hj =>
    refine ⟨hstop, replica_set_of hj fun p hp => ?_⟩
    rw [bodyNext_replica_of_stopped hstop] at hp
    cases hp
  | storeAttached _ hj | storeNotReady _ hj | done _ hj =>
    exact ⟨hstop, replica_set_of hj fun _ => id⟩
  | rlock _ hj | waitCanceled _ hj | revisionReached _ hj | revisionBehind _ hj | relock _ hj
  | callCanceled _ hj | replicaCanceled _ hj =>
    exact ⟨hstop, replica_set_of hj fun _ hp => nomatch hp⟩

theorem ReflTransGen.of_stopped (hstop : s.resolver.replicas = none)
    (hrun : Relation.ReflTransGen Step s s') :
    s'.resolver.replicas = none ∧
      ∀ (i : Nat) p, (s'.calls[i]?).bind ResolvePc.replica = some p →
        (s.calls[i]?).bind ResolvePc.replica = some p := by
  induction hrun with
  | refl => exact ⟨hstop, fun _ _ => id⟩
  | tail _ hs ih =>
    obtain ⟨hn, hcalls⟩ := ih
    obtain ⟨hn', hcalls'⟩ := hs.of_stopped hn
    exact ⟨hn', fun i p hp => hcalls i p (hcalls' i p hp)⟩

theorem bodyNext_of_stopped (hstop : s.resolver.replicas = none) {args : ResolveArgs}
    {localID : Option ProcessSpecID} {res : Resolution}
    (hres : s.ks.resolve (localID.getD s.ks.localID) args = some res) (hok : res.status = .ok)
    (hloc : res.header.processId = localID.getD s.ks.localID) :
    s.bodyNext args localID = .returned args res (some .stopped) ∨
      (∃ e, s.bodyNext args localID = .returned args .zero (some e)) ∨
      ∃ hdr, args.proxyHeader = some hdr ∧
        s.bodyNext args localID = .relocked args s.ks.localID hdr.etcd.revision := by
  rcases bodyNext_cases s args localID with ⟨-, heq⟩ | he | ⟨hdr, hh, -, heq⟩
  · rw [heq, hstop, resolveLocked_of_stopped hres hok hloc]
    exact .inl rfl
  · exact .inr (.inl he)
  · exact .inr (.inr ⟨hdr, hh, heq⟩)

end Serving

end Gazette.Consumer
