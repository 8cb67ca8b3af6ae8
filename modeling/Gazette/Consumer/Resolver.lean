import Mathlib.Data.List.AList

/-! The consumer's `Resolver` as it keeps the set of local shard replicas:
`updateResolutions`, which the key space calls under its lock on every change of
`LocalItems`, `stopServingLocalReplicas`, `cancelReplicas`, and the asynchronous tear-down
that each cancelled replica runs before it calls `r.wg.Done()`.

A replica is named by its index in the order `newReplica` built them. `Replica`,
`transition` and `waitAndTearDown` are outside the excerpt: the calls the resolver makes on a
replica are kept as logs, newest first, and a tear-down is an event of its own that may
complete at any later time. Of a local item the resolver reads the shard ID; the spec and
assignment it reads go only to `transition`, so they are left out. -/

namespace Gazette.Consumer

open scoped List

/-- A shard ID, `pc.ShardID`. -/
abbrev ShardID := String

/-- A map of shard IDs to replicas, `map[pc.ShardID]*Replica`. -/
abbrev ReplicaMap := AList fun _ : ShardID => Nat

def ReplicaMap.values (m : ReplicaMap) : List Nat := m.entries.map Sigma.snd

@[simp] theorem ReplicaMap.values_empty : (∅ : ReplicaMap).values = [] := rfl

theorem ReplicaMap.values_insert {m : ReplicaMap} {id : ShardID} (h : id ∉ m) (k : Nat) :
    ReplicaMap.values (m.insert id k) = k :: m.values := by
  simp only [values, AList.insert_entries_of_neg h, List.map_cons]

theorem ReplicaMap.values_erase {m : ReplicaMap} {id : ShardID} {k : Nat}
    (h : m.lookup id = some k) : m.values ~ k :: ReplicaMap.values (m.erase id) := by
  obtain ⟨b, l₁, l₂, -, hm, he⟩ :=
    List.exists_of_kerase (List.mem_keys_of_mem (AList.mem_lookup_iff.mp h))
  have hb : m.lookup id = some b := AList.mem_lookup_iff.mpr (by rw [hm]; simp)
  rw [h, Option.some.injEq] at hb
  subst hb
  show m.entries.map Sigma.snd ~ k :: (m.entries.kerase id).map Sigma.snd
  rw [he, hm]
  simp

/-- The fields of a `Resolver` that keeping the replicas reads and writes: `created` counts
`newReplica`, `wg` is the counter of `r.wg`, and the lists record each `replica.cancel()`, each
`go replica.waitAndTearDown(r.wg.Done)`, each completed tear-down and each `transition`. -/
structure Resolver where
  /-- `r.replicas`, nil once `stopServingLocalReplicas` has run. -/
  replicas : Option ReplicaMap
  created : Nat
  wg : Int
  cancels : List Nat
  tearDowns : List Nat
  tornDown : List Nat
  transitions : List (ShardID × Nat)

/-- `NewResolver`: an empty map of replicas, and no replica built. -/
def newResolver : Resolver := ⟨some ∅, 0, 0, [], [], [], []⟩

def Resolver.live (r : Resolver) : List Nat := (r.replicas.map ReplicaMap.values).getD []

/-! ### cancelReplicas -/

/-- `replica.cancel()` and `go replica.waitAndTearDown(r.wg.Done)`. -/
def Resolver.cancel (r : Resolver) (replica : Nat) : Resolver :=
  { r with cancels := replica :: r.cancels, tearDowns := replica :: r.tearDowns }

/-- `cancelReplicas`, in the order of the map's entries; nothing proved depends on it. -/
def Resolver.cancelReplicas (r : Resolver) (m : ReplicaMap) : Resolver :=
  m.values.foldl Resolver.cancel r

theorem Resolver.foldl_cancel (r : Resolver) (ks : List Nat) :
    ks.foldl Resolver.cancel r =
      { r with cancels := ks.reverse ++ r.cancels, tearDowns := ks.reverse ++ r.tearDowns } := by
  induction ks generalizing r with
  | nil => rfl
  | cons k ks ih => simp [ih, Resolver.cancel]

theorem Resolver.cancelReplicas_eq (r : Resolver) (m : ReplicaMap) :
    r.cancelReplicas m =
      { r with cancels := m.values.reverse ++ r.cancels,
               tearDowns := m.values.reverse ++ r.tearDowns } :=
  r.foldl_cancel m.values

/-! ### updateResolutions -/

/-- The variables of the loop of `updateResolutions`. -/
structure Loop where
  replicas : ReplicaMap
  next : ReplicaMap
  created : Nat
  wg : Int
  transitions : List (ShardID × Nat)

/-- One pass of the loop: the shard's replica moves to `next`, or a new one is built; then it is
transitioned. -/
def Loop.item (l : Loop) (id : ShardID) : Loop :=
  match l.replicas.lookup id with
  | none =>
    { l with next := l.next.insert id l.created, created := l.created + 1, wg := l.wg + 1,
             transitions := (id, l.created) :: l.transitions }
  | some replica =>
    { l with replicas := l.replicas.erase id, next := l.next.insert id replica,
             transitions := (id, replica) :: l.transitions }

/-- `updateResolutions`, over the shard IDs of `r.state.LocalItems` in order. -/
def Resolver.updateResolutions (r : Resolver) (localItems : List ShardID) : Resolver :=
  match r.replicas with
  | none => r
  | some replicas =>
    let l := localItems.foldl Loop.item ⟨replicas, ∅, r.created, r.wg, r.transitions⟩
    Resolver.cancelReplicas
      { r with replicas := some l.next, created := l.created, wg := l.wg,
               transitions := l.transitions } l.replicas

theorem Resolver.updateResolutions_of_none {r : Resolver} (h : r.replicas = none)
    (localItems : List ShardID) : r.updateResolutions localItems = r := by
  simp [updateResolutions, h]

theorem Resolver.updateResolutions_of_some {r : Resolver} {m : ReplicaMap}
    {localItems : List ShardID} {l : Loop} (h : r.replicas = some m)
    (hl : localItems.foldl Loop.item ⟨m, ∅, r.created, r.wg, r.transitions⟩ = l) :
    r.updateResolutions localItems =
      { r with replicas := some l.next, created := l.created, wg := l.wg,
               transitions := l.transitions, cancels := l.replicas.values.reverse ++ r.cancels,
               tearDowns := l.replicas.values.reverse ++ r.tearDowns } := by
  simp [updateResolutions, h, hl, cancelReplicas_eq]

/-- `stopServingLocalReplicas`. Ranging over a nil map does nothing. -/
def Resolver.stopServingLocalReplicas (r : Resolver) : Resolver :=
  { r.cancelReplicas (r.replicas.getD ∅) with replicas := none }

theorem Resolver.stopServingLocalReplicas_eq (r : Resolver) :
    r.stopServingLocalReplicas =
      { r with replicas := none, cancels := r.live.reverse ++ r.cancels,
               tearDowns := r.live.reverse ++ r.tearDowns } := by
  cases h : r.replicas <;> simp [stopServingLocalReplicas, cancelReplicas_eq, live, h]

/-- A tear-down of `replica` completes and calls `r.wg.Done()`. -/
def Resolver.tearDownDone (r : Resolver) (replica : Nat) : Resolver :=
  { r with wg := r.wg - 1, tornDown := replica :: r.tornDown }

/-! ### Runs -/

/-- What can happen to a resolver. -/
inductive Event where
  | update (localItems : List ShardID)
  | stop
  | tornDown (replica : Nat)
  deriving DecidableEq, Repr

def Resolver.apply (r : Resolver) : Event → Option Resolver
  | .update localItems => some (r.updateResolutions localItems)
  | .stop => some r.stopServingLocalReplicas
  | .tornDown replica =>
    if r.tornDown.count replica < r.tearDowns.count replica then some (r.tearDownDone replica)
    else none

/-- The events in order, `none` if a tear-down completes that is not running. -/
def Resolver.run (r : Resolver) : List Event → Option Resolver
  | [] => some r
  | e :: evs => (r.apply e).bind fun r' => r'.run evs

@[simp] theorem Resolver.run_nil (r : Resolver) : r.run [] = some r := rfl

theorem Resolver.run_cons {r r' : Resolver} {e : Event} {evs : List Event}
    (h : r.run (e :: evs) = some r') : ∃ r₁, r.apply e = some r₁ ∧ r₁.run evs = some r' :=
  Option.bind_eq_some.mp h

def Event.localItems (ids : List ShardID) : Event → List ShardID
  | .update localItems => localItems
  | _ => ids

/-- The shard IDs of the most recent `LocalItems` at the end of a run. -/
def lastLocalItems (evs : List Event) : List ShardID := evs.foldl Event.localItems []

def Event.Distinct : Event → Prop
  | .update localItems => localItems.Nodup
  | _ => True

instance : DecidablePred Event.Distinct
  | .update localItems => inferInstanceAs (Decidable localItems.Nodup)
  | .stop | .tornDown _ => isTrue trivial

end Gazette.Consumer
