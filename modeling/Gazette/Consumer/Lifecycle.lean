import Gazette.Consumer.Resolver

/-! What holds of the resolver over every run from `NewResolver`, in any order of updates,
stops and tear-downs, provided each `LocalItems` has distinct shard IDs, as the allocator's
have. Every replica ever built is accounted for exactly once: in `r.replicas`, or cancelled
with its tear-down started; `r.wg` counts those whose tear-down has not completed;
`r.replicas` holds the shards of the most recent `LocalItems` and keeps a shard's replica
while the shard stays assigned; and once stopped, the resolver builds no replica. -/

namespace Gazette.Consumer

open scoped List

/-! ### The loop of updateResolutions -/

namespace Loop

variable {l : Loop} {id j : ShardID} {ids : List ShardID}

theorem item_cases (l : Loop) (id : ShardID) :
    (l.replicas.lookup id = none ∧ l.item id =
      { l with next := l.next.insert id l.created, created := l.created + 1, wg := l.wg + 1,
               transitions := (id, l.created) :: l.transitions }) ∨
    (∃ k, l.replicas.lookup id = some k ∧ l.item id =
      { l with replicas := l.replicas.erase id, next := l.next.insert id k,
               transitions := (id, k) :: l.transitions }) := by
  unfold item
  cases l.replicas.lookup id with
  | none => exact .inl ⟨rfl, rfl⟩
  | some k => exact .inr ⟨k, rfl, rfl⟩

theorem item_next (l : Loop) (id : ShardID) :
    (l.item id).next = l.next.insert id ((l.replicas.lookup id).getD l.created) := by
  rcases l.item_cases id with ⟨h, he⟩ | ⟨k, h, he⟩ <;> simp [he, h]

theorem lookup_item_ne (h : j ≠ id) :
    (l.item id).next.lookup j = l.next.lookup j ∧
      (l.item id).replicas.lookup j = l.replicas.lookup j := by
  rcases l.item_cases id with ⟨-, he⟩ | ⟨k, -, he⟩ <;>
    simp [he, AList.lookup_insert_ne h, AList.lookup_erase_ne h]

/-- The shards of `ids` are distinct, and none is in `next` yet. -/
def Fresh (l : Loop) (ids : List ShardID) : Prop := ids.Nodup ∧ ∀ id ∈ ids, id ∉ l.next

theorem Fresh.item (h : l.Fresh (id :: ids)) : (l.item id).Fresh ids := by
  obtain ⟨hnd, hn⟩ := h
  rw [List.nodup_cons] at hnd
  refine ⟨hnd.2, fun j hj hjn => ?_⟩
  rw [item_next, AList.mem_insert] at hjn
  rcases hjn with rfl | hjn
  · exact hnd.1 hj
  · exact hn j (List.mem_cons_of_mem _ hj) hjn

theorem foldl_next_keys (h : l.Fresh ids) :
    (ids.foldl item l).next.keys = ids.reverse ++ l.next.keys := by
  induction ids generalizing l with
  | nil => rfl
  | cons id ids ih =>
    have hid : id ∉ l.next.keys := fun h' =>
      h.2 id (List.mem_cons_self _ _) (AList.mem_keys.mpr h')
    rw [List.foldl_cons, ih h.item, item_next, AList.keys_insert, List.erase_of_not_mem hid]
    simp

theorem foldl_wg (l : Loop) (ids : List ShardID) :
    (ids.foldl item l).wg - (ids.foldl item l).created = l.wg - l.created := by
  induction ids generalizing l with
  | nil => rfl
  | cons id ids ih =>
    rw [List.foldl_cons, ih]
    rcases l.item_cases id with ⟨-, he⟩ | ⟨k, -, he⟩
    · simp only [he]
      omega
    · simp only [he]

/-- Every replica built so far is left in `r.replicas`, moved to `next`, or cancelled, once. -/
def Accounted (cancels : List Nat) (l : Loop) : Prop :=
  l.replicas.values ++ l.next.values ++ cancels ~ List.range l.created

theorem Accounted.item {cs : List Nat} (h : l.Accounted cs) (hid : id ∉ l.next) :
    (l.item id).Accounted cs := by
  rcases l.item_cases id with ⟨-, he⟩ | ⟨k, hk, he⟩ <;> rw [Accounted, he] <;> dsimp only
  · rw [ReplicaMap.values_insert hid, List.range_succ]
    calc _ ~ l.created :: (l.replicas.values ++ l.next.values ++ cs) := by simp
      _ ~ l.created :: List.range l.created := h.cons _
      _ ~ List.range l.created ++ [l.created] := (List.perm_append_singleton _ _).symm
  · rw [ReplicaMap.values_insert hid]
    calc _ ~ k :: (ReplicaMap.values (l.replicas.erase id) ++ l.next.values ++ cs) := by simp
      _ ~ l.replicas.values ++ l.next.values ++ cs :=
        (((ReplicaMap.values_erase hk).append_right _).append_right _).symm
      _ ~ List.range l.created := h

theorem Accounted.foldl {cs : List Nat} (h : l.Accounted cs) (hf : l.Fresh ids) :
    (ids.foldl Loop.item l).Accounted cs := by
  induction ids generalizing l with
  | nil => exact h
  | cons id ids ih => exact ih (h.item (hf.2 id (List.mem_cons_self _ _))) hf.item

theorem foldl_lookup_of_not_mem (hj : j ∉ ids) :
    (ids.foldl item l).next.lookup j = l.next.lookup j ∧
      (ids.foldl item l).replicas.lookup j = l.replicas.lookup j := by
  induction ids generalizing l with
  | nil => exact ⟨rfl, rfl⟩
  | cons id ids ih =>
    rw [List.mem_cons, not_or] at hj
    exact ⟨(ih hj.2).1.trans (lookup_item_ne hj.1).1, (ih hj.2).2.trans (lookup_item_ne hj.1).2⟩

theorem foldl_lookup_kept (hf : l.Fresh ids) (hj : j ∈ ids) {k : Nat}
    (hk : l.replicas.lookup j = some k) : (ids.foldl item l).next.lookup j = some k := by
  induction ids generalizing l with
  | nil => cases hj
  | cons id ids ih =>
    have hnd := List.nodup_cons.mp hf.1
    rcases List.mem_cons.mp hj with rfl | hj
    · rw [List.foldl_cons, (foldl_lookup_of_not_mem hnd.1).1, item_next, hk]
      exact AList.lookup_insert _
    · have hne : j ≠ id := fun h => hnd.1 (h ▸ hj)
      exact ih hf.item hj ((lookup_item_ne hne).2.trans hk)

end Loop

/-! ### The invariant of a run -/

namespace Resolver

variable {r r' : Resolver} {ids localItems : List ShardID}

/-- What holds of the resolver between two events, `ids` being the most recent `LocalItems`. -/
structure Valid (r : Resolver) (ids : List ShardID) : Prop where
  keys : ∀ m, r.replicas = some m → m.keys ~ ids
  accounted : r.live ++ r.cancels ~ List.range r.created
  tearDowns : r.tearDowns = r.cancels
  tornDown : r.tornDown <+~ r.tearDowns
  wg : r.wg = r.created - r.tornDown.length

theorem valid_newResolver : newResolver.Valid [] :=
  ⟨fun _ h => by cases h; rfl, .refl _, rfl, .refl _, rfl⟩

theorem Valid.updateResolutions (h : r.Valid ids) (hd : localItems.Nodup) :
    (r.updateResolutions localItems).Valid localItems := by
  cases hr : r.replicas with
  | none =>
    rw [updateResolutions_of_none hr]
    exact { h with keys := fun _ hm => by simp [hr] at hm }
  | some m =>
    have hf : Loop.Fresh ⟨m, ∅, r.created, r.wg, r.transitions⟩ localItems :=
      ⟨hd, fun _ _ => AList.not_mem_empty _⟩
    have hacc : (localItems.foldl Loop.item ⟨m, ∅, r.created, r.wg, r.transitions⟩).Accounted
        r.cancels :=
      Loop.Accounted.foldl (by simpa [Loop.Accounted, live, hr] using h.accounted) hf
    have hkeys := Loop.foldl_next_keys hf
    have hwg := Loop.foldl_wg ⟨m, ∅, r.created, r.wg, r.transitions⟩ localItems
    rw [updateResolutions_of_some hr rfl]
    generalize localItems.foldl Loop.item ⟨m, ∅, r.created, r.wg, r.transitions⟩ = l
      at hacc hkeys hwg ⊢
    refine ⟨fun _ hm => ?_, ?_, by simp [h.tearDowns],
      h.tornDown.trans (List.sublist_append_right _ _).subperm, ?_⟩
    · cases hm
      simp [hkeys]
    · calc l.next.values ++ (l.replicas.values.reverse ++ r.cancels)
          ~ l.next.values ++ (l.replicas.values ++ r.cancels) :=
            ((List.reverse_perm _).append_right _).append_left _
        _ ~ l.replicas.values ++ l.next.values ++ r.cancels := by
            simpa only [List.append_assoc] using List.perm_append_comm.append_right r.cancels
        _ ~ List.range l.created := hacc
    · have := h.wg
      dsimp only at hwg ⊢
      omega

theorem Valid.stopServingLocalReplicas (h : r.Valid ids) :
    r.stopServingLocalReplicas.Valid ids := by
  rw [stopServingLocalReplicas_eq]
  refine ⟨fun _ hm => (by cases hm), ?_, by simp [h.tearDowns],
    h.tornDown.trans (List.sublist_append_right _ _).subperm, h.wg⟩
  calc _ = r.live.reverse ++ r.cancels := by simp [live]
    _ ~ r.live ++ r.cancels := (List.reverse_perm _).append_right _
    _ ~ _ := h.accounted

theorem Valid.tearDownDone (h : r.Valid ids) {k : Nat}
    (hk : r.tornDown.count k < r.tearDowns.count k) : (r.tearDownDone k).Valid ids :=
  ⟨h.keys, h.accounted, h.tearDowns, h.tornDown.cons_left k hk,
    by simp only [Resolver.tearDownDone, List.length_cons, h.wg]; omega⟩

theorem Valid.apply (h : r.Valid ids) {e : Event} (hd : e.Distinct) (he : r.apply e = some r') :
    r'.Valid (e.localItems ids) := by
  cases e with
  | update localItems => cases he; exact h.updateResolutions hd
  | stop => cases he; exact h.stopServingLocalReplicas
  | tornDown k =>
    simp only [Resolver.apply] at he
    split at he
    · cases he; exact h.tearDownDone ‹_›
    · cases he

/-- The invariant holds after every run whose `LocalItems` have distinct shard IDs. -/
theorem Valid.run (h : r.Valid ids) {evs : List Event} (hd : ∀ e ∈ evs, e.Distinct)
    (he : r.run evs = some r') : r'.Valid (evs.foldl Event.localItems ids) := by
  induction evs generalizing r ids with
  | nil => cases he; exact h
  | cons e evs ih =>
    obtain ⟨r₁, h₁, h₂⟩ := run_cons he
    exact ih (h.apply (hd e (List.mem_cons_self _ _)) h₁)
      (fun e' he' => hd e' (List.mem_cons_of_mem _ he')) h₂

/-! ### What the invariant gives -/

theorem Valid.built (h : r.Valid ids) {k : Nat} (hk : k < r.created) :
    (k ∈ r.live ∧ k ∉ r.cancels ∧ k ∉ r.tearDowns) ∨
      (k ∉ r.live ∧ r.cancels.count k = 1 ∧ r.tearDowns.count k = 1) := by
  have hnd := List.nodup_append.mp (h.accounted.nodup_iff.mpr (List.nodup_range _))
  rw [h.tearDowns]
  rcases List.mem_append.mp (h.accounted.mem_iff.mpr (List.mem_range.mpr hk)) with hl | hc
  · exact .inl ⟨hl, hnd.2.2 hl, hnd.2.2 hl⟩
  · have hone := List.count_eq_one_of_mem hnd.2.1 hc
    exact .inr ⟨fun hl => hnd.2.2 hl hc, hone, hone⟩

theorem Valid.tornDown_length_le (h : r.Valid ids) :
    r.tornDown.length + r.live.length ≤ r.created := by
  have hlen : r.live.length + r.cancels.length = r.created := by
    simpa using h.accounted.length_eq
  have hsub : r.tornDown.length ≤ r.cancels.length := h.tearDowns ▸ h.tornDown.length_le
  omega

theorem Valid.tornDown_of_wg (h : r.Valid ids) (h0 : r.wg = 0) {k : Nat} (hk : k < r.created) :
    k ∈ r.tornDown := by
  have hle := h.tornDown_length_le
  have hwg := h.wg
  have hlive : r.live = [] := List.length_eq_zero.mp (by omega)
  have hstarted : r.tearDowns ~ List.range r.created := by
    simpa [hlive, h.tearDowns] using h.accounted
  have hall : r.tornDown ~ r.tearDowns :=
    h.tornDown.perm_of_length_le (by rw [hstarted.length_eq, List.length_range]; omega)
  exact hall.mem_iff.mpr (hstarted.mem_iff.mpr (List.mem_range.mpr hk))

theorem updateResolutions_kept {m : ReplicaMap} (hr : r.replicas = some m)
    (hd : localItems.Nodup) {id : ShardID} (hid : id ∈ localItems) {k : Nat}
    (hk : m.lookup id = some k) :
    ∃ m', (r.updateResolutions localItems).replicas = some m' ∧ m'.lookup id = some k :=
  ⟨_, by rw [updateResolutions_of_some hr rfl],
    Loop.foldl_lookup_kept ⟨hd, fun _ _ => AList.not_mem_empty _⟩ hid hk⟩

theorem apply_of_stopped (h : r.replicas = none) {e : Event} (he : r.apply e = some r') :
    r'.replicas = none ∧ r'.created = r.created := by
  cases e with
  | update localItems => cases he; rw [updateResolutions_of_none h]; exact ⟨h, rfl⟩
  | stop => cases he; simp [stopServingLocalReplicas_eq]
  | tornDown k =>
    simp only [Resolver.apply] at he
    split at he
    · cases he; exact ⟨h, rfl⟩
    · cases he

theorem run_of_stopped (h : r.replicas = none) {evs : List Event} (he : r.run evs = some r') :
    r'.replicas = none ∧ r'.created = r.created := by
  induction evs generalizing r with
  | nil => cases he; exact ⟨h, rfl⟩
  | cons e evs ih =>
    obtain ⟨r₁, h₁, h₂⟩ := run_cons he
    obtain ⟨h₁n, h₁c⟩ := apply_of_stopped h h₁
    exact (ih h₁n h₂).imp_right (·.trans h₁c)

end Resolver

/-! ### Runs from NewResolver -/

open Resolver in
/-- Over any run from `NewResolver`: `r.replicas` has the shards of the latest `LocalItems`,
keeps the replica of a shard that stays, every replica built is live or cancelled once,
`r.wg` counts those not torn down, and a stop is final. -/
theorem replicas_lifecycle {evs : List Event} (hd : ∀ e ∈ evs, e.Distinct) {r : Resolver}
    (hr : newResolver.run evs = some r) :
    (∀ m, r.replicas = some m → m.keys ~ lastLocalItems evs) ∧
    (∀ m, r.replicas = some m → ∀ localItems : List ShardID, localItems.Nodup →
      ∀ id ∈ localItems, id ∈ lastLocalItems evs →
        ∃ k m', m.lookup id = some k ∧ (r.updateResolutions localItems).replicas = some m' ∧
          m'.lookup id = some k) ∧
    (∀ k < r.created, (k ∈ r.live ∧ k ∉ r.cancels ∧ k ∉ r.tearDowns) ∨
      (k ∉ r.live ∧ r.cancels.count k = 1 ∧ r.tearDowns.count k = 1)) ∧
    r.wg = r.created - r.tornDown.length ∧
    (r.wg = 0 → ∀ k < r.created, k ∈ r.tornDown) ∧
    (∀ evs' r', r.run (.stop :: evs') = some r' →
      r'.replicas = none ∧ r'.created = r.created) := by
  have h := valid_newResolver.run hd hr
  refine ⟨h.keys, fun m hm localItems hnd id hid hlast => ?_, fun _ => h.built, h.wg,
    fun h0 _ => h.tornDown_of_wg h0, fun evs' r' he => ?_⟩
  · obtain ⟨k, hk⟩ := Option.isSome_iff_exists.mp
      (AList.lookup_isSome.mpr (AList.mem_keys.mpr ((h.keys m hm).mem_iff.mpr hlast)))
    obtain ⟨m', hm', hk'⟩ := updateResolutions_kept hm hnd hid hk
    exact ⟨k, m', hk, hm', hk'⟩
  · obtain ⟨r₁, h₁, h₂⟩ := run_cons he
    cases h₁
    simpa [stopServingLocalReplicas_eq] using
      run_of_stopped (by simp [stopServingLocalReplicas_eq]) h₂

theorem replicas_lifecycle_two_updates :
    (∀ e ∈ [Event.update ["a", "b"], .update ["b", "c"], .tornDown 0], e.Distinct) ∧
    ∃ r, newResolver.run [.update ["a", "b"], .update ["b", "c"], .tornDown 0] = some r ∧
    (∀ m, r.replicas = some m →
      m.keys ~ lastLocalItems [.update ["a", "b"], .update ["b", "c"], .tornDown 0]) ∧
    (∀ m, r.replicas = some m → ∀ localItems : List ShardID, localItems.Nodup →
      ∀ id ∈ localItems,
        id ∈ lastLocalItems [.update ["a", "b"], .update ["b", "c"], .tornDown 0] →
        ∃ k m', m.lookup id = some k ∧ (r.updateResolutions localItems).replicas = some m' ∧
          m'.lookup id = some k) ∧
    (∀ k < r.created, (k ∈ r.live ∧ k ∉ r.cancels ∧ k ∉ r.tearDowns) ∨
      (k ∉ r.live ∧ r.cancels.count k = 1 ∧ r.tearDowns.count k = 1)) ∧
    r.wg = r.created - r.tornDown.length ∧
    (r.wg = 0 → ∀ k < r.created, k ∈ r.tornDown) ∧
    (∀ evs' r', r.run (.stop :: evs') = some r' →
      r'.replicas = none ∧ r'.created = r.created) :=
  ⟨by decide, _, rfl, replicas_lifecycle (by decide) rfl⟩

end Gazette.Consumer
