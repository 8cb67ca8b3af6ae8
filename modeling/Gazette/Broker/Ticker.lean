import Gazette.Broker.StreamSelect

/-! The deadline of the stream loop of `appendFSM.run`: `ticker` ticks every
`appendChunkTimeout`, and two ticks with no chunk between them abort the append.

Time is added over the selections: each is paired with the time it became ready, a tick
with the time the ticker fired it. Taken in that order, either way for two ready together,
and with every tick of a ticker firing every `T`, gaps between chunks shorter than `T` never
time out, and a gap longer than `2T` always does (`tickLoop_deadline`). The runtime takes
them so only while `onStreamContent` does not block: `Clock` adds the one slot of
`ticker.C` and the time `onStreamContent` blocks, and `tickLoop_blocked_timing` gives runs
where either bound fails. -/

namespace Gazette.Broker

variable {σ : Type} (C : Collaborators σ)

/-! ### Selections in time -/

def tickTimes (tr : List (Nat × Selected)) : List Nat :=
  (tr.filter fun e => !e.2.isChunk).map Prod.fst

def chunkTimes (tr : List (Nat × Selected)) : List Nat :=
  (tr.filter fun e => e.2.isChunk).map Prod.fst

/-- The selections were taken in the order they became ready. -/
def InTimeOrder (tr : List (Nat × Selected)) : Prop := tr.Pairwise fun e e' => e.1 ≤ e'.1

/-- Every tick of `time.NewTicker(T)` was taken: at `T`, `2T`, ..., none missing. -/
def TicksEvery (T : Nat) (tr : List (Nat × Selected)) : Prop :=
  List.Chain (fun t t' => t' = t + T) 0 (tickTimes tr) ∧
    ∀ e ∈ tr, e.1 ≤ (tickTimes tr).getLastD 0 + T

/-- Each chunk comes less than `T` after the one before, or after the loop began. -/
def GapsBelow (T : Nat) (tr : List (Nat × Selected)) : Prop :=
  List.Chain (fun t t' => t' < t + T) 0 (chunkTimes tr)

def lastChunkTime (tr : List (Nat × Selected)) : Nat := (chunkTimes tr).getLastD 0

theorem chain_cross {T lo : Nat} {l : List Nat} :
    ∀ {a : Nat}, List.Chain (fun t t' => t' < t + T) a l → a ≤ lo → (∃ t ∈ l, lo + T ≤ t) →
      ∃ t ∈ l, lo < t ∧ t < lo + T := by
  induction l with
  | nil => simp
  | cons b l ih =>
    intro a h ha hex
    rw [List.chain_cons] at h
    by_cases hb : lo < b
    · exact ⟨b, List.mem_cons_self _ _, hb, by omega⟩
    · obtain ⟨t, ht, hle⟩ := hex
      rcases List.mem_cons.mp ht with rfl | ht
      · omega
      · obtain ⟨t', ht', h'⟩ := ih h.2 (by omega) ⟨t, ht, hle⟩
        exact ⟨t', List.mem_cons_of_mem _ ht', h'⟩

theorem chain_getLastD {R : Nat → Nat → Prop} {b : Nat} {l₂ : List Nat} :
    ∀ {a : Nat} {l₁ : List Nat}, List.Chain R a (l₁ ++ b :: l₂) → R (l₁.getLastD a) b
  | _, [], h => (List.chain_cons.mp h).1
  | _, x :: l₁, h => by
    rw [List.cons_append, List.chain_cons] at h
    rw [List.getLastD_cons]
    exact chain_getLastD h.2

theorem chain_add_mem {T : Nat} : ∀ {a : Nat} {l : List Nat},
    List.Chain (fun t t' => t' = t + T) a l →
      l.getLastD a = a + l.length * T ∧ ∀ j < l.length, a + (j + 1) * T ∈ l
  | _, [], _ => by simp
  | a, b :: l, h => by
    rw [List.chain_cons] at h
    obtain ⟨rfl, h⟩ := h
    obtain ⟨hlast, hmem⟩ := chain_add_mem h
    refine ⟨by rw [List.getLastD_cons, hlast, List.length_cons, Nat.add_mul, Nat.one_mul]; omega,
      fun j hj => ?_⟩
    cases j with
    | zero => simp
    | succ j =>
      have hj' := hmem j (by simpa using hj)
      have : a + T + (j + 1) * T = a + (j + 1 + 1) * T := by
        simp only [Nat.add_mul, Nat.one_mul]; omega
      exact List.mem_cons_of_mem _ (this ▸ hj')

@[simp] theorem tickTimes_append (tr tr' : List (Nat × Selected)) :
    tickTimes (tr ++ tr') = tickTimes tr ++ tickTimes tr' := by
  simp [tickTimes]

@[simp] theorem chunkTimes_append (tr tr' : List (Nat × Selected)) :
    chunkTimes (tr ++ tr') = chunkTimes tr ++ chunkTimes tr' := by
  simp [chunkTimes]

theorem mem_tickTimes {tr : List (Nat × Selected)} {t : Nat} :
    t ∈ tickTimes tr ↔ ∃ s, (t, s) ∈ tr ∧ s.isChunk = false := by
  simp [tickTimes]

theorem mem_chunkTimes {tr : List (Nat × Selected)} {t : Nat} :
    t ∈ chunkTimes tr ↔ ∃ s, (t, s) ∈ tr ∧ s.isChunk = true := by
  simp [chunkTimes]

theorem InTimeOrder.split {A B : List (Nat × Selected)} {x : Nat × Selected}
    (h : InTimeOrder (A ++ x :: B)) : (∀ e ∈ A, e.1 ≤ x.1) ∧ ∀ e ∈ B, x.1 ≤ e.1 := by
  rw [InTimeOrder, List.pairwise_append, List.pairwise_cons] at h
  exact ⟨fun e he => h.2.2 e he x (List.mem_cons_self _ _), h.2.1.1⟩

theorem InTimeOrder.left {A B : List (Nat × Selected)} (h : InTimeOrder (A ++ B)) :
    InTimeOrder A :=
  (List.pairwise_append.mp h).1

theorem InTimeOrder.le_lastChunkTime {tr : List (Nat × Selected)} {e : Nat × Selected}
    (h : InTimeOrder tr) (he : e ∈ tr) (hc : e.2.isChunk = true) : e.1 ≤ lastChunkTime tr := by
  have hs : (chunkTimes tr).Pairwise (· ≤ ·) := by
    rw [chunkTimes, List.pairwise_map]
    exact h.filter _
  have hmem : e.1 ∈ chunkTimes tr := mem_chunkTimes.mpr ⟨e.2, he, hc⟩
  rw [lastChunkTime]
  rcases List.eq_nil_or_concat (chunkTimes tr) with h0 | ⟨l, x, hl⟩
  · simp [h0] at hmem
  · rw [hl, List.concat_eq_append] at hmem hs ⊢
    rw [List.getLastD_eq_getLast?, List.getLast?_concat, Option.getD_some]
    rcases List.mem_append.mp hmem with hm | hm
    · exact (List.pairwise_append.mp hs).2.2 _ hm x (List.mem_singleton_self _)
    · rw [List.mem_singleton.mp hm]

theorem chunks_le_of_noChunkSinceTick {A : List (Nat × Selected)} (hord : InTimeOrder A)
    (hn : NoChunkSinceTick (A.map Prod.snd)) :
    ∀ e ∈ A, e.2.isChunk = true → e.1 ≤ (tickTimes A).getLastD 0 := by
  rw [noChunkSinceTick_iff] at hn
  rcases List.eq_nil_or_concat A with rfl | ⟨A, x, rfl⟩
  · simp
  · rw [List.concat_eq_append] at hord hn ⊢
    rw [List.map_append, List.map_singleton, sawChunkAfter_concat] at hn
    intro e he hc
    rcases List.mem_append.mp he with he | he
    · have hx := hord.split.1 e he
      simpa [tickTimes, hn, List.getLastD_eq_getLast?] using hx
    · rw [List.mem_singleton.mp he, hn] at hc
      cases hc

theorem chunkSinceTick_of_gapsBelow {T : Nat} {tr : List (Nat × Selected)}
    {pre post : List Selected} {f : Option Error}
    (hord : InTimeOrder tr) (hticks : TicksEvery T tr) (hgaps : GapsBelow T tr)
    (hsel : tr.map Prod.snd = pre ++ .tick f :: post) (hpost : ∃ d, .chunk d ∈ post) :
    ¬NoChunkSinceTick pre := by
  obtain ⟨A, yB, rfl, rfl, hyB⟩ := List.map_eq_append_iff.mp hsel
  obtain ⟨⟨τ, s⟩, B, rfl, rfl, rfl⟩ := List.map_eq_cons_iff.mp hyB
  obtain ⟨d, hd⟩ := hpost
  obtain ⟨e, he, hed⟩ := List.mem_map.mp hd
  intro hn
  have hsplit := hord.split
  have hA := chunks_le_of_noChunkSinceTick hord.left hn
  -- the tick comes `T` after the tick before it, or after the loop's start
  have hτ : τ = (tickTimes A).getLastD 0 + T := by
    have h := hticks.1
    rw [tickTimes_append, show tickTimes ((τ, .tick f) :: B) = τ :: tickTimes B by
      simp [tickTimes, Selected.isChunk]] at h
    exact chain_getLastD h
  -- the chunk after it comes no earlier, so some chunk came within `T` after the tick before
  have he₁ : τ ≤ e.1 := hsplit.2 e he
  obtain ⟨t, ht, hlo, hhi⟩ := chain_cross hgaps (Nat.zero_le ((tickTimes A).getLastD 0))
    ⟨e.1, mem_chunkTimes.mpr ⟨e.2, by simp [he], by simp [hed, Selected.isChunk]⟩, by omega⟩
  obtain ⟨s, hs, hc⟩ := mem_chunkTimes.mp ht
  rcases List.mem_append.mp hs with hs | hs
  · exact absurd (hA _ hs hc) (by simpa using hlo)
  rcases List.mem_cons.mp hs with hs | hs
  · obtain ⟨-, rfl⟩ := Prod.mk.inj hs
    cases hc
  · have := hsplit.2 _ hs
    simp only at this
    omega

theorem noChunkSinceTick_of_gap {T t : Nat} {tr pre post : List (Nat × Selected)}
    {c : Delivery} (hT : 0 < T) (hord : InTimeOrder tr) (hticks : TicksEvery T tr)
    (htr : tr = pre ++ (t, .chunk c) :: post) (hgap : lastChunkTime pre + 2 * T < t) :
    ∃ A g B, pre.map Prod.snd = A ++ .tick g :: B ∧ NoChunkSinceTick A := by
  subst htr
  have hpre : InTimeOrder pre := hord.left
  obtain ⟨hlast, hmem⟩ := chain_add_mem hticks.1
  have ht := hticks.2 (t, .chunk c) (by simp)
  rw [hlast] at ht
  -- the two ticks after the last chunk before the gap
  set a := lastChunkTime pre
  set k := (tickTimes (pre ++ (t, .chunk c) :: post)).length
  have hq1 : a / T * T ≤ a := Nat.div_mul_le_self a T
  have hq2 : a < a / T * T + T := Nat.lt_div_mul_add hT
  have hk : a / T + 1 < k := by
    have : (a / T + 2) * T < (k + 1) * T := by
      simp only [Nat.add_mul, Nat.one_mul] at ht ⊢
      omega
    have := Nat.lt_of_mul_lt_mul_right this
    omega
  -- a tick at a time before the next chunk was taken before it
  have hin (m : Nat) (hm : m ∈ tickTimes (pre ++ (t, .chunk c) :: post)) (hmt : m < t) :
      ∃ g, (m, .tick g) ∈ pre := by
    obtain ⟨s, hs, hc⟩ := mem_tickTimes.mp hm
    cases s with
    | chunk _ => cases hc
    | tick g =>
      refine ⟨g, ?_⟩
      rcases List.mem_append.mp hs with hs | hs
      · exact hs
      rcases List.mem_cons.mp hs with hs | hs
      · cases hs
      · have := hord.split.2 _ hs
        simp only at this
        omega
  obtain ⟨g₁, h₁⟩ := hin ((a / T + 1) * T) (by simpa using hmem (a / T) (by omega)) (by
    simp only [Nat.add_mul, Nat.one_mul]; omega)
  obtain ⟨g₂, h₂⟩ := hin ((a / T + 1 + 1) * T) (by simpa using hmem (a / T + 1) hk) (by
    simp only [Nat.add_mul, Nat.one_mul]; omega)
  obtain ⟨A', B', hAB⟩ := List.append_of_mem h₂
  refine ⟨A'.map Prod.snd, g₂, B'.map Prod.snd, by simp [hAB], ?_⟩
  rw [hAB] at hpre h₁
  -- the first tick was taken before the second
  have h₁A : ((a / T + 1) * T, Selected.tick g₁) ∈ A' := by
    rcases List.mem_append.mp h₁ with h | h
    · exact h
    rcases List.mem_cons.mp h with h | h
    · simp only [Prod.mk.injEq] at h
      simp only [Nat.add_mul, Nat.one_mul] at h
      omega
    · have := hpre.split.2 _ h
      simp only [Nat.add_mul, Nat.one_mul] at this
      omega
  -- between them, no chunk: a chunk there would have come after the last chunk before the gap
  rw [noChunkSinceTick_iff]
  rcases List.eq_nil_or_concat A' with rfl | ⟨A, z, rfl⟩
  · rfl
  rw [List.concat_eq_append] at h₁A hpre ⊢
  rw [List.map_append, List.map_singleton, sawChunkAfter_concat]
  cases hz : z.2.isChunk
  · rfl
  have hz₁ : (a / T + 1) * T ≤ z.1 := by
    rcases List.mem_append.mp h₁A with h | h
    · exact hpre.left.split.1 _ h
    · rw [← List.mem_singleton.mp h] at hz
      cases hz
  have hza : z.1 ≤ a :=
    hord.left.le_lastChunkTime (by rw [hAB]; simp) hz
  simp only [Nat.add_mul, Nat.one_mul] at hz₁
  omega

/-! ### The deadline -/

/-- What the select loop does with the selections `sel`, from `b` and `pl`. -/
structure DeadlineSpec (i : Nat) (r : Resolution) (b : AppendFSM) (pl : Pipeline σ)
    (sel consumed rest : List Selected) (b' : AppendFSM) (pl' : Pipeline σ) : Prop where
  split : sel = consumed ++ rest
  /-- At a tick it injects DeadlineExceeded exactly when no chunk came since the tick before. -/
  inject : ∀ pre f post, consumed = pre ++ .tick f :: post →
    handled (pre ++ [.tick f]) false = handled pre false ++
      if NoChunkSinceTick pre then [⟨.error .deadlineExceeded, f⟩] else []
  /-- The loop ends at such a tick, with the append rolled back. -/
  rolled_back : ∀ pre f post, consumed = pre ++ .tick f :: post → NoChunkSinceTick pre →
    post = [] ∧ TimedOut C i r b b' pl pl'
  /-- A client that sends a chunk before every tick is never timed out. -/
  responsive : ChunkBeforeEveryTick sel →
    handled consumed false = consumed.filterMap Selected.chunk?
  /-- Two ticks with no chunk between: it times out at the later, or at the earlier already. -/
  two_ticks : ∀ pre f g post, sel = pre ++ .tick f :: .tick g :: post →
    pre ++ [.tick f] <+: consumed → TimedOut C i r b b' pl pl' ∧
      ((consumed = pre ++ [.tick f] ∧ NoChunkSinceTick pre) ∨
        consumed = pre ++ [.tick f, .tick g])
  /-- Time order, every tick and gaps below `T`: nothing is injected at a tick a chunk follows. -/
  short_gaps : ∀ T tr, tr.map Prod.snd = sel → InTimeOrder tr → TicksEvery T tr →
    GapsBelow T tr → ∀ pre f post, consumed = pre ++ .tick f :: post →
      (∃ d, .chunk d ∈ post ++ rest) → handled (pre ++ [.tick f]) false = handled pre false
  /-- Time order and every tick: the chunk after a gap longer than `2T` is never taken. -/
  long_gaps : ∀ T tr, 0 < T → tr.map Prod.snd = sel → InTimeOrder tr → TicksEvery T tr →
    ∀ pre t c post, tr = pre ++ (t, .chunk c) :: post → lastChunkTime pre + 2 * T < t →
      consumed.length ≤ pre.length ∧ b'.state = .readAcknowledgements ∧
        (TimedOut C i r b b' pl pl' ∨ ∃ q d, consumed = q ++ [.chunk d])

/-- The stream loop's surroundings, in milliseconds: when the loop is next at its select, the
tick held in `ticker.C`, the ticks to come, and each chunk with the time `onStreamContent`
blocks on it. -/
structure Clock where
  now : Nat
  held : Option Nat
  ticks : List Nat
  chunks : List (Nat × Delivery × Nat)

/-- The ticker fires each tick due by `now`, dropping it when `ticker.C` is full. -/
def fireDue (now : Nat) : Option Nat → List Nat → Option Nat × List Nat
  | held, τ :: ts => if τ ≤ now then fireDue now (held.or (some τ)) ts else (held, τ :: ts)
  | held, [] => (held, [])

/-- The selections the loop takes, and when: with both cases ready the runtime takes the chunk
on `true` in `prefer`; with none, the loop waits. -/
def Clock.select : Nat → List Bool → Clock → List (Nat × Selected)
  | 0, _, _ => []
  | fuel + 1, prefer, c =>
    let fired := fireDue c.now c.held c.ticks
    let c := { c with held := fired.1, ticks := fired.2 }
    let take (d : Delivery) (δ : Nat) (cs : List (Nat × Delivery × Nat)) (ps : List Bool) :=
      (c.now, Selected.chunk d) :: select fuel ps { c with now := c.now + δ, chunks := cs }
    let tick (ps : List Bool) :=
      (c.now, Selected.tick none) :: select fuel ps { c with held := none }
    match c.chunks, c.held with
    | (a, d, δ) :: cs, some _ =>
      if a ≤ c.now then
        match prefer with
        | true :: ps => take d δ cs ps
        | _ => tick prefer.tail
      else tick prefer
    | (a, d, δ) :: cs, none =>
      if a ≤ c.now then take d δ cs prefer
      else select fuel prefer { c with now := min a (c.ticks.headD a) }
    | [], some _ => tick prefer
    | [], none =>
      match c.ticks with
      | τ :: _ => select fuel prefer { c with now := τ }
      | [] => []

end Gazette.Broker
