import Gazette.Broker.Stream

/-! The loop of `appendFSM.run` in stateStreamContent: a select over `chunkCh`, which the
goroutine pumping `recv` fills, and `ticker.C`. A chunk is handed to `onStreamContent`; a
tick with no chunk taken since the tick before injects context.DeadlineExceeded. The loop
is modelled over the selections it takes, in the order select resolved them: every
interleaving of chunks and ticks is a list, and each result is stated for every list.

The loop refines `streamLoop`, the loop over the deliveries handed to `onStreamContent`
(`tickLoop_refines`); over a whole stream it never panics and ends as `LoopOutcome` says
(`tickLoop_outcome`). -/

namespace Gazette.Broker

variable {σ : Type} (C : Collaborators σ)

/-! ### The select -/

/-- What the select of the stream loop takes: a result of `chunkCh`, or a tick of `ticker.C`,
with the send error a peer may raise before the next `sendErr()`. -/
inductive Selected where
  | chunk (d : Delivery)
  | tick (failure : Option Error)

def Selected.isChunk : Selected → Bool
  | .chunk _ => true
  | .tick _ => false

def Selected.chunk? : Selected → Option Delivery
  | .chunk d => some d
  | .tick _ => none

/-- `for b.state == stateStreamContent { select { ... } }`, from `sawChunk = saw`. -/
def tickLoop (i : Nat) :
    List Selected → Bool → AppendFSM → Pipeline σ →
      Option (AppendFSM × Pipeline σ × Bool × List Selected)
  | [], saw, b, pl => some (b, pl, saw, [])
  | s :: sel, saw, b, pl =>
    if b.state = .streamContent then
      match s with
      | .chunk d =>
        (onStreamContent C i d.chunk d.failure b pl).bind fun r => tickLoop i sel true r.1 r.2
      | .tick failure =>
        if saw then tickLoop i sel false b pl
        else (onStreamContent C i (.error .deadlineExceeded) failure b pl).bind fun r =>
          tickLoop i sel false r.1 r.2
    else some (b, pl, saw, s :: sel)

/-- The deliveries the loop hands `onStreamContent`: each chunk, and DeadlineExceeded at a
tick with no chunk since the one before. -/
def handled : List Selected → Bool → List Delivery
  | [], _ => []
  | .chunk d :: sel, _ => d :: handled sel true
  | .tick failure :: sel, saw =>
    if saw then handled sel false else ⟨.error .deadlineExceeded, failure⟩ :: handled sel false

theorem tickLoop_of_not {i : Nat} {b : AppendFSM} (h : b.state ≠ .streamContent)
    (sel : List Selected) (saw : Bool) (pl : Pipeline σ) :
    tickLoop C i sel saw b pl = some (b, pl, saw, sel) := by
  cases sel <;> simp [tickLoop, h]

/-- The select loop is the loop over the deliveries it hands `onStreamContent`. -/
theorem tickLoop_refines {i : Nat} (sel : List Selected) :
    ∀ {saw : Bool} {b : AppendFSM} {pl : Pipeline σ}, b.state = .streamContent →
      (tickLoop C i sel saw b pl).map (fun x => (x.1, x.2.1, handled x.2.2.2 x.2.2.1)) =
        streamLoop C i (handled sel saw) b pl := by
  induction sel with
  | nil => intros; rfl
  | cons s sel ih =>
    intro saw b pl hst
    -- a call of `onStreamContent`, then the rest of the loop
    have hcall (d : Delivery) (saw' : Bool) :
        ((onStreamContent C i d.chunk d.failure b pl).bind fun r =>
          tickLoop C i sel saw' r.1 r.2).map (fun x => (x.1, x.2.1, handled x.2.2.2 x.2.2.1)) =
        streamLoop C i (d :: handled sel saw') b pl := by
      rw [streamLoop]
      cases onStreamContent C i d.chunk d.failure b pl with
      | none => rfl
      | some r =>
        by_cases hs : r.1.state = .streamContent
        · simp only [Option.some_bind, if_pos hs, ih hs]
        · simp [if_neg hs, tickLoop_of_not C hs]
    cases s with
    | chunk d => simpa [tickLoop, hst, handled] using hcall d true
    | tick f =>
      cases saw
      · simpa [tickLoop, hst, handled] using hcall ⟨.error .deadlineExceeded, f⟩ false
      · simpa [tickLoop, hst, handled] using ih hst

/-! ### Chunks since the last tick -/

def sawChunkAfter (sel : List Selected) (saw : Bool) : Bool := sel.foldl (fun _ s => s.isChunk) saw

@[simp] theorem sawChunkAfter_nil (saw : Bool) : sawChunkAfter [] saw = saw := rfl

@[simp] theorem sawChunkAfter_cons (s : Selected) (sel : List Selected) (saw : Bool) :
    sawChunkAfter (s :: sel) saw = sawChunkAfter sel s.isChunk := rfl

@[simp] theorem sawChunkAfter_concat (sel : List Selected) (s : Selected) (saw : Bool) :
    sawChunkAfter (sel ++ [s]) saw = s.isChunk := by
  simp [sawChunkAfter]

/-- No chunk was taken since the last tick of `pre`, or at all if it has none. -/
def NoChunkSinceTick (pre : List Selected) : Prop :=
  ∀ a d c, pre = a ++ .chunk d :: c → ∃ f, .tick f ∈ c

theorem noChunkSinceTick_iff (pre : List Selected) :
    NoChunkSinceTick pre ↔ sawChunkAfter pre false = false := by
  rcases List.eq_nil_or_concat pre with rfl | ⟨p, s, rfl⟩
  · simp [NoChunkSinceTick]
  · rw [List.concat_eq_append, sawChunkAfter_concat]
    cases s with
    | chunk d =>
      simp only [Selected.isChunk, Bool.true_eq_false, iff_false]
      intro h
      obtain ⟨f, hf⟩ := h p d [] rfl
      simp at hf
    | tick f =>
      simp only [Selected.isChunk, iff_true]
      intro a d c h
      rcases List.eq_nil_or_concat c with rfl | ⟨c', x, rfl⟩
      · simpa using (List.append_inj' h rfl).2
      · rw [List.concat_eq_append, ← List.cons_append, ← List.append_assoc] at h
        rw [List.concat_eq_append]
        obtain ⟨-, hx⟩ := List.append_inj' h rfl
        exact ⟨f, by simp [List.singleton_inj.mp hx]⟩

instance : DecidablePred NoChunkSinceTick := fun pre =>
  decidable_of_iff _ (noChunkSinceTick_iff pre).symm

/-- Every tick of `sel` comes after a chunk taken since the tick before it. -/
def ChunkBeforeEveryTick (sel : List Selected) : Prop :=
  ∀ pre f post, sel = pre ++ .tick f :: post → ¬NoChunkSinceTick pre

theorem ChunkBeforeEveryTick.of_append {consumed rest : List Selected}
    (h : ChunkBeforeEveryTick (consumed ++ rest)) : ChunkBeforeEveryTick consumed :=
  fun pre f post hc => h pre f (post ++ rest) (by simp [hc])

theorem handled_append (p q : List Selected) (saw : Bool) :
    handled (p ++ q) saw = handled p saw ++ handled q (sawChunkAfter p saw) := by
  induction p generalizing saw with
  | nil => rfl
  | cons s p ih =>
    cases s with
    | chunk d => simp [handled, ih, Selected.isChunk]
    | tick f => cases saw <;> simp [handled, ih, Selected.isChunk]

theorem handled_tick (pre : List Selected) (f : Option Error) :
    handled (pre ++ [.tick f]) false = handled pre false ++
      if NoChunkSinceTick pre then [⟨.error .deadlineExceeded, f⟩] else [] := by
  rw [handled_append]
  by_cases h : NoChunkSinceTick pre
  · rw [if_pos h, (noChunkSinceTick_iff pre).mp h]; rfl
  · have hsaw : sawChunkAfter pre false = true := by simpa [noChunkSinceTick_iff] using h
    rw [if_neg h, hsaw]; rfl

theorem handled_of_sawChunk {sel : List Selected} {saw : Bool}
    (h : ∀ pre f post, sel = pre ++ .tick f :: post → sawChunkAfter pre saw = true) :
    handled sel saw = sel.filterMap Selected.chunk? := by
  induction sel generalizing saw with
  | nil => rfl
  | cons s sel ih =>
    cases s with
    | chunk d =>
      simp only [handled, List.filterMap_cons, Selected.chunk?]
      exact congrArg _ (ih fun pre f post hs => by
        simpa [Selected.isChunk] using h (.chunk d :: pre) f post (by simp [hs]))
    | tick f =>
      obtain rfl : saw = true := by simpa using h [] f sel rfl
      simp only [handled, if_true, List.filterMap_cons, Selected.chunk?]
      exact ih fun pre g post hs => by
        simpa [Selected.isChunk] using h (.tick f :: pre) g post (by simp [hs])

theorem handled_of_chunkBeforeEveryTick {sel : List Selected} (h : ChunkBeforeEveryTick sel) :
    handled sel false = sel.filterMap Selected.chunk? :=
  handled_of_sawChunk fun pre f post hs => by
    simpa [noChunkSinceTick_iff] using h pre f post hs

/-! ### The loop over a whole stream -/

/-- The append was aborted by an injected DeadlineExceeded, with the rollback proposal. -/
def TimedOut (i : Nat) (r : Resolution) (b₀ b : AppendFSM) (pl₀ pl : Pipeline σ) : Prop :=
  b.err = some (.withMessage "append stream" .deadlineExceeded) ∧ Leaves C i r False b₀ b pl₀ pl

variable {C}

theorem onStreamContent_timeout (C : Collaborators σ) (i : Nat) {r : Resolution}
    {b : AppendFSM} (failure : Option Error) (pl : Pipeline σ) (hr : b.resolved = some r)
    (hok : r.status = .ok) :
    ∃ b' pl', onStreamContent C i (.error .deadlineExceeded) failure b pl = some (b', pl') ∧
      TimedOut C i r b b' pl pl' := by
  obtain ⟨b', pl', heq, hcase⟩ :=
    onStreamContent_cases C i (.error .deadlineExceeded) failure pl hr hok
  obtain ⟨cf, sm, pl₁, new, heq', -⟩ :=
    onStreamContent_eq C i (.error .deadlineExceeded) failure pl hr
  have herr : b'.err = some (.withMessage "append stream" .deadlineExceeded) := by
    rw [heq] at heq'
    simp [streamChunk, chunkError, finishStream, hr] at heq'
    rw [heq'.1]
  have hchunk : chunkError C (.error .deadlineExceeded) = some .deadlineExceeded := rfl
  rcases hcase with ⟨-, he, -⟩ | ⟨-, he, -⟩ | hl
  · exact absurd he (by simp [hchunk])
  · exact absurd he (by simp [hchunk])
  · exact ⟨b', pl', heq, herr, hl.congr C (by simp [hchunk])⟩

variable (C)

/-- What the loop did, having taken `consumed` and left `rest`. -/
def LoopOutcome (i : Nat) (r : Resolution) (b₀ : AppendFSM) (pl₀ : Pipeline σ) (saw : Bool)
    (consumed rest : List Selected) (b : AppendFSM) (pl : Pipeline σ) : Prop :=
  ((rest = [] ∧ b.state = .streamContent) ∨
    (b.state = .readAcknowledgements ∧ ∃ pre s, consumed = pre ++ [s] ∧
      ∀ f, s = .tick f → sawChunkAfter pre saw = false)) ∧
  ∀ pre f post, consumed = pre ++ .tick f :: post → sawChunkAfter pre saw = false →
    post = [] ∧ TimedOut C i r b₀ b pl₀ pl

variable {C}

theorem LoopOutcome.cons {i : Nat} {r : Resolution} {b₀ b : AppendFSM} {pl₀ pl : Pipeline σ}
    {s : Selected} {saw : Bool} {consumed rest : List Selected}
    (h : LoopOutcome C i r b₀ pl₀ s.isChunk consumed rest b pl)
    (hs : ∀ f, s = .tick f → saw = true) :
    LoopOutcome C i r b₀ pl₀ saw (s :: consumed) rest b pl := by
  obtain ⟨hend, hto⟩ := h
  refine ⟨hend.imp id fun ⟨hst, pre, s', he, ht⟩ =>
    ⟨hst, s :: pre, s', by rw [he]; rfl, by simpa using ht⟩, ?_⟩
  intro pre f post he hsaw
  cases pre with
  | nil => simp [hs f (List.cons.inj he).1] at hsaw
  | cons x pre =>
    obtain ⟨rfl, he'⟩ := List.cons.inj he
    exact hto pre f post he' (by simpa using hsaw)

theorem LoopOutcome.leave {i : Nat} {r : Resolution} {b₀ b : AppendFSM} {pl₀ pl : Pipeline σ}
    {s : Selected} {saw : Bool} (rest : List Selected)
    (hst : b.state = .readAcknowledgements) (hs : ∀ f, s = .tick f → saw = false)
    (hto : ∀ f, s = .tick f → TimedOut C i r b₀ b pl₀ pl) :
    LoopOutcome C i r b₀ pl₀ saw [s] rest b pl := by
  refine ⟨.inr ⟨hst, [], s, rfl, by simpa using hs⟩, fun pre f post he _ => ?_⟩
  obtain ⟨rfl, rfl, rfl⟩ : pre = [] ∧ s = .tick f ∧ post = [] := by
    cases pre with
    | nil => simpa using he
    | cons x pre => simp at he
  exact ⟨rfl, hto f rfl⟩

/-- The select loop from any point of the stream never panics, and ends as `LoopOutcome`
says. -/
theorem tickLoop_outcome {i : Nat} {r : Resolution} {b₀ : AppendFSM} {pl₀ : Pipeline σ}
    (hst : b₀.state = .streamContent) (hr : b₀.resolved = some r) (hok : r.status = .ok)
    (sel : List Selected) : ∀ {saw : Bool} {b : AppendFSM} {pl : Pipeline σ},
    Stays C i r b₀ b pl₀ pl →
    ∃ b' pl' saw' rest, tickLoop C i sel saw b pl = some (b', pl', saw', rest) ∧
      ∃ consumed, sel = consumed ++ rest ∧ LoopOutcome C i r b₀ pl₀ saw consumed rest b' pl' := by
  induction sel with
  | nil =>
    intro saw b pl h
    exact ⟨b, pl, saw, [], rfl, [], rfl, .inl ⟨rfl, h.state.trans hst⟩,
      fun pre f post he => by simp at he⟩
  | cons s sel ih =>
    intro saw b pl h
    have hb : b.state = .streamContent := h.state.trans hst
    have hrb : b.resolved = some r := by obtain ⟨⟨_, _, _, rfl⟩, -⟩ := h; exact hr
    cases s with
    | chunk d =>
      obtain ⟨b₁, pl₁, heq, hcase⟩ := onStreamContent_cases C i d.chunk d.failure pl hrb hok
      have hloop : tickLoop C i (.chunk d :: sel) saw b pl = tickLoop C i sel true b₁ pl₁ := by
        simp [tickLoop, hb, heq]
      obtain h₁ | hst₁ : Stays C i r b b₁ pl pl₁ ∨ b₁.state = .readAcknowledgements := by
        rcases hcase with ⟨-, -, -, -, -, h₁, -⟩ | ⟨-, -, -, h₁, -⟩ | hl
        exacts [.inl h₁, .inl h₁, .inr hl.state]
      · -- the chunk was forwarded, or was the commit chunk
        obtain ⟨b', pl', saw', rest, hl', consumed, rfl, hout⟩ := ih (h.trans h₁)
        exact ⟨b', pl', saw', rest, hloop.trans hl', _, rfl, hout.cons (by simp)⟩
      · -- the stream ended
        refine ⟨b₁, pl₁, true, sel, ?_, [_], rfl, .leave sel hst₁ (by simp) (by simp)⟩
        rw [hloop, tickLoop_of_not C (by rw [hst₁]; decide)]
    | tick f =>
      cases saw with
      | false =>
        -- no chunk since the tick before: DeadlineExceeded is injected
        obtain ⟨b₁, pl₁, heq, hto⟩ := onStreamContent_timeout C i f pl hrb hok
        refine ⟨b₁, pl₁, false, sel, ?_, [_], rfl, .leave sel hto.2.state (fun _ _ => rfl)
          fun _ _ => ⟨hto.1, hto.2.of_stays C h⟩⟩
        rw [show tickLoop C i (.tick f :: sel) false b pl = tickLoop C i sel false b₁ pl₁ by
          simp [tickLoop, hb, heq], tickLoop_of_not C (by rw [hto.2.state]; decide)]
      | true =>
        obtain ⟨b', pl', saw', rest, hl', consumed, rfl, hout⟩ := ih h
        exact ⟨b', pl', saw', rest, by simpa [tickLoop, hb] using hl', _, rfl,
          hout.cons fun _ _ => rfl⟩

section Outcome

variable {i : Nat} {r : Resolution} {b₀ b : AppendFSM} {pl₀ pl : Pipeline σ}
  {sel consumed rest : List Selected}

theorem LoopOutcome.ended (h : LoopOutcome C i r b₀ pl₀ false consumed rest b pl)
    (hrest : rest ≠ []) : b.state = .readAcknowledgements ∧
      (TimedOut C i r b₀ b pl₀ pl ∨ ∃ pre d, consumed = pre ++ [.chunk d]) := by
  rcases h.1 with ⟨rfl, -⟩ | ⟨hst, pre, s, rfl, hs⟩
  · exact absurd rfl hrest
  refine ⟨hst, ?_⟩
  cases s with
  | chunk d => exact .inr ⟨pre, d, rfl⟩
  | tick f => exact .inl (h.2 pre f [] rfl (hs f rfl)).2

theorem LoopOutcome.prefix_of_timeout (h : LoopOutcome C i r b₀ pl₀ false consumed rest b pl)
    (hsel : sel = consumed ++ rest) {A B : List Selected} {g : Option Error}
    (hA : sel = A ++ .tick g :: B) (hn : NoChunkSinceTick A) :
    consumed <+: A ++ [.tick g] := by
  have hc : consumed <+: sel := ⟨rest, hsel.symm⟩
  have hA' : A ++ [.tick g] <+: sel := ⟨B, by simp [hA]⟩
  by_cases hlen : consumed.length ≤ (A ++ [Selected.tick g]).length
  · exact List.prefix_of_prefix_length_le hc hA' hlen
  obtain ⟨Z, hZ⟩ := List.prefix_of_prefix_length_le hA' hc (by omega)
  have hZ' := (h.2 A g Z (by simp [← hZ]) ((noChunkSinceTick_iff A).mp hn)).1
  subst hZ'
  simp [← hZ] at hlen

theorem LoopOutcome.two_ticks (h : LoopOutcome C i r b₀ pl₀ false consumed rest b pl)
    (hsel : sel = consumed ++ rest) {pre post : List Selected} {f g : Option Error}
    (hs : sel = pre ++ .tick f :: .tick g :: post) (hp : pre ++ [.tick f] <+: consumed) :
    TimedOut C i r b₀ b pl₀ pl ∧
      ((consumed = pre ++ [.tick f] ∧ NoChunkSinceTick pre) ∨
        consumed = pre ++ [.tick f, .tick g]) := by
  obtain ⟨X, rfl⟩ := hp
  by_cases hn : NoChunkSinceTick pre
  · obtain ⟨rfl, hto⟩ := h.2 pre f X (by simp) ((noChunkSinceTick_iff pre).mp hn)
    exact ⟨hto, .inl ⟨by simp, hn⟩⟩
  have hsel' : X ++ rest = .tick g :: post := by simpa [hs] using hsel.symm
  cases X with
  | nil =>
    -- the loop left at a tick that did not time out: impossible
    rcases h.1 with ⟨rfl, -⟩ | ⟨-, pre', s, he, hs'⟩
    · simp at hsel'
    have he' : pre ++ [.tick f] = pre' ++ [s] := by simpa using he
    obtain ⟨rfl, hfs⟩ := List.append_inj' he' rfl
    exact absurd ((noChunkSinceTick_iff _).mpr (hs' f (List.singleton_inj.mp hfs).symm)) hn
  | cons x X =>
    obtain ⟨rfl, -⟩ := List.cons.inj (show x :: (X ++ rest) = _ from hsel')
    obtain ⟨rfl, hto⟩ := h.2 (pre ++ [.tick f]) g X (by simp) (by simp [Selected.isChunk])
    exact ⟨hto, .inr (by simp)⟩

end Outcome

end Gazette.Broker
