import Mathlib.Data.List.Chain
import Mathlib.Algebra.Order.Ring.Int
import Gazette.Client.Reader

/-! What a run of `Reader.Read` calls delivers. Frames are copied out byte for byte, in
order, with `Request.Offset` at the next byte not yet returned, as long as the broker ends
its stream after a frame whose status is not OK and hands out no fragment URL: a fragment
URL makes the reader return the bytes of the fragment store instead
(`Reader.read_fragment_store_bytes`). Each call returns while the stream has a frame or its
closing error left, so a run of calls stops only at an error. -/

namespace Gazette.Client

open Reader

def msgContent : Except Error ReadResponse → List UInt8
  | .ok f => f.content
  | .error _ => []

/-- The content the messages of a stream carry, in order. -/
def contentOf (msgs : List (Except Error ReadResponse)) : List UInt8 := msgs.flatMap msgContent

@[simp] theorem contentOf_nil : contentOf [] = [] := rfl

@[simp] theorem contentOf_append (ms ms' : List (Except Error ReadResponse)) :
    contentOf (ms ++ ms') = contentOf ms ++ contentOf ms' := by
  simp [contentOf]

@[simp] theorem contentOf_ok (f : ReadResponse) : contentOf [.ok f] = f.content := by
  simp [contentOf, msgContent]

/-- The reader has returned `out` and received `msgs`: `out`, then what is left of the last
response, is the content of `msgs`, and no fragment is read directly. -/
structure Delivered (r : Reader) (out : List UInt8) (msgs : List (Except Error ReadResponse)) :
    Prop where
  direct : r.direct = none
  url : r.response.fragmentUrl = ""
  index : r.response.content ≠ [] →
    0 ≤ r.request.offset - r.response.offset ∧
      r.request.offset - r.response.offset ≤ r.response.content.length
  bytes : out ++ r.remaining = contentOf msgs

theorem delivered_newReader (req : ReadRequest) : Delivered (newReader req) [] [] :=
  ⟨rfl, rfl, fun h => absurd rfl h, by simp [newReader, ReadResponse.zero, remaining]⟩

theorem Delivered.remaining_eq_nil {r : Reader} {out msgs} (h : Delivered r out msgs)
    (hb : ¬r.buffered) : r.remaining = [] := by
  by_cases hc : r.response.content = []
  · simp [remaining, hc]
  · have := h.index hc
    simp only [buffered, ne_eq, List.length_eq_zero, hc, not_false_eq_true, true_and,
      not_lt] at hb
    exact List.drop_eq_nil_of_le (by omega)

section

variable (validate : ReadResponse → Option Error)

/-- What the broker's frames still to come and the other answers are taken to be. -/
structure Assumptions (frames : List (Except Error ReadResponse)) (w : Peers) : Prop where
  valid : ∀ f, Except.ok f ∈ frames → validate f = none
  content : ∀ f, Except.ok f ∈ frames → f.content ≠ [] → f.status = .ok
  url : ∀ f, Except.ok f ∈ frames → f.fragmentUrl = ""
  closed : frames.Chain' fun m m' => (∃ f, m = .ok f ∧ f.status ≠ .ok) → ∃ e, m' = .error e
  errors : ∀ e, Except.error e ∈ frames → e ≠ errOffsetJump
  dials : ∀ e, some e ∈ w.dials → e ≠ errOffsetJump

variable {validate}

theorem Assumptions.tail {m : Except Error ReadResponse} {frames w}
    (h : Assumptions validate (m :: frames) w) : Assumptions validate frames w :=
  ⟨fun f hf => h.valid f (.tail _ hf), fun f hf => h.content f (.tail _ hf),
    fun f hf => h.url f (.tail _ hf), h.closed.tail, fun e he => h.errors e (.tail _ he),
    h.dials⟩

theorem Assumptions.dial {frames w x ds} (h : Assumptions validate frames w)
    (hw : w.dials = x :: ds) : Assumptions validate frames { w with dials := ds } :=
  ⟨h.valid, h.content, h.url, h.closed, h.errors,
    fun e he => h.dials e (by rw [hw]; exact .tail _ he)⟩

end

/-- The stream ends with the error its last `RecvMsg` returns. -/
def Ended (frames : List (Except Error ReadResponse)) : Prop :=
  ∃ e, frames.getLast? = some (.error e)

theorem Ended.of_cons_ok {f : ReadResponse} {frames : List (Except Error ReadResponse)}
    (h : Ended (.ok f :: frames)) : Ended frames ∧ frames ≠ [] := by
  obtain ⟨e, he⟩ := h
  cases frames with
  | nil => cases he
  | cons m frames => exact ⟨⟨e, by rwa [List.getLast?_cons_cons] at he⟩, List.cons_ne_nil _ _⟩

theorem statusError_ne_jump (st : Status) : statusError st ≠ errOffsetJump := by
  cases st <;> decide

theorem offsetBehind_ne_jump (a b : Int) : offsetBehind a b ≠ errOffsetJump := by
  intro h
  have := congrArg (fun | Error.new s => s.data.head? | _ => none) h
  simp [offsetBehind, errOffsetJump] at this

theorem readFrom_error_fails {validate len r w e frames o}
    (h : readFrom validate len r w (.error e :: frames) = some o)
    (hurl : r.response.fragmentUrl = "") (he : e ≠ errOffsetJump) :
    o.result.err ≠ none ∧ o.result.err ≠ some errOffsetJump := by
  simp only [readFrom] at h
  by_cases heof : e = .eof
  · simp only [heof, ne_eq, not_true_eq_false, ite_false, hurl, not_false_eq_true, and_false,
      and_self, Bool.not_eq_true', Option.some.injEq] at h
    subst h
    simpa using statusError_ne_jump _
  · simp only [heof, ne_eq, not_false_eq_true, ite_true, Option.some.injEq] at h
    subst h
    simpa using he

theorem readHead_recv {len frames recv} {r : Reader} {w : Peers} (hd : r.direct = none)
    (hb : ¬r.buffered) (ho : r.streamOpen = true) :
    readHead len frames recv r w = recv r w := by
  simp [readHead, hd, hb, ho]

/-! ### Progress -/

theorem readFrom_error_isSome {validate len r w e frames} (hurl : r.response.fragmentUrl = "") :
    (readFrom validate len r w (.error e :: frames)).isSome := by
  by_cases he : e = .eof <;> simp [readFrom, he, hurl]

theorem readFrom_isSome {validate len r w frames out msgs} (hinv : Delivered r out msgs)
    (hopen : r.streamOpen = true) (ha : Assumptions validate frames w) (hend : Ended frames) :
    (readFrom validate len r w frames).isSome := by
  match frames, ha, hend with
  | [], _, ⟨_, he⟩ => cases he
  | .error e :: frames, _, _ => exact readFrom_error_isSome hinv.url
  | .ok f :: frames, ha, hend =>
    have hv := ha.valid f (.head _)
    by_cases hs : f.status = .ok
    · by_cases hlt : f.offset < r.request.offset <;>
        by_cases hj : r.request.offset < f.offset <;> simp [readFrom, hv, hs, hlt, hj]
    -- a frame whose status is not OK is followed by the stream's error, which returns
    obtain ⟨m, frames, rfl⟩ := List.exists_cons_of_ne_nil (hend.of_cons_ok.2)
    obtain ⟨e, rfl⟩ := (List.chain'_cons.mp ha.closed).1 ⟨f, rfl, hs⟩
    have hc : f.content = [] := by
      by_contra hc
      exact hs (ha.content f (.head _) hc)
    have key (r' : Reader) (hf : r'.response = f) (hd : r'.direct = none)
        (ho : r'.streamOpen = true) : (readHead len (.error e :: frames)
          (fun r w => readFrom validate len r w (.error e :: frames)) r' w).isSome := by
      rw [readHead_recv hd (by simp [buffered, hf, hc]) ho]
      exact readFrom_error_isSome (by rw [hf]; exact ha.url f (.head _))
    rw [readFrom]
    by_cases hj : r.request.offset < f.offset <;>
      simp only [hv, hs, hj, false_and, and_false, ite_false, ite_true, decide_True,
        decide_False] <;>
      exact key _ rfl hinv.direct hopen

/-- A `Read` returns while the stream holds a frame or its closing error, and while it is
open or an answer to opening it is left. -/
theorem read_isSome {validate len r frames w out msgs} (hinv : Delivered r out msgs)
    (ha : Assumptions validate frames w) (hend : Ended frames)
    (hopen : r.streamOpen = true ∨ w.dials ≠ []) :
    (Reader.read validate len r frames w).isSome := by
  unfold Reader.read readHead
  rw [hinv.direct]
  by_cases hb : r.buffered
  · have hd := (hinv.index fun hc => hb.1 (by simp [hc])).1
    simp [hb, not_lt.mpr hd]
  simp only [hb, ite_false]
  cases ho : r.streamOpen
  · simp only [Bool.not_false, ite_true]
    match hd : w.dials with
    | [] => simp [ho, hd] at hopen
    | some e :: ds => rfl
    | none :: ds =>
      have hinv' : Delivered { r with streamOpen := true, direct := none } out msgs :=
        ⟨rfl, hinv.url, hinv.index, hinv.bytes⟩
      exact readFrom_isSome hinv' rfl (ha.dial hd) hend
  · simpa using readFrom_isSome hinv ho ha hend

theorem readFrom_after_not_ok {validate len r w f frames o}
    (h : readFrom validate len r w frames = some o) (hurl : r.response.fragmentUrl = "")
    (ha : Assumptions validate (.ok f :: frames) w) (hs : f.status ≠ .ok) :
    o.result.err ≠ none ∧ o.result.err ≠ some errOffsetJump := by
  match frames, ha with
  | [], _ => simp [readFrom] at h
  | m :: frames, ha =>
    obtain ⟨e, rfl⟩ := (List.chain'_cons.mp ha.closed).1 ⟨f, rfl, hs⟩
    exact readFrom_error_fails h hurl (ha.errors e (.tail _ (.head _)))

theorem readFrom_step {validate len r w frames o out msgs}
    (hinv : Delivered r out msgs) (hopen : r.streamOpen = true)
    (ha : Assumptions validate frames w) (h : readFrom validate len r w frames = some o)
    (herr : o.result.err = none ∨ o.result.err = some errOffsetJump) :
    ∃ f, frames = .ok f :: o.frames ∧ f.status = .ok ∧ r.request.offset ≤ f.offset ∧
      o.peers = w ∧
      o.reader = { r with response := f, request := { r.request with offset := f.offset } } ∧
      o.result = ⟨0, [], if r.request.offset < f.offset then some errOffsetJump else none⟩ := by
  match frames, ha with
  | [], _ => simp [readFrom] at h
  | .error e :: frames, ha =>
    have := readFrom_error_fails h hinv.url (ha.errors e (.head _))
    tauto
  | .ok f :: frames, ha =>
    have hv := ha.valid f (.head _)
    by_cases hs : f.status = .ok
    · by_cases hlt : f.offset < r.request.offset
      · simp only [readFrom, hv, hs, hlt, and_self, ite_true, Option.some.injEq] at h
        subst h
        simp only [Option.some.injEq, reduceCtorEq, false_or] at herr
        exact absurd herr (offsetBehind_ne_jump _ _)
      · by_cases hj : r.request.offset < f.offset
        · simp [readFrom, hv, hs, hlt, hj] at h
          subst h
          exact ⟨f, rfl, hs, by omega, rfl, rfl, by simp [hj]⟩
        · simp [readFrom, hv, hs, hlt, hj] at h
          subst h
          have hf : f.offset = r.request.offset := by omega
          exact ⟨f, rfl, hs, by omega, rfl, by simp [hf], by simp [hj]⟩
    · exfalso
      have hc : f.content = [] := by
        by_contra hc
        exact hs (ha.content f (.head _) hc)
      -- whether or not it jumped, the reader keeps `f` and reads on from the stream
      have key : ∀ r' : Reader,
          readHead len frames (fun r w => readFrom validate len r w frames) r' w = some o →
          r'.response = f → r'.direct = none → r'.streamOpen = true → False := by
        intro r' h' hf hd ho
        rw [readHead_recv hd (by simp [buffered, hf, hc]) ho] at h'
        have := readFrom_after_not_ok h' (by rw [hf]; exact ha.url f (.head _)) ha hs
        exact this.1 (herr.resolve_right this.2)
      by_cases hj : r.request.offset < f.offset <;> simp [readFrom, hv, hs, hj] at h <;>
        exact key _ h rfl hinv.direct hopen

/-- One `Read` call of a run: its buffer length, the reader before and after, the messages it
received, and what it returned. -/
structure ReadCall where
  len : Nat
  before : Reader
  received : List (Except Error ReadResponse)
  result : ReadResult
  after : Reader

/-- What a `Read` that returns nil or `ErrOffsetJump` does. -/
structure ReadCall.Contract (c : ReadCall) : Prop where
  n_eq : c.result.n = c.result.data.length
  n_le : c.result.data.length ≤ c.len
  received : c.received = [] ∨ ∃ f, c.received = [.ok f]
  copied : c.received = [] →
    c.result.err = none ∧ c.after.request.offset = c.before.request.offset + c.result.n
  framed : ∀ f, c.received = [.ok f] →
    f.status = .ok ∧ c.result.n = 0 ∧ c.after.response = f ∧ c.after.request.offset = f.offset
  mono : c.before.request.offset ≤ c.after.request.offset
  jump : c.result.err = some errOffsetJump ↔
    ∃ f, c.received = [.ok f] ∧ c.before.request.offset < f.offset

theorem Delivered.copy {r : Reader} {out msgs} (h : Delivered r out msgs) (hb : r.buffered)
    (len : Nat) :
    0 ≤ r.request.offset - r.response.offset ∧ Delivered
      { r with request := { r.request with offset := r.request.offset + (r.remaining.take len).length } }
      (out ++ r.remaining.take len) msgs := by
  have hne : r.response.content ≠ [] := by
    intro hc
    exact hb.1 (by simp [hc])
  obtain ⟨hd, hdl⟩ := h.index hne
  have hlen : (r.remaining.take len).length ≤ r.response.content.length -
      (r.request.offset - r.response.offset).toNat := by
    simp [remaining, List.length_take, List.length_drop]
  refine ⟨hd, h.direct, h.url, fun _ => ⟨by dsimp only; omega, by dsimp only; omega⟩, ?_⟩
  have hnat : (r.request.offset + (r.remaining.take len).length - r.response.offset).toNat =
      (r.request.offset - r.response.offset).toNat + (r.remaining.take len).length := by omega
  have hsplit : r.remaining.take len ++ r.remaining.drop (r.remaining.take len).length =
      r.remaining := by
    rw [List.length_take]
    rcases le_total len r.remaining.length with hl | hl
    · rw [min_eq_left hl, List.take_append_drop]
    · rw [min_eq_right hl, List.drop_length, List.append_nil, List.take_of_length_le hl]
  show (out ++ r.remaining.take len) ++ r.response.content.drop
    (r.request.offset + (r.remaining.take len).length - r.response.offset).toNat = _
  rw [hnat, ← List.drop_drop, List.append_assoc]
  exact (congrArg (out ++ ·) hsplit).trans h.bytes


theorem Delivered.frame {validate len r r' w' frames o out msgs}
    (hinv : Delivered r' out msgs) (hb : ¬r'.buffered) (ho : r'.streamOpen = true)
    (hreq : r'.request = r.request) (ha : Assumptions validate frames w')
    (h : readFrom validate len r' w' frames = some o)
    (herr : o.result.err = none ∨ o.result.err = some errOffsetJump) :
    ∃ received, frames = received ++ o.frames ∧
      ReadCall.Contract ⟨len, r, received, o.result, o.reader⟩ ∧
      Delivered o.reader (out ++ o.result.data) (msgs ++ received) ∧
      Assumptions validate o.frames o.peers ∧ o.reader.streamOpen = true := by
  obtain ⟨f, rfl, hs, hle, hw, hr, hres⟩ := readFrom_step hinv ho ha h herr
  have hout : out = contentOf msgs := by
    simpa [hinv.remaining_eq_nil hb] using hinv.bytes
  rw [hreq] at hle hres
  refine ⟨[.ok f], rfl, ⟨by simp [hres], by simp [hres], .inr ⟨f, rfl⟩,
    fun h => absurd h (by simp), ?_, by simp [hr, hle], by simp [hres]⟩,
    ⟨by simp [hr, hinv.direct], by simp [hr, ha.url f (.head _)],
      fun _ => by rw [hr]; dsimp only; omega, by simp [hr, hres, hout, remaining]⟩,
    hw ▸ ha.tail, by rw [hr]; exact ho⟩
  intro f' hf'
  obtain rfl : f = f' := by simpa using hf'
  exact ⟨hs, by simp [hres], by simp [hr], by simp [hr]⟩

/-- One `Read` that returns nil or `ErrOffsetJump` meets its contract and keeps the content
delivered. -/
theorem read_step {validate len r frames w o out msgs}
    (hinv : Delivered r out msgs) (ha : Assumptions validate frames w)
    (h : Reader.read validate len r frames w = some o)
    (herr : o.result.err = none ∨ o.result.err = some errOffsetJump) :
    ∃ received, frames = received ++ o.frames ∧
      ReadCall.Contract ⟨len, r, received, o.result, o.reader⟩ ∧
      Delivered o.reader (out ++ o.result.data) (msgs ++ received) ∧
      Assumptions validate o.frames o.peers ∧
      (o.reader.streamOpen = true ∨ (o.reader.streamOpen = r.streamOpen ∧ o.peers = w)) := by
  unfold Reader.read readHead at h
  rw [hinv.direct] at h
  by_cases hb : r.buffered
  · -- copy out of the last response
    obtain ⟨hd, hinv'⟩ := hinv.copy hb len
    simp only [hb, ite_true, not_lt.mpr hd, ite_false, Option.some.injEq] at h
    subst h
    exact ⟨[], rfl, ⟨rfl, List.length_take_le _ _, .inl rfl, fun _ => ⟨rfl, rfl⟩,
      fun f hf => absurd hf (by simp), by dsimp only; omega, by simp⟩,
      by simpa [hinv.direct] using hinv', ha, .inr ⟨rfl, rfl⟩⟩
  simp only [hb, ite_false] at h
  cases ho : r.streamOpen
  · -- open the stream first
    simp only [ho, Bool.not_false, ite_true] at h
    match hd : w.dials, h with
    | [], h => simp at h
    | some e :: ds, h =>
      simp only [Option.some.injEq] at h
      subst h
      simp only [Option.some.injEq, reduceCtorEq, false_or] at herr
      exact absurd herr (ha.dials e (by simp [hd]))
    | none :: ds, h =>
      have hinv' : Delivered { r with streamOpen := true, direct := none } out msgs :=
        ⟨rfl, hinv.url, hinv.index, hinv.bytes⟩
      obtain ⟨rec, hfr, hc, hinv'', ha', hopen⟩ :=
        Delivered.frame hinv' hb rfl (show _ = r.request from rfl) (ha.dial hd) h herr
      exact ⟨rec, hfr, hc, hinv'', ha', .inl hopen⟩
  · simp only [ho, Bool.not_true, Bool.false_eq_true, ite_false] at h
    obtain ⟨rec, hfr, hc, hinv', ha', hopen⟩ :=
      Delivered.frame hinv hb ho (show _ = r.request from rfl) ha h herr
    exact ⟨rec, hfr, hc, hinv', ha', .inl hopen⟩


/-- `Read` calls with the buffer lengths `lens`, for as long as each returns nil or
`ErrOffsetJump`. -/
def readSeq (validate : ReadResponse → Option Error) :
    List Nat → Reader → List (Except Error ReadResponse) → Peers →
      List ReadCall × Reader × List (Except Error ReadResponse) × Peers
  | [], r, frames, w => ([], r, frames, w)
  | len :: lens, r, frames, w =>
    match Reader.read validate len r frames w with
    | some o =>
      if o.result.err = none ∨ o.result.err = some errOffsetJump then
        let rest := readSeq validate lens o.reader o.frames o.peers
        (⟨len, r, frames.take (frames.length - o.frames.length), o.result, o.reader⟩ :: rest.1,
          rest.2)
      else ([], r, frames, w)
    | none => ([], r, frames, w)

/-- A run made every call, or stopped at an error other than `ErrOffsetJump`. -/
def StopsAtError (validate : ReadResponse → Option Error) (lens : List Nat)
    (run : List ReadCall × Reader × List (Except Error ReadResponse) × Peers) : Prop :=
  run.1.length = lens.length ∨ ∃ len o, lens[run.1.length]? = some len ∧
    Reader.read validate len run.2.1 run.2.2.1 run.2.2.2 = some o ∧
    o.result.err ≠ none ∧ o.result.err ≠ some errOffsetJump

theorem StopsAtError.cons {validate : ReadResponse → Option Error} {lens : List Nat}
    {run : List ReadCall × Reader × List (Except Error ReadResponse) × Peers}
    (h : StopsAtError validate lens run) (len : Nat) (c : ReadCall) :
    StopsAtError validate (len :: lens) (c :: run.1, run.2) := by
  rcases h with h | ⟨l, o, h₁, h₂, h₃⟩
  · exact .inl (congrArg (· + 1) h)
  · exact .inr ⟨l, o, by rwa [List.length_cons, List.getElem?_cons_succ], h₂, h₃⟩

theorem readSeq_spec (validate : ReadResponse → Option Error) (lens : List Nat) :
    ∀ r frames w out msgs, Delivered r out msgs → Assumptions validate frames w →
      (∀ c ∈ (readSeq validate lens r frames w).1, c.Contract) ∧
        (∃ received, frames = received ++ (readSeq validate lens r frames w).2.2.1 ∧
          Delivered (readSeq validate lens r frames w).2.1
            (out ++ (readSeq validate lens r frames w).1.flatMap (·.result.data))
            (msgs ++ received)) ∧
        (Ended frames → (r.streamOpen = true ∨ w.dials ≠ []) →
          StopsAtError validate lens (readSeq validate lens r frames w)) := by
  induction lens with
  | nil =>
    exact fun r frames w out msgs hinv _ =>
      ⟨by simp [readSeq], ⟨[], rfl, by simpa [readSeq]⟩, fun _ _ => .inl rfl⟩
  | cons len lens ih =>
    intro r frames w out msgs hinv ha
    have stop : (∀ c ∈ ([] : List ReadCall), c.Contract) ∧ ∃ received, frames = received ++ frames ∧
        Delivered r (out ++ ([] : List ReadCall).flatMap (·.result.data)) (msgs ++ received) :=
      ⟨by simp, [], rfl, by simpa⟩
    simp only [readSeq]
    split
    · rename_i o ho
      split_ifs with herr
      · obtain ⟨rec, hfr, hc, hinv', ha', hopen'⟩ := read_step hinv ha ho herr
        have htake : frames.take (frames.length - o.frames.length) = rec := by
          rw [hfr, List.length_append, Nat.add_sub_cancel, List.take_left]
        obtain ⟨hall, ⟨rec', hfr', hinv''⟩, hstops⟩ := ih _ _ _ _ _ hinv' ha'
        refine ⟨?_, ⟨rec ++ rec', by rw [List.append_assoc, ← hfr']; exact hfr, ?_⟩,
          fun hend hopen => ?_⟩
        · simp only [List.mem_cons, forall_eq_or_imp]
          exact ⟨htake ▸ hc, hall⟩
        · simpa [List.append_assoc] using hinv''
        · -- the rest of the run starts on what is left of an ended stream
          have hend' : Ended o.frames := by
            rcases hc.received with rfl | ⟨f, rfl⟩
            · simpa [hfr] using hend
            · rw [hfr, List.singleton_append] at hend
              exact hend.of_cons_ok.1
          have hopen'' : o.reader.streamOpen = true ∨ o.peers.dials ≠ [] := by
            rcases hopen' with h | ⟨h₁, h₂⟩
            · exact .inl h
            · rwa [h₁, h₂]
          exact (hstops hend' hopen'').cons len _
      · exact ⟨stop.1, stop.2, fun _ _ => Or.inr ⟨len, o, by simp only [List.length_nil, List.getElem?_cons_zero], ho,
        not_or.mp herr⟩⟩
    · rename_i ho
      refine ⟨stop.1, stop.2, fun hend hopen => ?_⟩
      have h := @read_isSome validate len r frames w out msgs hinv ha hend hopen
      rw [ho] at h
      cases h

/-- From a new reader, every `Read` that returns nil or `ErrOffsetJump` meets its contract, the
bytes returned are the content of the frames received, and a run stops only at an error. -/
theorem readSeq_delivers (validate : ReadResponse → Option Error) (req : ReadRequest)
    (frames : List (Except Error ReadResponse)) (w : Peers) (lens : List Nat)
    (ha : Assumptions validate frames w) :
    (∀ c ∈ (readSeq validate lens (newReader req) frames w).1, c.Contract) ∧
      (∃ received, frames = received ++ (readSeq validate lens (newReader req) frames w).2.2.1 ∧
        Delivered (readSeq validate lens (newReader req) frames w).2.1
          ((readSeq validate lens (newReader req) frames w).1.flatMap (·.result.data))
          received) ∧
      (Ended frames → w.dials ≠ [] →
        StopsAtError validate lens (readSeq validate lens (newReader req) frames w)) := by
  obtain ⟨hc, hd, hs⟩ := readSeq_spec validate lens _ _ _ _ _ (delivered_newReader req) ha
  exact ⟨hc, by simpa using hd, fun hend hw => hs hend (.inr hw)⟩

theorem readSeq_delivers_one_frame :
    let frames : List (Except Error ReadResponse) :=
      [.ok ⟨.ok, 0, [1, 2, 3], none, ""⟩, .error .eof]
    let w : Peers := ⟨[none], [], []⟩
    let run := readSeq (fun _ => none) [2, 2, 2, 2] (newReader ⟨0, false⟩) frames w
    Assumptions (fun _ => none) frames w ∧ Ended frames ∧ w.dials ≠ [] ∧
      ((∀ c ∈ run.1, c.Contract) ∧
        (∃ received, frames = received ++ run.2.2.1 ∧
          Delivered run.2.1 (run.1.flatMap (·.result.data)) received) ∧
        (Ended frames → w.dials ≠ [] → StopsAtError (fun _ => none) [2, 2, 2, 2] run)) :=
  have ha : Assumptions (fun _ => none) [.ok ⟨.ok, 0, [1, 2, 3], none, ""⟩, .error .eof]
      ⟨[none], [], []⟩ :=
    ⟨by simp, by simp, by simp, by simp, by simp [errOffsetJump], by simp⟩
  ⟨ha, ⟨_, rfl⟩, by simp, readSeq_delivers _ _ _ _ [2, 2, 2, 2] ha⟩

end Gazette.Client
