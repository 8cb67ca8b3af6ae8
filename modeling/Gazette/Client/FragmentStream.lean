import Gazette.Client.FragmentReader

/-! `NewFragmentReader` and the `Read`s of the reader it returns, over the decompressed
stream `s` of a fragment. The decompressor lies outside this excerpt: a `Read` of it returns
the next bytes of `s`, never more than the buffer holds, and fails only with io.EOF, once
nothing is left. How many bytes each of its reads returns, and whether the read that
returns the last bytes also returns io.EOF, are its own choice (`Chunking`). The pre-seek
`io.CopyN(ioutil.Discard, fr, delta)` is modelled as the Go library runs it: `Discard` reads
`fr` through a `LimitReader`, into its 8 KiB buffer, until a read fails. -/

namespace Gazette.Client

/-- How a decompressor splits its stream: the size of its `j`-th `Read`, and whether io.EOF
comes with the last bytes. -/
structure Chunking where
  size : Nat → Nat
  eofWithData : Nat → Bool

/-- A decompressor: the bytes still to come, and how many `Read`s it has answered. -/
structure Decomp where
  rest : List UInt8
  reads : Nat
  deriving DecidableEq, Repr

def Decomp.read (ch : Chunking) (dc : Decomp) (len : Nat) : DecompRead × Decomp :=
  let data := dc.rest.take (min (ch.size dc.reads) len)
  let rest := dc.rest.drop (min (ch.size dc.reads) len)
  (⟨data, if rest = [] ∧ (data = [] ∨ ch.eofWithData dc.reads = true) then some .eof else none⟩,
    ⟨rest, dc.reads + 1⟩)

def readWith (ch : Chunking) (fr : FragmentReader) (dc : Decomp) (len : Nat) :
    FragmentReader × Decomp × ReadResult :=
  ((fr.read (dc.read ch len).1).1, (dc.read ch len).2, (fr.read (dc.read ch len).1).2)

/-- `io.CopyN(ioutil.Discard, fr, n)` with at most `fuel` reads, each through a `LimitReader`
into the 8 KiB buffer of `Discard`. -/
def copyN (ch : Chunking) : Nat → FragmentReader → Decomp → Int →
    Option (FragmentReader × Decomp × Int × Option Error)
  | 0, fr, dc, n => if n ≤ 0 then some (fr, dc, n, none) else none
  | fuel + 1, fr, dc, n =>
    if n ≤ 0 then some (fr, dc, n, none)
    else
      let out := readWith ch fr dc (min 8192 n.toNat)
      if out.2.2.err = none then copyN ch fuel out.1 out.2.1 (n - out.2.2.n)
      else some (out.1, out.2.1, n - out.2.2.n,
        if out.2.2.err = some .eof then none else out.2.2.err)

/-- `NewFragmentReader(rc, fragment, offset)`: a reader at `Begin`, seeked to `offset` by
`io.CopyN`; `fuel` bounds its reads. -/
def newFragmentReader (ch : Chunking) (fuel : Nat) (fragment : Fragment) (offset : Int)
    (dc : Decomp) : Option (Except Error (FragmentReader × Decomp)) :=
  (copyN ch fuel ⟨fragment, fragment.begin⟩ dc (offset - fragment.begin)).map
    fun (fr, dc, n, err) =>
      if n = 0 then .ok (fr, dc)
      else if 0 < n ∧ err = none then .error .eof
      else match err with
        | none => .ok (fr, dc)
        | some e => .error e

/-- A client's `Read`s, with buffers of the given lengths, up to the first that fails. -/
def readUntilError (ch : Chunking) : FragmentReader → Decomp → List Nat → List ReadResult
  | _, _, [] => []
  | fr, dc, len :: lens =>
    let out := readWith ch fr dc len
    if out.2.2.err = none then out.2.2 :: readUntilError ch out.1 out.2.1 lens else [out.2.2]

/-! ### Positions in the stream -/

/-- The reader and its decompressor `pos` bytes into the stream `s`. -/
structure At (s : List UInt8) (fr : FragmentReader) (dc : Decomp) (pos : Nat) : Prop where
  rest : dc.rest = s.drop pos
  offset : fr.offset = fr.fragment.begin + pos
  le : pos ≤ s.length

variable {ch : Chunking} {s : List UInt8} {fr : FragmentReader} {dc : Decomp} {pos : Nat}

theorem At.start (s : List UInt8) (f : Fragment) (j : Nat) : At s ⟨f, f.begin⟩ ⟨s, j⟩ 0 :=
  ⟨rfl, by simp, by simp⟩

theorem At.advance (h : At s fr dc pos) {k : Nat} (hk : pos + k ≤ s.length) {dc' : Decomp}
    (hrest : dc'.rest = s.drop (pos + k)) :
    At s { fr with offset := fr.offset + k } dc' (pos + k) :=
  ⟨hrest, by simp only [h.offset]; omega, hk⟩

theorem Decomp.read_at (ch : Chunking) (h : dc.rest = s.drop pos) (hle : pos ≤ s.length)
    (len : Nat) :
    ∃ k, pos + k ≤ s.length ∧ (dc.read ch len).1.data = (s.drop pos).take k ∧
      (dc.read ch len).1.data.length = k ∧ (dc.read ch len).2.rest = s.drop (pos + k) ∧
      ((dc.read ch len).1.err = none ∨ ((dc.read ch len).1.err = some .eof ∧ pos + k = s.length)) ∧
      (0 < ch.size dc.reads → 0 < len → (dc.read ch len).1.err = none → 0 < k) := by
  simp only [Decomp.read, h, List.drop_drop, List.drop_eq_nil_iff, List.length_drop,
    List.take_eq_nil_iff]
  have hpos : 0 < ch.size dc.reads → 0 < len → 0 < min (ch.size dc.reads) len := by omega
  generalize min (ch.size dc.reads) len = m at hpos ⊢
  refine ⟨min m (s.length - pos), by omega, by simp [List.take_eq_take], by simp, ?_, ?_, ?_⟩
  · rcases le_total m (s.length - pos) with hm | hm
    · rw [Nat.min_eq_left hm]
    · rw [Nat.min_eq_right hm, List.drop_eq_nil_of_le (by omega),
        List.drop_eq_nil_of_le (by omega)]
  · split_ifs with hc
    · exact .inr ⟨rfl, by omega⟩
    · exact .inl rfl
  · intro hs hl hn
    split_ifs at hn with hc
    by_contra hz
    exact hc ⟨by omega, .inl (.inr (by omega))⟩

/-- A `Read` of a reader `pos` bytes into its stream, short of `End`. -/
theorem readWith_cases (ch : Chunking) (hat : At s fr dc pos) (len : Nat) :
    ∃ k ≤ len, pos + k ≤ s.length ∧
      (readWith ch fr dc len).1 = { fr with offset := fr.offset + k } ∧
      (readWith ch fr dc len).2.1.rest = s.drop (pos + k) ∧
      ((fr.offset + k ≤ fr.fragment.end ∧
          (readWith ch fr dc len).2.2 = ⟨k, (s.drop pos).take k, none⟩ ∧
          (0 < ch.size dc.reads → 0 < len → 0 < k)) ∨
        (fr.offset + k ≤ fr.fragment.end ∧ pos + k = s.length ∧
          (readWith ch fr dc len).2.2 = ⟨k, (s.drop pos).take k,
            some (if fr.offset + k = fr.fragment.end then .eof else .unexpectedEOF)⟩) ∨
        (fr.fragment.end < fr.offset + k ∧ (readWith ch fr dc len).2.2 =
          ⟨fr.fragment.end - fr.offset,
            (s.drop pos).take ((fr.fragment.end - fr.fragment.begin).toNat - pos),
            some errDidNotReadExpectedEOF⟩)) := by
  obtain ⟨hrest, hoff, hle⟩ := hat
  obtain ⟨k, hk, hdata, hlen, hrest', herr, hprog⟩ := Decomp.read_at ch hrest hle len
  obtain ⟨hfr, hcase⟩ := FragmentReader.read_cases fr (dc.read ch len).1
  have hkl : k ≤ len := by
    rw [← hlen]
    exact (List.length_take_le _ _).trans (Nat.min_le_right _ _)
  refine ⟨k, hkl, hk, by rw [readWith, hfr, hlen], hrest', ?_⟩
  simp only [readWith, hlen] at hcase ⊢
  rcases hcase with ⟨hgt, hr⟩ | ⟨hle', heof, hne, hr⟩ | ⟨hle', heof, hr⟩
  · -- an overrun of `End`
    refine .inr (.inr ⟨hgt, hr.trans ?_⟩)
    rw [hdata, List.take_take]
    congr 2
    omega
  · -- io.EOF short of `End`
    refine .inr (.inl ⟨hle', (herr.resolve_left (by simp [heof])).2, hr.trans ?_⟩)
    rw [hdata, if_neg hne]
  · rcases herr with hnone | ⟨heof', hs⟩
    · exact .inl ⟨hle', hr.trans (by rw [hdata, hnone]), fun h1 h2 => hprog h1 h2 hnone⟩
    · -- io.EOF at `End`
      refine .inr (.inl ⟨hle', hs, hr.trans ?_⟩)
      rw [hdata, heof', if_pos (heof heof')]

/-! ### Reading until the first error -/

/-- The error a read of `s` fails with once all of it up to `End` was returned. -/
def EndsWith (f : Fragment) (s : List UInt8) (e : Error) : Prop :=
  (e = .eof ∧ (s.length : Int) = f.end - f.begin) ∨
    (e = .unexpectedEOF ∧ (s.length : Int) < f.end - f.begin) ∨
    (e = errDidNotReadExpectedEOF ∧ f.end - f.begin < s.length)

theorem EndsWith.iff {f : Fragment} {e : Error} (h : EndsWith f s e) :
    (e = .eof ↔ (s.length : Int) = f.end - f.begin) ∧
      (e = .unexpectedEOF ↔ (s.length : Int) < f.end - f.begin) ∧
      (e = errDidNotReadExpectedEOF ↔ f.end - f.begin < s.length) := by
  rcases h with ⟨rfl, h⟩ | ⟨rfl, h⟩ | ⟨rfl, h⟩ <;>
    simp only [errDidNotReadExpectedEOF, reduceCtorEq, true_iff, false_iff] <;> omega

theorem drop_take_append {k n : Nat} (h : pos + k ≤ n) :
    (s.drop pos).take k ++ (s.drop (pos + k)).take (n - (pos + k)) =
      (s.drop pos).take (n - pos) := by
  rw [← List.drop_drop, ← List.take_add]
  congr 1
  omega

/-- Reading from `pos` until the first error returns a prefix of `s[pos, End - Begin)`, all of
it by the error `EndsWith` names. -/
theorem readUntilError_spec (ch : Chunking) (hat : At s fr dc pos)
    (hE : fr.offset ≤ fr.fragment.end)
    (lens : List Nat) :
    (readUntilError ch fr dc lens).flatMap ReadResult.data <+:
        (s.drop pos).take ((fr.fragment.end - fr.fragment.begin).toNat - pos) ∧
      ∀ e, (readUntilError ch fr dc lens).getLast?.bind ReadResult.err = some e →
        (readUntilError ch fr dc lens).flatMap ReadResult.data =
          (s.drop pos).take ((fr.fragment.end - fr.fragment.begin).toNat - pos) ∧
        EndsWith fr.fragment s e := by
  induction lens generalizing fr dc pos with
  | nil => simp [readUntilError]
  | cons len lens ih =>
    have hoff := hat.offset
    obtain ⟨k, -, hk, hfr, hrest, hcase⟩ := readWith_cases ch hat len
    rcases hcase with ⟨hle, hr, -⟩ | ⟨hle, hs, hr⟩ | ⟨hgt, hr⟩
    · -- the read goes on
      obtain ⟨hpre, hlast⟩ := ih (hat.advance hk hrest) (by simpa using hle)
      have hN : pos + k ≤ (fr.fragment.end - fr.fragment.begin).toNat := by omega
      simp only [readUntilError, hr, hfr, if_true] at hpre hlast ⊢
      refine ⟨?_, fun e he => ?_⟩
      · rw [List.flatMap_cons, ← drop_take_append hN]
        exact (List.prefix_append_right_inj _).mpr hpre
      · cases hrs : readUntilError ch { fr with offset := fr.offset + k } _ lens with
        | nil => simp [hrs] at he
        | cons r rs =>
          rw [hrs] at hlast
          obtain ⟨hall, hend⟩ := hlast e (by simpa [List.getLast?_cons_cons, hrs] using he)
          rw [List.flatMap_cons, ← drop_take_append hN, hall]
          exact ⟨rfl, hend⟩
    · -- the end of the stream
      have hdata : (s.drop pos).take k =
          (s.drop pos).take ((fr.fragment.end - fr.fragment.begin).toNat - pos) := by
        rw [List.take_of_length_le (by simp; omega), List.take_of_length_le (by simp; omega)]
      simp only [readUntilError, hr, reduceCtorEq, if_false, List.flatMap_cons,
        List.flatMap_nil, List.append_nil, hdata]
      refine ⟨List.prefix_refl _, fun e he => ⟨trivial, ?_⟩⟩
      simp only [List.getLast?_singleton, Option.some_bind, Option.some.injEq] at he
      subst he
      split_ifs with hend
      · exact .inl ⟨rfl, by omega⟩
      · exact .inr (.inl ⟨rfl, by omega⟩)
    · -- past `End`
      simp only [readUntilError, hr, reduceCtorEq, if_false, List.flatMap_cons,
        List.flatMap_nil, List.append_nil]
      refine ⟨List.prefix_refl _, fun e he => ⟨trivial, ?_⟩⟩
      simp only [List.getLast?_singleton, Option.some_bind, Option.some.injEq] at he
      exact .inr (.inr ⟨he.symm, by omega⟩)

theorem readUntilError_fails (hsize : ∀ j, 0 < ch.size j) (hat : At s fr dc pos)
    (hE : fr.offset ≤ fr.fragment.end) (lens : List Nat) (hlens : ∀ L ∈ lens, 0 < L)
    (hlong : (fr.fragment.end - fr.fragment.begin).toNat - pos < lens.length) :
    ∃ e, (readUntilError ch fr dc lens).getLast?.bind ReadResult.err = some e := by
  induction lens generalizing fr dc pos with
  | nil => simp at hlong
  | cons len lens ih =>
    have hoff := hat.offset
    obtain ⟨k, -, hk, hfr, hrest, hcase⟩ := readWith_cases ch hat len
    rcases hcase with ⟨hle, hr, hprog⟩ | ⟨-, -, hr⟩ | ⟨-, hr⟩
    · have hk0 := hprog (hsize _) (hlens len (List.mem_cons_self _ _))
      obtain ⟨e, he⟩ := ih (hat.advance hk hrest) (by simpa using hle)
        (fun L hL => hlens L (List.mem_cons_of_mem _ hL)) (by simp at hlong ⊢; omega)
      refine ⟨e, ?_⟩
      simp only [readUntilError, hr, hfr, if_true]
      cases hrs : readUntilError ch { fr with offset := fr.offset + k } _ lens with
      | nil => simp [hrs] at he
      | cons r rs => simpa [List.getLast?_cons_cons, hrs] using he
    · exact ⟨_, by simp [readUntilError, hr]; rfl⟩
    · exact ⟨_, by simp [readUntilError, hr]; rfl⟩

/-! ### The pre-seek -/

theorem copyN_of_nonpos {n : Int} (h : n ≤ 0) (fuel : Nat) :
    copyN ch fuel fr dc n = some (fr, dc, n, none) := by
  cases fuel <;> simp [copyN, h]

/-- `io.CopyN` of `n` bytes, no further than `End`, copies them all or fails with
io.ErrUnexpectedEOF. -/
theorem copyN_spec (hat : At s fr dc pos) {n : Int} (hn : 0 ≤ n)
    (hE : fr.offset + n ≤ fr.fragment.end) {fuel : Nat}
    {out : FragmentReader × Decomp × Int × Option Error} (h : copyN ch fuel fr dc n = some out) :
    out.1.fragment = fr.fragment ∧
      ((out.2.2.1 = 0 ∧ At s out.1 out.2.1 (pos + n.toNat)) ∨
        (0 < out.2.2.1 ∧ s.length < pos + n.toNat ∧ out.2.2.2 = some .unexpectedEOF)) := by
  induction fuel generalizing fr dc pos n with
  | zero =>
    by_cases hn0 : n ≤ 0
    · rw [copyN_of_nonpos hn0] at h
      cases h
      obtain rfl : n = 0 := by omega
      exact ⟨rfl, .inl ⟨rfl, hat⟩⟩
    · simp [copyN, hn0] at h
  | succ fuel ih =>
    by_cases hn0 : n ≤ 0
    · rw [copyN_of_nonpos hn0] at h
      cases h
      obtain rfl : n = 0 := by omega
      exact ⟨rfl, .inl ⟨rfl, hat⟩⟩
    have hoff := hat.offset
    obtain ⟨k, hkl, hk, hfr, hrest, hcase⟩ := readWith_cases ch hat (min 8192 n.toNat)
    have hkn : (k : Int) ≤ n := by omega
    rw [copyN, if_neg hn0] at h
    rcases hcase with ⟨hle, hr, -⟩ | ⟨hle, hs, hr⟩ | ⟨hgt, hr⟩
    · -- the read goes on
      simp only [hr, hfr, if_true] at h
      obtain ⟨hf, hc⟩ := ih (hat.advance hk hrest) (by omega) (by dsimp only; omega) h
      have hpos : pos + k + (n - k).toNat = pos + n.toNat := by omega
      exact ⟨hf, hpos ▸ hc⟩
    · -- the end of the stream
      simp only [hr, hfr, reduceCtorEq, if_false] at h
      cases h
      refine ⟨rfl, ?_⟩
      by_cases hnk : n - k = 0
      · have hpos : pos + k = pos + n.toNat := by omega
        exact .inl ⟨hnk, hpos ▸ hat.advance hk hrest⟩
      · have hend : fr.offset + k ≠ fr.fragment.end := by omega
        simp only [if_neg hend, reduceCtorEq, if_false]
        exact .inr ⟨by omega, by omega, rfl⟩
    · -- past `End`, which a copy short of it never reaches
      omega

theorem copyN_isSome (hsize : ∀ j, 0 < ch.size j) (hat : At s fr dc pos) {n : Int}
    (hE : fr.offset + n ≤ fr.fragment.end) {fuel : Nat} (hfuel : n.toNat < fuel) :
    (copyN ch fuel fr dc n).isSome := by
  induction fuel generalizing fr dc pos n with
  | zero => omega
  | succ fuel ih =>
    by_cases hn0 : n ≤ 0
    · simp [copyN_of_nonpos hn0]
    have hoff := hat.offset
    obtain ⟨k, hkl, hk, hfr, hrest, hcase⟩ := readWith_cases ch hat (min 8192 n.toNat)
    rw [copyN, if_neg hn0]
    rcases hcase with ⟨hle, hr, hprog⟩ | ⟨-, -, hr⟩ | ⟨-, hr⟩
    · have hk0 := hprog (hsize _) (by omega)
      simp only [hr, hfr, if_true]
      exact ih (hat.advance hk hrest) (by dsimp only; omega) (by omega)
    · simp [hr]
    · simp [hr]

/-- `NewFragmentReader` to an offset in `[Begin, End]` returns the reader there, or fails with
io.ErrUnexpectedEOF. -/
theorem newFragmentReader_spec {f : Fragment} {offset : Int} (hB : f.begin ≤ offset)
    (hE : offset ≤ f.end) {fuel : Nat} {res : Except Error (FragmentReader × Decomp)}
    (h : newFragmentReader ch fuel f offset ⟨s, 0⟩ = some res) :
    (s.length < (offset - f.begin).toNat ∧ res = .error .unexpectedEOF) ∨
      ∃ fr dc, res = .ok (fr, dc) ∧ fr.fragment = f ∧ At s fr dc (offset - f.begin).toNat := by
  obtain ⟨⟨fr, dc, n, err⟩, hc, rfl⟩ := Option.map_eq_some'.mp h
  obtain ⟨hf, ⟨h0, hat⟩ | ⟨hpos, hs, herr⟩⟩ :=
    copyN_spec (At.start s f 0) (by omega) (by dsimp only; omega) hc
  · simp only at h0
    exact .inr ⟨fr, dc, by simp [h0], hf, by simpa using hat⟩
  · simp only at hpos herr
    have hn : n ≠ 0 := by omega
    exact .inl ⟨by simpa using hs, by simp [hn, herr]⟩

theorem newFragmentReader_isSome (hsize : ∀ j, 0 < ch.size j) {f : Fragment} {offset : Int}
    (hE : offset ≤ f.end) :
    (newFragmentReader ch ((offset - f.begin).toNat + 1) f offset ⟨s, 0⟩).isSome := by
  rw [newFragmentReader, Option.isSome_map']
  exact copyN_isSome hsize (At.start s f 0) (by dsimp only; omega) (by omega)

/-! ### Reading a fragment from an offset -/

/-- Reading a fragment from an offset in `[Begin, End]` returns a prefix of its stream from the
offset, all of it by the first error, which tells the stream's length against the fragment's. -/
theorem newFragmentReader_reads {f : Fragment} {offset : Int} (hB : f.begin ≤ offset)
    (hE : offset ≤ f.end) (ch : Chunking) (s : List UInt8) :
    (∀ fuel res, newFragmentReader ch fuel f offset ⟨s, 0⟩ = some res →
      (s.length < (offset - f.begin).toNat ∧ res = .error .unexpectedEOF) ∨
      ((offset - f.begin).toNat ≤ s.length ∧ ∃ fr dc, res = .ok (fr, dc) ∧ ∀ lens,
        (readUntilError ch fr dc lens).flatMap ReadResult.data <+:
          (s.take (f.end - f.begin).toNat).drop (offset - f.begin).toNat ∧
        ∀ e, (readUntilError ch fr dc lens).getLast?.bind ReadResult.err = some e →
          (readUntilError ch fr dc lens).flatMap ReadResult.data =
            (s.take (f.end - f.begin).toNat).drop (offset - f.begin).toNat ∧
          (e = .eof ↔ (s.length : Int) = f.end - f.begin) ∧
          (e = .unexpectedEOF ↔ (s.length : Int) < f.end - f.begin) ∧
          (e = errDidNotReadExpectedEOF ↔ f.end - f.begin < s.length))) ∧
    ((∀ j, 0 < ch.size j) →
      (newFragmentReader ch ((offset - f.begin).toNat + 1) f offset ⟨s, 0⟩).isSome ∧
      ∀ fuel fr dc, newFragmentReader ch fuel f offset ⟨s, 0⟩ = some (.ok (fr, dc)) →
        ∀ lens, (∀ L ∈ lens, 0 < L) → (f.end - offset).toNat < lens.length →
          ∃ e, (readUntilError ch fr dc lens).getLast?.bind ReadResult.err = some e) := by
  have hslice : (s.take (f.end - f.begin).toNat).drop (offset - f.begin).toNat =
      (s.drop (offset - f.begin).toNat).take
        ((f.end - f.begin).toNat - (offset - f.begin).toNat) := List.drop_take _ _ _
  refine ⟨fun fuel res h => ?_, fun hsize => ⟨newFragmentReader_isSome hsize hE, ?_⟩⟩
  · rcases newFragmentReader_spec hB hE h with hfail | ⟨fr, dc, rfl, rfl, hat⟩
    · exact .inl hfail
    have hfr := hat.offset
    refine .inr ⟨hat.le, fr, dc, rfl, fun lens => ?_⟩
    obtain ⟨hpre, hlast⟩ := readUntilError_spec ch hat (by omega) lens
    exact ⟨hslice ▸ hpre, fun e he => ⟨hslice ▸ (hlast e he).1, (hlast e he).2.iff⟩⟩
  · intro fuel fr dc h lens hlens hlong
    rcases newFragmentReader_spec hB hE h with ⟨-, hres⟩ | ⟨fr', dc', hres, rfl, hat⟩
    · cases hres
    obtain ⟨rfl, rfl⟩ : fr = fr' ∧ dc = dc' := by simpa using hres
    have hfr := hat.offset
    exact readUntilError_fails hsize hat (by omega) lens hlens (by omega)

theorem newFragmentReader_reads_mid_fragment :
    let f : Fragment := ⟨"a/journal", 100, 105, .zero, .none, "", 0⟩
    let ch : Chunking := ⟨fun _ => 2, fun _ => true⟩
    let s : List UInt8 := [1, 2, 3, 4, 5]
    f.begin ≤ 102 ∧ 102 ≤ f.end ∧
    (∀ fuel res, newFragmentReader ch fuel f 102 ⟨s, 0⟩ = some res →
      (s.length < (102 - f.begin).toNat ∧ res = .error .unexpectedEOF) ∨
      ((102 - f.begin).toNat ≤ s.length ∧ ∃ fr dc, res = .ok (fr, dc) ∧ ∀ lens,
        (readUntilError ch fr dc lens).flatMap ReadResult.data <+:
          (s.take (f.end - f.begin).toNat).drop (102 - f.begin).toNat ∧
        ∀ e, (readUntilError ch fr dc lens).getLast?.bind ReadResult.err = some e →
          (readUntilError ch fr dc lens).flatMap ReadResult.data =
            (s.take (f.end - f.begin).toNat).drop (102 - f.begin).toNat ∧
          (e = .eof ↔ (s.length : Int) = f.end - f.begin) ∧
          (e = .unexpectedEOF ↔ (s.length : Int) < f.end - f.begin) ∧
          (e = errDidNotReadExpectedEOF ↔ f.end - f.begin < s.length))) ∧
    ((∀ j, 0 < ch.size j) →
      (newFragmentReader ch ((102 - f.begin).toNat + 1) f 102 ⟨s, 0⟩).isSome ∧
      ∀ fuel fr dc, newFragmentReader ch fuel f 102 ⟨s, 0⟩ = some (.ok (fr, dc)) →
        ∀ lens, (∀ L ∈ lens, 0 < L) → (f.end - 102).toNat < lens.length →
          ∃ e, (readUntilError ch fr dc lens).getLast?.bind ReadResult.err = some e) :=
  ⟨by decide, by decide, newFragmentReader_reads (by decide) (by decide) _ _⟩

end Gazette.Client
