import Gazette.Client.Reader

/-! `Reader.Seek`, the limited seek of a `Reader`: only while the reader reads a fragment
directly, only forward, and only within that fragment, by reading the bytes up to the offset
through the reader itself and discarding them (`io.CopyN(ioutil.Discard, r, delta)`, as the Go
library runs it). Every other seek fails with `ErrSeekRequiresNewReader` at the reader's
offset. As for `Read`, what the decompressor answers each read is an input. -/

namespace Gazette.Client

def errSeekRequiresNewReader : Error := .new "seek offset requires new Reader"

def errSeekEnd : Error := .new "io.SeekEnd whence is not supported"

namespace Reader

/-- What a copy into `ioutil.Discard` leaves. -/
structure Discarded where
  reader : Reader
  frames : List (Except Error ReadResponse)
  peers : Peers
  left : Int
  err : Option Error

/-- `io.CopyN(ioutil.Discard, r, n)` with at most `fuel` reads of `r`, each through a
`LimitReader` into the 8 KiB buffer of `Discard`. -/
def discardN (validate : ReadResponse → Option Error) :
    Nat → Reader → List (Except Error ReadResponse) → Peers → Int → Option Discarded
  | 0, r, frames, w, n => if n ≤ 0 then some ⟨r, frames, w, n, none⟩ else none
  | fuel + 1, r, frames, w, n =>
    if n ≤ 0 then some ⟨r, frames, w, n, none⟩
    else (r.read validate (min 8192 n.toNat) frames w).bind fun out =>
      if out.result.err = none then
        discardN validate fuel out.reader out.frames out.peers (n - out.result.n)
      else some ⟨out.reader, out.frames, out.peers, n - out.result.n,
        if out.result.err = some .eof then none else out.result.err⟩

structure SeekOutcome where
  reader : Reader
  frames : List (Except Error ReadResponse)
  peers : Peers
  offset : Int
  err : Option Error

/-- The offset a `Seek` with `whence` io.SeekStart (0) or io.SeekCurrent (1) seeks to. -/
def seekTarget (r : Reader) (offset whence : Int) : Int :=
  if whence = 1 then r.request.offset + offset else offset

/-- `Reader.Seek(offset, whence)`, its copy bounded by `fuel` reads; `none` where Go panics. -/
def seek (validate : ReadResponse → Option Error) (fuel : Nat) (r : Reader)
    (frames : List (Except Error ReadResponse)) (w : Peers) (offset whence : Int) :
    Option SeekOutcome :=
  if whence = 2 then some ⟨r, frames, w, r.request.offset, some errSeekEnd⟩
  else if whence ≠ 0 ∧ whence ≠ 1 then none
  else
    let offset := seekTarget r offset whence
    if r.direct = none ∨ offset < r.request.offset then
      some ⟨r, frames, w, r.request.offset, some errSeekRequiresNewReader⟩
    else match r.response.fragment with
      | none => none
      | some f =>
        if offset ≥ f.end then
          some ⟨r, frames, w, r.request.offset, some errSeekRequiresNewReader⟩
        else (discardN validate fuel r frames w (offset - r.request.offset)).map fun d =>
          ⟨d.reader, d.frames, d.peers, d.reader.request.offset,
            if d.left = 0 then none else if 0 < d.left ∧ d.err = none then some .eof else d.err⟩

/-! ### The copy -/

theorem read_direct {validate : ReadResponse → Option Error} {len : Nat} {r : Reader}
    {fr : FragmentReader} (hd : r.direct = some fr) {frames : List (Except Error ReadResponse)}
    {w : Peers} {d : DecompRead} {ds : List DecompRead} (hw : w.decomp = d :: ds) :
    r.read validate len frames w = some ⟨{ r with
        direct := some (fr.read d).1
        request := { r.request with offset := r.request.offset + (fr.read d).2.n } },
      frames, { w with decomp := ds }, (fr.read d).2⟩ := by
  simp [read, readHead, hd, hw]

theorem discardN_of_nonpos {validate : ReadResponse → Option Error} {n : Int} (h : n ≤ 0)
    (fuel : Nat) (r : Reader) (frames : List (Except Error ReadResponse)) (w : Peers) :
    discardN validate fuel r frames w n = some ⟨r, frames, w, n, none⟩ := by
  cases fuel <;> simp [discardN, h]

/-- The decompressor's next reads deliver `n` bytes with no error, none beyond the
`LimitReader`'s. -/
inductive Fits : List DecompRead → Int → Prop
  | done {ds : List DecompRead} : Fits ds 0
  | read {d : DecompRead} {ds : List DecompRead} {n : Int} (hn : 0 < n)
      (hlen : (d.data.length : Int) ≤ min 8192 n) (herr : d.err = none)
      (hrest : Fits ds (n - d.data.length)) : Fits (d :: ds) n

theorem discardN_fits (validate : ReadResponse → Option Error) {r : Reader}
    {fr : FragmentReader} (hd : r.direct = some fr) (hoff : fr.offset = r.request.offset)
    (frames : List (Except Error ReadResponse)) {w : Peers} {n : Int} (hfits : Fits w.decomp n)
    (hend : fr.offset + n ≤ fr.fragment.end) {fuel : Nat} (hfuel : w.decomp.length ≤ fuel) :
    ∃ d, discardN validate fuel r frames w n = some d ∧ d.frames = frames ∧ d.left = 0 ∧
      d.err = none ∧ d.reader.request.offset = r.request.offset + n ∧
      d.reader.direct = some ⟨fr.fragment, fr.offset + n⟩ ∧ d.reader.response = r.response := by
  generalize hds : w.decomp = ds at hfits hfuel
  induction hfits generalizing r fr w fuel with
  | done =>
    rw [discardN_of_nonpos (Int.le_refl 0)]
    exact ⟨_, rfl, rfl, rfl, rfl, by simp, by simp [hd], rfl⟩
  | @read d ds n hn hlen herr _ ih =>
    obtain ⟨fuel, rfl⟩ : ∃ f, fuel = f + 1 := ⟨fuel - 1, by simp at hfuel; omega⟩
    have hle : fr.offset + d.data.length ≤ fr.fragment.end := by omega
    obtain ⟨hfr, hcase⟩ := fr.read_cases d
    have hres : (fr.read d).2 = ⟨d.data.length, d.data, none⟩ := by
      rcases hcase with ⟨hgt, -⟩ | ⟨-, heof, -⟩ | ⟨-, -, hr⟩
      · omega
      · rw [herr] at heof; cases heof
      · rw [hr, herr]
    simp only [discardN, if_neg (Int.not_le.mpr hn), read_direct hd hds, Option.some_bind, hres,
      hfr, if_true]
    obtain ⟨d', h', hf, hl, he, hoff', hdir, hresp⟩ :=
      @ih { r with direct := some ⟨fr.fragment, fr.offset + d.data.length⟩,
                   request := { r.request with offset := r.request.offset + d.data.length } }
        ⟨fr.fragment, fr.offset + d.data.length⟩ rfl (by simp [hoff]) { w with decomp := ds }
        (by dsimp only; omega) fuel rfl (by simp at hfuel; omega)
    refine ⟨d', h', hf, hl, he, by rw [hoff']; dsimp only; omega, ?_, hresp⟩
    rw [hdir]
    simp only [Option.some.injEq, FragmentReader.mk.injEq, true_and]
    omega

/-! ### The seek -/

theorem seek_eq {validate : ReadResponse → Option Error} {fuel : Nat} {r : Reader}
    {frames : List (Except Error ReadResponse)} {w : Peers} {offset whence : Int}
    (hwhence : whence = 0 ∨ whence = 1) :
    r.seek validate fuel frames w offset whence =
      if r.direct = none ∨ seekTarget r offset whence < r.request.offset then
        some ⟨r, frames, w, r.request.offset, some errSeekRequiresNewReader⟩
      else match r.response.fragment with
        | none => none
        | some f =>
          if seekTarget r offset whence ≥ f.end then
            some ⟨r, frames, w, r.request.offset, some errSeekRequiresNewReader⟩
          else (discardN validate fuel r frames w
              (seekTarget r offset whence - r.request.offset)).map fun d =>
            ⟨d.reader, d.frames, d.peers, d.reader.request.offset,
              if d.left = 0 then none else if 0 < d.left ∧ d.err = none then some .eof
              else d.err⟩ := by
  rw [seek, if_neg (by omega), if_neg (by omega)]

/-- `Reader.Seek` from the start or the current offset fails with `ErrSeekRequiresNewReader`
outside the directly read fragment, and lands exactly on a target ahead within it. -/
theorem seek_spec (validate : ReadResponse → Option Error) (fuel : Nat) (r : Reader)
    (frames : List (Except Error ReadResponse)) (w : Peers) (offset whence : Int)
    (hwhence : whence = 0 ∨ whence = 1) :
    ((r.direct = none ∨ seekTarget r offset whence < r.request.offset ∨
        ∃ f, r.response.fragment = some f ∧ f.end ≤ seekTarget r offset whence) →
      r.seek validate fuel frames w offset whence =
        some ⟨r, frames, w, r.request.offset, some errSeekRequiresNewReader⟩) ∧
    (∀ fr, r.direct = some fr → (∃ f, r.response.fragment = some f ∧ f.end = fr.fragment.end) →
      fr.offset = r.request.offset → r.request.offset ≤ seekTarget r offset whence →
      seekTarget r offset whence < fr.fragment.end →
      Fits w.decomp (seekTarget r offset whence - r.request.offset) → w.decomp.length ≤ fuel →
      ∃ o, r.seek validate fuel frames w offset whence = some o ∧
        o.offset = seekTarget r offset whence ∧ o.err = none ∧
        o.reader.direct = some ⟨fr.fragment, seekTarget r offset whence⟩ ∧
        o.reader.response = r.response ∧ o.frames = frames) := by
  rw [seek_eq hwhence]
  refine ⟨fun h => ?_, fun fr hd hf hoff hle hlt hfits hfuel => ?_⟩
  · by_cases h₁ : r.direct = none ∨ seekTarget r offset whence < r.request.offset
    · rw [if_pos h₁]
    · obtain ⟨f, hf, hend⟩ := (or_assoc.mpr h).resolve_left h₁
      rw [if_neg h₁, hf]
      exact if_pos hend
  · obtain ⟨f, hf, hfe⟩ := hf
    obtain ⟨d, hdis, hfr, hleft, herr, hroff, hdir, hresp⟩ :=
      discardN_fits validate hd hoff frames hfits (by omega) hfuel
    rw [if_neg (by simp [hd]; omega), hf]
    dsimp only
    rw [if_neg (by omega), hdis]
    refine ⟨_, rfl, by dsimp only; omega, by simp [hleft], ?_, hresp, hfr⟩
    rw [hdir, hoff]
    congr 2
    omega

theorem seek_spec_ahead :
    let f : Fragment := ⟨"a/journal", 0, 100, .zero, .gzipOffloadDecompression, "", 0⟩
    let r : Reader := ⟨⟨10, false⟩, ⟨.ok, 0, [], some f, "file:///a"⟩, false,
      some ⟨{ f with compressionCodec := .gzip }, 10⟩⟩
    let w : Peers := ⟨[], [], [⟨List.replicate 12 0, none⟩, ⟨List.replicate 8 0, none⟩]⟩
    ((1 : Int) = 0 ∨ (1 : Int) = 1) ∧ Fits w.decomp (seekTarget r 20 1 - r.request.offset) ∧
    ((r.direct = none ∨ seekTarget r 20 1 < r.request.offset ∨
        ∃ f, r.response.fragment = some f ∧ f.end ≤ seekTarget r 20 1) →
      r.seek (fun _ => none) 2 [] w 20 1 =
        some ⟨r, [], w, r.request.offset, some errSeekRequiresNewReader⟩) ∧
    (∀ fr, r.direct = some fr → (∃ f, r.response.fragment = some f ∧ f.end = fr.fragment.end) →
      fr.offset = r.request.offset → r.request.offset ≤ seekTarget r 20 1 →
      seekTarget r 20 1 < fr.fragment.end →
      Fits w.decomp (seekTarget r 20 1 - r.request.offset) → w.decomp.length ≤ 2 →
      ∃ o, r.seek (fun _ => none) 2 [] w 20 1 = some o ∧
        o.offset = seekTarget r 20 1 ∧ o.err = none ∧
        o.reader.direct = some ⟨fr.fragment, seekTarget r 20 1⟩ ∧
        o.reader.response = r.response ∧ o.frames = []) :=
  ⟨.inr rfl, .read (by decide) (by decide) rfl (.read (by decide) (by decide) rfl .done),
    seek_spec _ _ _ _ _ _ _ (.inr rfl)⟩

end Reader

end Gazette.Client
