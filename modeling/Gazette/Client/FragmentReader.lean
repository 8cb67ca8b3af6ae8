import Mathlib.Order.Basic
import Gazette.Protocol

/-! `FragmentReader`, which reads the decompressed content of a fragment and keeps
`Offset`, the journal offset of the next byte. The decompressor lies outside this excerpt:
each of its `Read`s is an input, the bytes it wrote into the caller's buffer (never more
than the buffer holds) and its error. -/

namespace Gazette.Client

def errDidNotReadExpectedEOF : Error := .new "did not read EOF at expected Fragment.End"

/-- What one `decomp.Read(p)` returns: the bytes it wrote into `p`, and its error. -/
structure DecompRead where
  data : List UInt8
  err : Option Error
  deriving DecidableEq, Repr

/-- What a `Read(p)` returns: `n`, the bytes `p[:n]`, and the error. -/
structure ReadResult where
  n : Int
  data : List UInt8
  err : Option Error
  deriving DecidableEq, Repr

/-- A `FragmentReader`: the fragment it reads, and `Offset`. -/
structure FragmentReader where
  fragment : Fragment
  offset : Int
  deriving DecidableEq, Repr

namespace FragmentReader

/-- `FragmentReader.Read`, `d` being what the decompressor's `Read` returns. -/
def read (fr : FragmentReader) (d : DecompRead) : FragmentReader × ReadResult :=
  let n : Int := d.data.length
  let fr := { fr with offset := fr.offset + n }
  if fr.offset > fr.fragment.end then
    let n := n - (fr.offset - fr.fragment.end)
    (fr, ⟨n, d.data.take n.toNat, some errDidNotReadExpectedEOF⟩)
  else if d.err = some .eof ∧ fr.offset ≠ fr.fragment.end then
    (fr, ⟨n, d.data, some .unexpectedEOF⟩)
  else (fr, ⟨n, d.data, d.err⟩)

/-- A sequence of `Read` calls, each answered by the decompressor's next `Read`. -/
def readAll (fr : FragmentReader) : List DecompRead → FragmentReader × List ReadResult
  | [] => (fr, [])
  | d :: ds =>
    let r := fr.read d
    let rest := r.1.readAll ds
    (rest.1, r.2 :: rest.2)

def returned : List ReadResult → Int
  | [] => 0
  | r :: rs => r.n + returned rs

@[simp] theorem read_fragment (fr : FragmentReader) (d : DecompRead) :
    (fr.read d).1.fragment = fr.fragment := by
  unfold read; dsimp only; split_ifs <;> rfl

@[simp] theorem read_offset (fr : FragmentReader) (d : DecompRead) :
    (fr.read d).1.offset = fr.offset + d.data.length := by
  unfold read; dsimp only; split_ifs <;> rfl

/-- What `FragmentReader.Read` does with a decompressor read. -/
theorem read_cases (fr : FragmentReader) (d : DecompRead) :
    (fr.read d).1 = { fr with offset := fr.offset + d.data.length } ∧
    ((fr.fragment.end < fr.offset + d.data.length ∧ (fr.read d).2 =
        ⟨fr.fragment.end - fr.offset, d.data.take (fr.fragment.end - fr.offset).toNat,
          some errDidNotReadExpectedEOF⟩) ∨
      (fr.offset + d.data.length ≤ fr.fragment.end ∧ d.err = some .eof ∧
        fr.offset + d.data.length ≠ fr.fragment.end ∧
        (fr.read d).2 = ⟨d.data.length, d.data, some .unexpectedEOF⟩) ∨
      (fr.offset + d.data.length ≤ fr.fragment.end ∧
        (d.err = some .eof → fr.offset + d.data.length = fr.fragment.end) ∧
        (fr.read d).2 = ⟨d.data.length, d.data, d.err⟩)) := by
  unfold read
  dsimp only
  split_ifs with h1 h2
  · refine ⟨rfl, .inl ⟨h1, ?_⟩⟩
    have : (d.data.length : Int) - (fr.offset + d.data.length - fr.fragment.end) =
        fr.fragment.end - fr.offset := by omega
    rw [this]
  · exact ⟨rfl, .inr (.inl ⟨by omega, h2.1, h2.2, rfl⟩)⟩
  · exact ⟨rfl, .inr (.inr ⟨by omega, fun he => by_contra fun hne => h2 ⟨he, hne⟩, rfl⟩)⟩

/-- Six bytes in a fragment `[0, 4)`: `Offset` ends past `End`, and the second `Read` returns
`n = -2`. -/
theorem readAll_past_end :
    let fr : FragmentReader :=
      ⟨⟨"a/journal", 0, 4, .zero, .none, "", 0⟩, 0⟩
    let out := fr.readAll [⟨[1, 2, 3, 4, 5, 6], none⟩, ⟨[], some .eof⟩]
    out.2.map (·.n) = [4, -2] ∧ out.1.offset = 6 ∧ out.1.offset > fr.fragment.end ∧
      out.1.offset ≠ fr.offset + returned out.2 := by
  decide

end FragmentReader

end Gazette.Client
