import Mathlib

/-!
# Layout of C structs and bit-field structs

A C struct places its members in order, each at the next multiple of its alignment; `packed`
drops that padding, `aligned` raises the alignment of the whole, and the size is rounded up to the
alignment.  A struct of bit fields packs its widths from bit 0 on.

* `CStruct.offset`, `CStruct.size`   where member `k` starts, and the size of the struct;
* `BitStruct.lo`, `BitStruct.width`, `BitStruct.size`   the same for bit fields.
-/

namespace Layout

/-- `n` rounded up to a multiple of `a` -/
def alignUp (n a : ℕ) : ℕ := (n + a - 1) / a * a

/-- a member of a struct: its size and the alignment of its type -/
structure Member where
  size : ℕ
  align : ℕ

/-- a C struct with its `packed` and `aligned(..)` attributes (`aligned := 1` when absent) -/
structure CStruct where
  members : List Member
  packed : Bool
  aligned : ℕ

namespace CStruct

/-- where a member is placed when the members before it end at `pos` -/
def place (packed : Bool) (pos : ℕ) (m : Member) : ℕ :=
  if packed then pos else alignUp pos m.align

/-- where a list of members that starts at `pos` ends -/
def stop (packed : Bool) (pos : ℕ) : List Member → ℕ
  | [] => pos
  | m :: ms => stop packed (place packed pos m + m.size) ms

/-- the offset of member `k` -/
def offset (s : CStruct) (k : ℕ) : ℕ :=
  place s.packed (stop s.packed 0 (s.members.take k)) (s.members.getD k ⟨0, 1⟩)

/-- the alignment of the struct -/
def align (s : CStruct) : ℕ :=
  max s.aligned (if s.packed then 1 else s.members.foldl (fun a m => max a m.align) 1)

/-- `sizeof` -/
def size (s : CStruct) : ℕ := alignUp (stop s.packed 0 s.members) s.align

/-- the struct as a member of another one -/
def member (s : CStruct) : Member := ⟨s.size, s.align⟩

end CStruct

/-- `n` consecutive elements of a type -/
def array (n : ℕ) (m : Member) : Member := ⟨n * m.size, m.align⟩

/-- a packed struct of bit fields: the widths in declaration order, unnamed ones included, and its
`aligned(..)` attribute -/
structure BitStruct where
  widths : List ℕ
  aligned : ℕ

namespace BitStruct

/-- the first bit of field `k` -/
def lo (s : BitStruct) (k : ℕ) : ℕ := (s.widths.take k).sum

/-- the width of field `k` -/
def width (s : BitStruct) (k : ℕ) : ℕ := s.widths.getD k 0

/-- `sizeof` -/
def size (s : BitStruct) : ℕ := alignUp ((s.widths.sum + 7) / 8) s.aligned

end BitStruct

end Layout
