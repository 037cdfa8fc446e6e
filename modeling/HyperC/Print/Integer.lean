import Mathlib.Data.List.TakeWhile
import Mathlib.Data.Nat.Digits.Lemmas
import HyperC.Machine.State

/-!
# `sprint_integer`

The text of an `int` in a base: the sign, the prefix of the base, and the digits.

* `addNumberPrefix`, `digitLoop`, `getNumberStart`, `sprintInteger`   the functions;
* `digitLoop_eq`          digit `i` from the right is that of the positional notation;
* `getNumberStart_digits` without its leading zeros the buffer holds the digits of the number;
* `number_digits`         a number that is not zero has a first digit;
* `sprintInteger_signed`, `sprintInteger_unsigned`   a negative number begins with its sign, unless
                          it is unsigned.
-/

namespace HyperC.Print

abbrev Byte := BitVec 8

def ch (c : Char) : Byte := BitVec.ofNat 8 c.toNat

/-- the string `HEX_DIGITS`, its terminator included -/
def hexDigits : List Byte :=
  [ch '0', ch '1', ch '2', ch '3', ch '4', ch '5', ch '6', ch '7', ch '8', ch '9', ch 'A', ch 'B',
    ch 'C', ch 'D', ch 'E', ch 'F', 0#8]

def hexDigit (i : ℕ) : Byte := hexDigits.getD i 0#8

def maximumBinaryLength : ℕ := 64

/-- what `add_number_prefix` stores, and the number it leaves in `*number` -/
def addNumberPrefix (number base : BitVec 32) (isUnsigned : Bool) : List Byte × BitVec 32 :=
  let (sign, number) :=
    if number.slt 0#32 && !isUnsigned then ([ch '-'], -number) else ([], number)
  if base = 2#32 then (sign ++ [ch 'b'], number)
  else if base = 16#32 then (sign ++ [ch '0', ch 'x'], number)
  else (sign, number)

/-- the loop that fills `n` positions from the right, before what is there already -/
def digitLoop (base : BitVec 32) : ℕ → BitVec 32 → List Byte → List Byte
  | 0, _, buffer => buffer
  | n + 1, value, buffer =>
    digitLoop base n (value / base) (hexDigit (value % base).toNat :: buffer)

def getNumberStart (str : List Byte) : List Byte := str.dropWhile (· == ch '0')

def sprintInteger (number base : BitVec 32) (isUnsigned : Bool) : List Byte :=
  let (str, value) := addNumberPrefix number base isUnsigned
  let numberBuffer := digitLoop base maximumBinaryLength value []
  str ++ if number = 0#32 then [ch '0'] else getNumberStart numberBuffer

/-! ## digits -/

section
variable (base value : BitVec 32) (n : ℕ) (buffer : List Byte)

/-- **positional notation**: the loop stores digit `i` of the value at position `i` from the right -/
theorem digitLoop_eq : digitLoop base n value buffer
    = ((List.range n).map fun i => hexDigit (value.toNat / base.toNat ^ i % base.toNat)).reverse
      ++ buffer := by
  induction n generalizing value buffer with
  | zero => rfl
  | succ n ih =>
    have hdigit : ∀ i, value.toNat / base.toNat / base.toNat ^ i % base.toNat
        = value.toNat / base.toNat ^ (i + 1) % base.toNat := fun i => by
      rw [Nat.div_div_eq_div_mul, pow_succ']
    rw [digitLoop, ih, BitVec.toNat_udiv, BitVec.toNat_umod, List.range_succ_eq_map, List.map_cons,
      List.map_map, List.reverse_cons, List.append_assoc, pow_zero, Nat.div_one]
    simp only [hdigit]
    rfl

theorem hexDigit_ne_minus (i : ℕ) : hexDigit i ≠ ch '-' := by
  by_cases h : i < 17
  · have hall : ∀ i < 17, hexDigit i ≠ ch '-' := by decide
    exact hall i h
  · have hnone : hexDigits[i]? = none := List.getElem?_eq_none (show 17 ≤ i by omega)
    rw [hexDigit, List.getD_eq_getElem?_getD, hnone]
    decide

theorem hexDigit_zero : hexDigit 0 = ch '0' := rfl

theorem hexDigit_eq_zero {i : ℕ} (h : i < 16) (h0 : hexDigit i = ch '0') : i = 0 := by
  have hall : ∀ i < 16, hexDigit i = ch '0' → i = 0 := by decide
  exact hall i h h0

/-- the buffer holds the digits of the number, and zeros before them -/
theorem digitLoop_digits (h2 : 2 ≤ base.toNat) (hv : value.toNat < base.toNat ^ n) :
    digitLoop base n value []
      = ((Nat.digitsAppend base.toNat n value.toNat).map hexDigit).reverse := by
  have hlen : (Nat.digitsAppend base.toNat n value.toNat).length = n :=
    Nat.length_digitsAppend (by omega) n hv
  have hdigit : ∀ i (hi : i < (Nat.digitsAppend base.toNat n value.toNat).length),
      (Nat.digitsAppend base.toNat n value.toNat)[i] = value.toNat / base.toNat ^ i % base.toNat := by
    intro i hi
    rw [← Nat.getD_digits _ _ h2, List.getElem_eq_getD 0, Nat.digitsAppend,
      List.getD_eq_getElem?_getD, List.getD_eq_getElem?_getD, List.getElem?_append]
    split
    · rfl
    · next h =>
      have hnone : (Nat.digits base.toNat value.toNat)[i]? = none :=
        List.getElem?_eq_none (Nat.le_of_not_lt h)
      rw [hnone, List.getElem?_replicate]
      split <;> rfl
  rw [digitLoop_eq, List.append_nil]
  congr 1
  apply List.ext_getElem
  · rw [List.length_map, List.length_map, List.length_range, hlen]
  · intro i h₁ h₂
    rw [List.getElem_map, List.getElem_map, List.getElem_range, hdigit]

/-- **the text of a number is made of its digits**, the last one first in `Nat.digits` -/
theorem getNumberStart_digits (h2 : 2 ≤ base.toNat) (h16 : base.toNat ≤ 16) :
    getNumberStart (digitLoop base maximumBinaryLength value [])
      = ((Nat.digits base.toNat value.toNat).map hexDigit).reverse := by
  have hpow : value.toNat < base.toNat ^ maximumBinaryLength :=
    calc value.toNat < 2 ^ 32 := value.isLt
      _ ≤ 2 ^ maximumBinaryLength := Nat.pow_le_pow_right (by omega) (by decide)
      _ ≤ base.toNat ^ maximumBinaryLength := Nat.pow_le_pow_left h2 _
  have hzeros : ∀ k l, getNumberStart (List.replicate k (ch '0') ++ l) = getNumberStart l :=
    fun k l => List.dropWhile_append_of_pos fun c hc => by
      rw [List.eq_of_mem_replicate hc, beq_self_eq_true]
  rw [digitLoop_digits base value _ h2 hpow, Nat.digitsAppend, List.map_append, List.reverse_append,
    List.map_replicate, List.reverse_replicate, hexDigit_zero, hzeros]
  by_cases h0 : value.toNat = 0
  · rw [h0, Nat.digits_zero]
    rfl
  · -- the last of the digits is not zero, so nothing more is dropped
    obtain ⟨l, d, hl⟩ := (List.eq_nil_or_concat _).resolve_left
      (Nat.digits_ne_nil_iff_ne_zero.mpr h0 : Nat.digits base.toNat value.toNat ≠ [])
    have hd0 : d ≠ 0 := by
      have h := Nat.getLast_digit_ne_zero base.toNat h0
      simpa [hl] using h
    have hlt : d < base.toNat :=
      Nat.digits_lt_base (by omega) (show d ∈ Nat.digits _ value.toNat by simp [hl])
    have hd : (hexDigit d == ch '0') = false :=
      beq_eq_false_iff_ne.mpr fun h => hd0 (hexDigit_eq_zero (by omega) h)
    rw [hl, List.map_concat, List.concat_eq_append, List.reverse_append, List.reverse_singleton,
      List.singleton_append, getNumberStart,
      List.dropWhile_cons_of_neg (by rw [hd]; exact Bool.false_ne_true)]

end

section
variable {number base : BitVec 32}

/-- **a number that is not zero has a first digit**, which is no minus -/
theorem number_digits (hn : number ≠ 0#32) (h2 : 2 ≤ base.toNat) (h16 : base.toNat ≤ 16) :
    ∃ c t, getNumberStart (digitLoop base maximumBinaryLength number []) = c :: t ∧ c ≠ ch '-' := by
  have h0 : number.toNat ≠ 0 := fun h => hn (BitVec.eq_of_toNat_eq h)
  have hne : ((Nat.digits base.toNat number.toNat).map hexDigit).reverse ≠ [] := by
    rw [Ne, List.reverse_eq_nil_iff, List.map_eq_nil_iff]
    exact Nat.digits_ne_nil_iff_ne_zero.mpr h0
  obtain ⟨c, t, hct⟩ := List.exists_cons_of_ne_nil hne
  refine ⟨c, t, (getNumberStart_digits base number h2 h16).trans hct, ?_⟩
  have hmem : c ∈ ((Nat.digits base.toNat number.toNat).map hexDigit).reverse := by
    rw [hct]
    exact List.mem_cons_self
  obtain ⟨i, -, rfl⟩ := List.mem_map.mp (List.mem_reverse.mp hmem)
  exact hexDigit_ne_minus i

/-- **a negative number begins with its sign** -/
theorem sprintInteger_signed (h : number.slt 0#32) :
    ∃ t, sprintInteger number base false = ch '-' :: t := by
  unfold sprintInteger addNumberPrefix
  simp only [h, Bool.not_false, Bool.and_self, if_true]
  split_ifs <;> exact ⟨_, rfl⟩

theorem sprintInteger_unsigned (h : number.slt 0#32) (h2 : 2 ≤ base.toNat) (h16 : base.toNat ≤ 16) :
    ∃ c t, sprintInteger number base true = c :: t ∧ c ≠ ch '-' := by
  have hn : number ≠ 0#32 := fun h0 => by rw [h0] at h; exact absurd h (by decide)
  obtain ⟨c, t, hct, hc⟩ := number_digits hn h2 h16
  unfold sprintInteger addNumberPrefix
  simp only [Bool.not_true, Bool.and_false, Bool.false_eq_true, if_false, hn]
  split_ifs
  · exact ⟨_, _, rfl, by decide⟩
  · exact ⟨_, _, rfl, by decide⟩
  · exact ⟨c, t, hct, hc⟩

theorem sprintInteger_nonneg (h : number.slt 0#32 = false) :
    sprintInteger number base true = sprintInteger number base false := by
  unfold sprintInteger addNumberPrefix
  simp only [h, Bool.false_and]

end

end HyperC.Print
