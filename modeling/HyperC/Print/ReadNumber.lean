import HyperC.Print.Integer

/-!
# Reading a printed integer back

* `readNumber`        the number that a text of `sprint_integer` stands for;
* `NumberText`        a sign, the prefix of the base, and digits without a leading zero;
* `readNumber_text`   such a text is read as its digits say;
* `sprintInteger_reads`   `sprint_integer` writes such a text, and it is read as the number.
-/

namespace HyperC.Print

/-- the value of a digit; a character that is no digit has no value below `16` -/
def digitValue (c : Byte) : ℕ := hexDigits.idxOf c

def basePrefix (base : BitVec 32) : List Byte :=
  if base = 2#32 then [ch 'b'] else if base = 16#32 then [ch '0', ch 'x'] else []

/-- the number with these digits in the base, the most significant one first -/
def readDigits (base : BitVec 32) (digits : List Byte) : ℕ :=
  Nat.ofDigits base.toNat (digits.reverse.map digitValue)

/-- a minus, the prefix of the base, digits -/
def readNumber (base : BitVec 32) (t : List Byte) : ℤ :=
  if t.head? = some (ch '-') then -(readDigits base (t.tail.drop (basePrefix base).length) : ℤ)
  else readDigits base (t.drop (basePrefix base).length)

/-- the number that is printed: as an `int`, or as an `unsigned` -/
def shown (number : BitVec 32) (isUnsigned : Bool) : ℤ :=
  if isUnsigned then number.toNat else number.toInt

structure NumberText (number base : BitVec 32) (isUnsigned : Bool) (digits t : List Byte) :
    Prop where
  text : t = (if number.toInt < 0 ∧ isUnsigned = false then [ch '-'] else [])
    ++ basePrefix base ++ digits
  nonempty : digits ≠ []
  digit : ∀ c ∈ digits, digitValue c < base.toNat
  leading : digits.head? = some (ch '0') → number = 0#32 ∧ digits = [ch '0']

/-! ## digits -/

/-- the digits that are printed -/
def digitText (base value : BitVec 32) : List Byte :=
  if value = 0#32 then [ch '0'] else ((Nat.digits base.toNat value.toNat).map hexDigit).reverse

theorem digitValue_hexDigit {i : ℕ} (h : i < 16) : digitValue (hexDigit i) = i := by
  have hall : ∀ i < 16, digitValue (hexDigit i) = i := by decide
  exact hall i h

section
variable {base : BitVec 32}

theorem digitText_ne_nil (value : BitVec 32) : digitText base value ≠ [] := by
  unfold digitText
  split
  · exact List.cons_ne_nil _ _
  · next h =>
    rw [Ne, List.reverse_eq_nil_iff, List.map_eq_nil_iff]
    exact Nat.digits_ne_nil_iff_ne_zero.mpr fun h0 => h (BitVec.eq_of_toNat_eq h0)

variable (h2 : 2 ≤ base.toNat) (h16 : base.toNat ≤ 16) (value : BitVec 32)
include h2 h16

theorem digitText_digit : ∀ c ∈ digitText base value, digitValue c < base.toNat := by
  intro c hc
  unfold digitText at hc
  split at hc
  · rw [List.mem_singleton.mp hc]
    exact lt_of_lt_of_le (by decide) h2
  · obtain ⟨d, hd, rfl⟩ := List.mem_map.mp (List.mem_reverse.mp hc)
    have hlt : d < base.toNat := Nat.digits_lt_base (by omega) hd
    rw [digitValue_hexDigit (by omega)]
    exact hlt

theorem digitText_leading (h : (digitText base value).head? = some (ch '0')) :
    value = 0#32 ∧ digitText base value = [ch '0'] := by
  unfold digitText at h ⊢
  split at h
  · next h0 => exact ⟨h0, if_pos h0⟩
  · next h0 =>
    have hv : value.toNat ≠ 0 := fun h => h0 (BitVec.eq_of_toNat_eq h)
    obtain ⟨l, d, hl⟩ := (List.eq_nil_or_concat _).resolve_left
      (Nat.digits_ne_nil_iff_ne_zero.mpr hv : Nat.digits base.toNat value.toNat ≠ [])
    have hd0 : d ≠ 0 := by
      have hlast := Nat.getLast_digit_ne_zero base.toNat hv
      simpa [hl] using hlast
    have hlt : d < base.toNat :=
      Nat.digits_lt_base (by omega) (show d ∈ Nat.digits _ value.toNat by simp [hl])
    rw [hl, List.map_concat, List.concat_eq_append, List.reverse_append, List.reverse_singleton,
      List.singleton_append, List.head?_cons, Option.some_inj] at h
    exact absurd (hexDigit_eq_zero (by omega) h) hd0

/-- **the digits read back** -/
theorem readDigits_digitText : readDigits base (digitText base value) = value.toNat := by
  unfold digitText
  split
  · next h =>
    rw [h, readDigits, List.reverse_singleton, List.map_singleton, Nat.ofDigits_singleton]
    rfl
  · have hvalue : (Nat.digits base.toNat value.toNat).map (digitValue ∘ hexDigit)
        = Nat.digits base.toNat value.toNat := by
      refine (List.map_congr_left fun d hd => ?_).trans (List.map_id _)
      have hlt : d < base.toNat := Nat.digits_lt_base (by omega) hd
      exact digitValue_hexDigit (by omega)
    rw [readDigits, List.reverse_reverse, List.map_map, hvalue, Nat.ofDigits_digits]

end

/-! ## the text -/

section
variable {number base : BitVec 32} {isUnsigned : Bool} {digits t : List Byte}

/-- **a text is read as its digits say**, with the sign before them -/
theorem readNumber_text (h16 : base.toNat ≤ 16) (h : NumberText number base isUnsigned digits t) :
    readNumber base t = if number.toInt < 0 ∧ isUnsigned = false then -(readDigits base digits : ℤ)
      else readDigits base digits := by
  obtain ⟨rfl, hne, hdigit, -⟩ := h
  by_cases hneg : number.toInt < 0 ∧ isUnsigned = false
  · rw [if_pos hneg, if_pos hneg, readNumber, List.append_assoc, List.singleton_append,
      List.head?_cons, if_pos rfl, List.tail_cons, List.drop_left]
  · have hhead : (basePrefix base ++ digits).head? ≠ some (ch '-') := by
      unfold basePrefix
      split_ifs
      · exact (show some (ch 'b') ≠ some (ch '-') by decide)
      · exact (show some (ch '0') ≠ some (ch '-') by decide)
      · intro hd
        rw [List.nil_append] at hd
        have hlt := hdigit _ (List.mem_of_head? hd)
        have h17 : digitValue (ch '-') = 17 := by decide
        omega
    rw [if_neg hneg, if_neg hneg, readNumber, List.nil_append, if_neg hhead, List.drop_left]

/-- the sign and the prefix are written first; what is left is the absolute value -/
theorem addNumberPrefix_eq (number base : BitVec 32) (isUnsigned : Bool) :
    (addNumberPrefix number base isUnsigned).1
      = (if number.toInt < 0 ∧ isUnsigned = false then [ch '-'] else []) ++ basePrefix base ∧
    (addNumberPrefix number base isUnsigned).2
      = if number.toInt < 0 ∧ isUnsigned = false then -number else number := by
  have hslt : number.slt 0#32 = decide (number.toInt < 0) := rfl
  unfold addNumberPrefix basePrefix
  rw [hslt]
  by_cases hneg : number.toInt < 0 ∧ isUnsigned = false
  · rw [if_pos hneg, if_pos hneg, if_pos (by simp [hneg])]
    split_ifs <;> exact ⟨rfl, rfl⟩
  · rw [if_neg hneg, if_neg hneg, if_neg (by simpa using hneg)]
    split_ifs <;> exact ⟨rfl, rfl⟩

theorem neg_eq_zero_iff {number : BitVec 32} : -number = 0#32 ↔ number = 0#32 := by
  rw [← BitVec.toNat_inj, ← BitVec.toNat_inj, BitVec.toNat_neg]
  have hlt := number.isLt
  simp only [BitVec.toNat_ofNat]
  omega

theorem toInt_eq_of_neg {number : BitVec 32} (h : number.toInt < 0) :
    -((-number).toNat : ℤ) = number.toInt := by
  have hlt := number.isLt
  rw [BitVec.toInt_eq_toNat_cond] at h ⊢
  rw [BitVec.toNat_neg]
  split at h <;> omega

theorem toInt_eq_of_nonneg {number : BitVec 32} (h : ¬ number.toInt < 0) :
    (number.toNat : ℤ) = number.toInt := by
  have hlt := number.isLt
  rw [BitVec.toInt_eq_toNat_cond] at h ⊢
  split at h <;> omega

theorem shown_inj {number' : BitVec 32} (h : shown number' isUnsigned = shown number isUnsigned) :
    number' = number := by
  cases isUnsigned with
  | true => exact BitVec.eq_of_toNat_eq (Int.ofNat.inj h)
  | false => exact BitVec.eq_of_toInt_eq h

/-- **what is written**: the sign, the prefix and the digits of the absolute value -/
theorem sprintInteger_eq (number : BitVec 32) (isUnsigned : Bool) (h2 : 2 ≤ base.toNat)
    (h16 : base.toNat ≤ 16) : sprintInteger number base isUnsigned
      = (if number.toInt < 0 ∧ isUnsigned = false then [ch '-'] else []) ++ basePrefix base
        ++ digitText base (if number.toInt < 0 ∧ isUnsigned = false then -number else number) := by
  obtain ⟨hbefore, hvalue⟩ := addNumberPrefix_eq number base isUnsigned
  have hzero : (if number.toInt < 0 ∧ isUnsigned = false then -number else number) = 0#32 ↔
      number = 0#32 := by
    split
    · exact neg_eq_zero_iff
    · exact Iff.rfl
  rw [digitText, ← hvalue, ← hbefore, ← getNumberStart_digits base _ h2 h16, hvalue]
  simp only [hzero]
  rw [← hvalue]
  rfl

theorem sprintInteger_text (number : BitVec 32) (isUnsigned : Bool) (h2 : 2 ≤ base.toNat)
    (h16 : base.toNat ≤ 16) : ∃ digits,
    NumberText number base isUnsigned digits (sprintInteger number base isUnsigned) ∧
    readDigits base digits
      = (if number.toInt < 0 ∧ isUnsigned = false then -number else number).toNat := by
  refine ⟨digitText base (if number.toInt < 0 ∧ isUnsigned = false then -number else number),
    ⟨sprintInteger_eq number isUnsigned h2 h16, digitText_ne_nil _, digitText_digit h2 h16 _,
      fun h => ?_⟩, readDigits_digitText h2 h16 _⟩
  obtain ⟨h0, ht⟩ := digitText_leading h2 h16 _ h
  refine ⟨?_, ht⟩
  split at h0
  · exact neg_eq_zero_iff.mp h0
  · exact h0

/-- a number is a sign, a base and digits, and nothing else -/
theorem not_mem_sprintInteger {c : Byte} (number : BitVec 32) (isUnsigned : Bool)
    (h2 : 2 ≤ base.toNat) (h16 : base.toNat ≤ 16) (hsign : c ≠ ch '-') (hbase : c ∉ basePrefix base)
    (hdigit : 16 ≤ digitValue c) : c ∉ sprintInteger number base isUnsigned := by
  obtain ⟨digits, htext, -⟩ := sprintInteger_text number isUnsigned h2 h16
  intro hc
  rw [htext.text, List.mem_append, List.mem_append] at hc
  rcases hc with (hc | hc) | hc
  · split at hc
    · exact hsign (List.mem_singleton.mp hc)
    · exact List.not_mem_nil hc
  · exact hbase hc
  · have hlt := htext.digit c hc
    omega

/-- no character of a number is NUL -/
theorem sprintInteger_nonzero (number : BitVec 32) (isUnsigned : Bool) (h2 : 2 ≤ base.toNat)
    (h16 : base.toNat ≤ 16) : ∀ c ∈ sprintInteger number base isUnsigned, c ≠ 0#8 := by
  have hbase : 0#8 ∉ basePrefix base := by
    unfold basePrefix
    split_ifs
    · decide
    · decide
    · exact List.not_mem_nil
  intro c hc h0
  rw [h0] at hc
  exact not_mem_sprintInteger number isUnsigned h2 h16 (by decide) hbase (by decide) hc

theorem readNumber_sprintInteger (number : BitVec 32) (isUnsigned : Bool) (h2 : 2 ≤ base.toNat)
    (h16 : base.toNat ≤ 16) :
    readNumber base (sprintInteger number base isUnsigned) = shown number isUnsigned := by
  obtain ⟨digits, htext, hdigits⟩ := sprintInteger_text number isUnsigned h2 h16
  rw [readNumber_text h16 htext, hdigits]
  cases isUnsigned with
  | true => simp [shown]
  | false =>
    by_cases hneg : number.toInt < 0
    · rw [if_pos ⟨hneg, rfl⟩, if_pos ⟨hneg, rfl⟩, toInt_eq_of_neg hneg]
      rfl
    · rw [if_neg fun h => hneg h.1, if_neg fun h => hneg h.1, toInt_eq_of_nonneg hneg]
      rfl

/-- **integer printing can be undone** -/
theorem sprintInteger_reads (number base : BitVec 32) (isUnsigned : Bool) (h2 : 2 ≤ base.toNat)
    (h16 : base.toNat ≤ 16) :
    (∃ digits, NumberText number base isUnsigned digits (sprintInteger number base isUnsigned)) ∧
    readNumber base (sprintInteger number base isUnsigned) = shown number isUnsigned ∧
    ∀ number', sprintInteger number' base isUnsigned = sprintInteger number base isUnsigned →
      number' = number := by
  obtain ⟨digits, htext, -⟩ := sprintInteger_text number isUnsigned h2 h16
  refine ⟨⟨digits, htext⟩, readNumber_sprintInteger _ _ h2 h16, fun number' h => ?_⟩
  have hread := readNumber_sprintInteger number' isUnsigned h2 h16
  rw [h, readNumber_sprintInteger _ _ h2 h16] at hread
  exact shown_inj hread.symm

theorem sprintInteger_reads_min :
    (∃ digits, NumberText (BitVec.intMin 32) 16#32 false digits
      (sprintInteger (BitVec.intMin 32) 16#32 false)) ∧
    readNumber 16#32 (sprintInteger (BitVec.intMin 32) 16#32 false)
      = shown (BitVec.intMin 32) false ∧
    ∀ number', sprintInteger number' 16#32 false = sprintInteger (BitVec.intMin 32) 16#32 false →
      number' = BitVec.intMin 32 :=
  sprintInteger_reads _ _ _ (by decide) (by decide)

end

end HyperC.Print
