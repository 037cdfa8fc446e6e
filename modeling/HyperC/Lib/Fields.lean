import Mathlib.Data.BitVec

/-!
# Bit fields of machine words

A bit field of a word of width `n` is the run of `w` bits that starts at bit `lo`.

* `field lo w v`       the field, as a word of its own width;
* `setField lo v x`    `v` with the field replaced by `x`, every other bit kept (a C bit-field
                       assignment);
* `merge m d s`        the bits of `s` where the mask `m` is set, those of `d` elsewhere;
* `copyField_eq_merge` copying one field from one word to another is a merge, and
  `merge_merge`        merges from one source compose by the union of their masks, so that a run
                       of field copies is ONE merge;
* `field_merge_off`, `field_merge_on`  what a field of a merge is when the mask misses or covers it.
-/

namespace Bits

variable {n w : Nat}

/-- the `w` bits of `v` from bit `lo` on -/
def field (lo w : Nat) (v : BitVec n) : BitVec w := v.extractLsb' lo w

/-- the word whose set bits are those of the field -/
def fieldMask (n lo w : Nat) : BitVec n := (BitVec.allOnes w).setWidth n <<< lo

/-- `v` with the field at `lo` replaced by `x` -/
def setField (lo : Nat) (v : BitVec n) (x : BitVec w) : BitVec n :=
  (v &&& ~~~ fieldMask n lo w) ||| (x.setWidth n <<< lo)

/-- bits of `s` where the mask is set, bits of `d` elsewhere -/
def merge (m d s : BitVec n) : BitVec n := (d &&& ~~~ m) ||| (s &&& m)

theorem getLsbD_field (lo w : Nat) (v : BitVec n) (i : Nat) :
    (field lo w v).getLsbD i = (decide (i < w) && v.getLsbD (lo + i)) := by
  simp [field]

theorem getLsbD_fieldMask (n lo w i : Nat) :
    (fieldMask n lo w).getLsbD i = (decide (i < n) && decide (lo ≤ i) && decide (i < lo + w)) := by
  simp only [fieldMask, BitVec.getLsbD_shiftLeft, BitVec.getLsbD_setWidth, BitVec.getLsbD_allOnes]
  by_cases h1 : i < n <;> by_cases h2 : lo ≤ i <;> by_cases h3 : i < lo + w <;>
    simp [h1, h2, h3] <;> omega

theorem getLsbD_setField (lo : Nat) (v : BitVec n) (x : BitVec w) (i : Nat) :
    (setField lo v x).getLsbD i
      = if lo ≤ i ∧ i < lo + w then decide (i < n) && x.getLsbD (i - lo) else v.getLsbD i := by
  simp only [setField, BitVec.getLsbD_or, BitVec.getLsbD_and, BitVec.getLsbD_not,
    getLsbD_fieldMask, BitVec.getLsbD_shiftLeft, BitVec.getLsbD_setWidth]
  by_cases h1 : i < n
  · by_cases h2 : lo ≤ i
    · by_cases h3 : i < lo + w
      · have h4 : i - lo < n := by omega
        simp [h1, h2, h3, h4]
      · have h4 : x.getLsbD (i - lo) = false := BitVec.getLsbD_of_ge _ _ (by omega)
        simp [h1, h3, h4]
    · have h4 : i < lo := by omega
      simp [h1, h2, h4]
  · have h4 : v.getLsbD i = false := BitVec.getLsbD_of_ge _ _ (by omega)
    simp [h1, h4]

theorem getLsbD_merge (m d s : BitVec n) (i : Nat) :
    (merge m d s).getLsbD i = if m.getLsbD i then s.getLsbD i else d.getLsbD i := by
  by_cases h : i < n
  · simp only [merge, BitVec.getLsbD_or, BitVec.getLsbD_and, BitVec.getLsbD_not, h, decide_true]
    cases m.getLsbD i <;> simp
  · have hm : m.getLsbD i = false := BitVec.getLsbD_of_ge _ _ (by omega)
    have hd : d.getLsbD i = false := BitVec.getLsbD_of_ge _ _ (by omega)
    simp [merge, hm, hd]

theorem field_setField_same (lo : Nat) (v : BitVec n) (x : BitVec w) (h : lo + w ≤ n) :
    field lo w (setField lo v x) = x := by
  apply BitVec.eq_of_getLsbD_eq
  intro i hi
  rw [getLsbD_field, getLsbD_setField, if_pos ⟨by omega, by omega⟩]
  have h1 : lo + i < n := by omega
  simp [hi, h1]

theorem field_setField_disjoint {k : Nat} (lo lo' : Nat) (v : BitVec n) (x : BitVec w)
    (h : lo' + k ≤ lo ∨ lo + w ≤ lo') : field lo' k (setField lo v x) = field lo' k v := by
  apply BitVec.eq_of_getLsbD_eq
  intro i hi
  rw [getLsbD_field, getLsbD_field, getLsbD_setField, if_neg (by omega)]

theorem copyField_eq_merge (lo w : Nat) (d s : BitVec n) :
    setField lo d (field lo w s) = merge (fieldMask n lo w) d s := by
  apply BitVec.eq_of_getLsbD_eq
  intro i hi
  rw [getLsbD_setField, getLsbD_merge, getLsbD_fieldMask, getLsbD_field]
  by_cases h : lo ≤ i ∧ i < lo + w
  · have h1 : i - lo < w := by omega
    have h2 : lo + (i - lo) = i := by omega
    simp [h, hi, h1, h2]
  · rw [if_neg h]
    have h1 : (decide (i < n) && decide (lo ≤ i) && decide (i < lo + w)) = false := by
      simp only [Bool.and_eq_false_iff, decide_eq_false_iff_not]
      omega
    simp [h1]

theorem merge_merge (m₁ m₂ d s : BitVec n) :
    merge m₂ (merge m₁ d s) s = merge (m₁ ||| m₂) d s := by
  apply BitVec.eq_of_getLsbD_eq
  intro i _
  simp only [getLsbD_merge, BitVec.getLsbD_or]
  cases m₁.getLsbD i <;> cases m₂.getLsbD i <;> rfl

theorem merge_and_mask (m d s : BitVec n) : merge m d s &&& m = s &&& m := by
  apply BitVec.eq_of_getLsbD_eq
  intro i _
  simp only [BitVec.getLsbD_and, getLsbD_merge]
  cases m.getLsbD i <;> simp

theorem merge_and_not_mask (m d s : BitVec n) : merge m d s &&& ~~~ m = d &&& ~~~ m := by
  apply BitVec.eq_of_getLsbD_eq
  intro i hi
  simp only [BitVec.getLsbD_and, getLsbD_merge, BitVec.getLsbD_not, hi, decide_true]
  cases m.getLsbD i <;> simp

private theorem mask_bit {m : BitVec n} {lo w i : Nat} (v : BitVec n)
    (h : fieldMask n lo w &&& m = v) (hi : i < w) (hn : lo + i < n) :
    m.getLsbD (lo + i) = v.getLsbD (lo + i) := by
  rw [← h, BitVec.getLsbD_and, getLsbD_fieldMask]
  have h1 : lo ≤ lo + i := by omega
  have h2 : lo + i < lo + w := by omega
  simp [h1, h2, hn]

theorem field_merge_off (m d s : BitVec n) (lo w : Nat) (h : fieldMask n lo w &&& m = 0#n) :
    field lo w (merge m d s) = field lo w d := by
  apply BitVec.eq_of_getLsbD_eq
  intro i hi
  rw [getLsbD_field, getLsbD_field, getLsbD_merge]
  by_cases hn : lo + i < n
  · rw [mask_bit _ h hi hn]
    simp
  · rw [BitVec.getLsbD_of_ge _ _ (by omega), BitVec.getLsbD_of_ge _ _ (by omega)]
    simp

theorem field_merge_on (m d s : BitVec n) (lo w : Nat)
    (h : fieldMask n lo w &&& m = fieldMask n lo w) :
    field lo w (merge m d s) = field lo w s := by
  apply BitVec.eq_of_getLsbD_eq
  intro i hi
  rw [getLsbD_field, getLsbD_field, getLsbD_merge]
  by_cases hn : lo + i < n
  · rw [mask_bit _ h hi hn, getLsbD_fieldMask]
    have h1 : lo ≤ lo + i := by omega
    have h2 : lo + i < lo + w := by omega
    simp [h1, h2, hn]
  · have hd : d.getLsbD (lo + i) = false := BitVec.getLsbD_of_ge _ _ (by omega)
    have hs : s.getLsbD (lo + i) = false := BitVec.getLsbD_of_ge _ _ (by omega)
    simp [hd, hs]

/-! ## words that agree under a mask -/

theorem getLsbD_congr {m a b : BitVec n} (i : Nat) (h : a &&& m = b &&& m)
    (hm : m.getLsbD i = true) : a.getLsbD i = b.getLsbD i := by
  have hi := congrArg (fun v => BitVec.getLsbD v i) h
  simpa only [BitVec.getLsbD_and, hm, Bool.and_true] using hi

theorem field_congr {m a b : BitVec n} (lo w : Nat) (h : a &&& m = b &&& m)
    (hm : fieldMask n lo w &&& m = fieldMask n lo w) : field lo w a = field lo w b := by
  apply BitVec.eq_of_getLsbD_eq
  intro i hi
  rw [getLsbD_field, getLsbD_field]
  by_cases hn : lo + i < n
  · have hbit : m.getLsbD (lo + i) = true := by
      rw [mask_bit _ hm hi hn, getLsbD_fieldMask]
      simp [hi, hn]
    rw [getLsbD_congr _ h hbit]
  · rw [BitVec.getLsbD_of_ge a _ (by omega), BitVec.getLsbD_of_ge b _ (by omega)]

theorem getLsbD_low32 (v : BitVec 64) (i : Nat) :
    (v &&& 0xffffffff#64).getLsbD i = (v.getLsbD i && decide (i < 32)) := by
  have hmask : (0xffffffff#64 : BitVec 64) = (BitVec.allOnes 32).setWidth 64 := by decide
  rw [hmask, BitVec.getLsbD_and, BitVec.getLsbD_setWidth, BitVec.getLsbD_allOnes]
  by_cases h : i < 64
  · simp [h]
  · rw [BitVec.getLsbD_of_ge v i (by omega)]
    simp

/-- **a word is its two halves** -/
theorem halves_or (v : BitVec 64) : ((v >>> 32) <<< 32) ||| (v &&& 0xffffffff#64) = v := by
  apply BitVec.eq_of_getLsbD_eq
  intro i hi
  rw [BitVec.getLsbD_or, getLsbD_low32, BitVec.getLsbD_shiftLeft, BitVec.getLsbD_ushiftRight]
  by_cases h : i < 32
  · simp [h]
  · have h1 : 32 + (i - 32) = i := by omega
    simp [h, h1, hi]

end Bits
