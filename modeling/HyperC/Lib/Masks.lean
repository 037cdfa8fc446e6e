import Mathlib.Data.BitVec

/-!
# Words between two masks

A word may be asked to have every bit of one mask and no bit outside another.

* `SubMask a b`       every bit of `a` is a bit of `b`;
* `adjust lo hi x`   the word made from `x`: the bits of `lo` are set, those outside `hi` cleared;
* `sub_adjust`, `adjust_sub`, `requested_adjust`, `adjust_only`   what it has, and that it has no more;
* `and_or_eq_adjust`   between nested masks the adjustment may be made before the request.
-/

namespace Masks

variable {n : ℕ}

/-- every bit of `a` is a bit of `b` -/
def SubMask (a b : BitVec n) : Prop := a &&& ~~~ b = 0#n

instance (a b : BitVec n) : Decidable (SubMask a b) := inferInstanceAs (Decidable (_ = _))

theorem subMask_iff {a b : BitVec n} : SubMask a b ↔ ∀ i, a.getLsbD i = true → b.getLsbD i = true := by
  constructor
  · intro h i ha
    have hlt := BitVec.lt_of_getLsbD ha
    have hbit : (a &&& ~~~ b).getLsbD i = false := by rw [h, BitVec.getLsbD_zero]
    rw [BitVec.getLsbD_and, BitVec.getLsbD_not, ha] at hbit
    simpa [hlt] using hbit
  · intro h
    apply BitVec.eq_of_getLsbD_eq
    intro i hi
    rw [BitVec.getLsbD_and, BitVec.getLsbD_not, BitVec.getLsbD_zero]
    cases ha : a.getLsbD i with
    | false => rfl
    | true => simp [h i ha]

theorem subMask_allOnes (a : BitVec n) : SubMask a (BitVec.allOnes n) := by
  rw [SubMask, BitVec.not_allOnes, BitVec.and_zero]

theorem and_bit_ne_zero (a : BitVec n) {k : ℕ} (hk : k < n) :
    a &&& 1#n <<< k ≠ 0#n ↔ a.getLsbD k = true := by
  have hpow : (BitVec.twoPow n k) ≠ 0#n := by
    intro h
    have hbit := BitVec.getLsbD_twoPow (w := n) k k
    rw [h, BitVec.getLsbD_zero] at hbit
    simp [hk] at hbit
  rw [← BitVec.twoPow_eq, BitVec.and_twoPow]
  cases a.getLsbD k with
  | false => simp
  | true => simpa using hpow

theorem sub_bit {a : BitVec n} {k : ℕ} (hk : k < n) (h : SubMask (1#n <<< k) a) : a.getLsbD k = true := by
  refine subMask_iff.mp h k ?_
  rw [← BitVec.twoPow_eq, BitVec.getLsbD_twoPow]
  simp [hk]

/-- `x` with the bits of `lo` set and those outside `hi` cleared -/
def adjust (lo hi x : BitVec n) : BitVec n := (x ||| lo) &&& hi

variable {lo hi x : BitVec n}

theorem getLsbD_adjust (i : ℕ) : (adjust lo hi x).getLsbD i
    = ((x.getLsbD i || lo.getLsbD i) && hi.getLsbD i) := by
  rw [adjust, BitVec.getLsbD_and, BitVec.getLsbD_or]

theorem sub_adjust (h : SubMask lo hi) : SubMask lo (adjust lo hi x) := by
  refine subMask_iff.mpr fun i hi' => ?_
  rw [getLsbD_adjust, hi', subMask_iff.mp h i hi', Bool.or_true, Bool.and_true]

theorem adjust_sub : SubMask (adjust lo hi x) hi := by
  refine subMask_iff.mpr fun i h => ?_
  rw [getLsbD_adjust, Bool.and_eq_true] at h
  exact h.2

theorem requested_adjust {r : BitVec n} (hr : SubMask r x) (hx : SubMask r hi) : SubMask r (adjust lo hi x) := by
  refine subMask_iff.mpr fun i h => ?_
  rw [getLsbD_adjust, subMask_iff.mp hr i h, subMask_iff.mp hx i h, Bool.true_or, Bool.and_true]

theorem adjust_only : SubMask (adjust lo hi x) (x ||| lo) := by
  refine subMask_iff.mpr fun i h => ?_
  rw [getLsbD_adjust, Bool.and_eq_true] at h
  rw [BitVec.getLsbD_or]
  exact h.1

/-- **between nested masks a permitted request may as well be made last** -/
theorem and_or_eq_adjust (h : SubMask lo hi) (hx : SubMask x hi) : (lo &&& hi) ||| x = adjust lo hi x := by
  apply BitVec.eq_of_getLsbD_eq
  intro i _
  rw [getLsbD_adjust, BitVec.getLsbD_or, BitVec.getLsbD_and]
  have hlo := subMask_iff.mp h i
  have hreq := subMask_iff.mp hx i
  cases hl : lo.getLsbD i <;> cases hr : x.getLsbD i <;> simp_all

end Masks
