import Mathlib.Data.BitVec
import HyperC.Lib.Memory

/-!
# `memcpy` and `memset`

Both loops compare an `int` with a `size_t`.  The counter is sign-extended for the comparison and for
the index; incremented at `2 ^ 31 - 1` it overflows, and then it is taken to go on at `-2 ^ 31`.

* `byteLoop`, `memcpy`, `memset`   the loop and the two functions;
* `written`              the memory after `n` steps, and what it holds (`written_inside`,
                         `written_outside`);
* `byteLoop_eq`          the loop up to a counter that has not overflowed;
* `byteLoop_short`, `byteLoop_long`   counts below `2 ^ 31`, and the others;
* `memcpy_memset_iff`    when the functions do what they are asked for.
-/

namespace HyperC.Utils

/-- the memory, and whether the counter has been incremented at `INT_MAX` -/
structure Filled where
  mem : Mem
  overflowed : Bool

section
variable (dst count : BitVec 64) (value : BitVec 64 → Mem → BitVec 8)

/-- one round of the loop: `((char*)dst)[i] = value` and `i++` -/
def byteStep (i : BitVec 32) (s : Filled) : Filled where
  mem := Function.update s.mem (dst + i.signExtend 64).toNat (value (i.signExtend 64) s.mem)
  overflowed := s.overflowed || i == BitVec.intMax 32

theorem counter_lt {i : BitVec 32} (h : (i.signExtend 64).ult count) : i.toNat < 2 ^ 32 - 1 := by
  by_contra hge
  have hi : i = BitVec.allOnes 32 := by
    apply BitVec.eq_of_toNat_eq
    have hlt := i.isLt
    rw [BitVec.toNat_allOnes]
    omega
  rw [hi, BitVec.ult_iff_lt, BitVec.lt_def] at h
  have hlast : ((BitVec.allOnes 32).signExtend 64).toNat = 2 ^ 64 - 1 := by decide
  have hcount := count.isLt
  omega

/-- `for (; i < count; i++)` -/
def byteLoop (i : BitVec 32) (s : Filled) : Filled :=
  if _ : (i.signExtend 64).ult count then byteLoop (i + 1#32) (byteStep dst value i s) else s
termination_by 2 ^ 32 - i.toNat
decreasing_by
  have hlt := counter_lt count ‹_›
  rw [BitVec.toNat_add, BitVec.toNat_ofNat]
  omega

end

/-- the returned pointer, and what the loop leaves -/
def memcpy (m : Mem) (dst src count : BitVec 64) : BitVec 64 × Filled :=
  (dst, byteLoop dst count (fun i m => m (src + i).toNat) 0#32 ⟨m, false⟩)

def memset (m : Mem) (str : BitVec 64) (c : BitVec 32) (n : BitVec 64) : BitVec 64 × Filled :=
  (str, byteLoop str n (fun _ _ => c.setWidth 8) 0#32 ⟨m, false⟩)

/-- the bytes at `dst` are the values, nothing else is changed, and the counter has not overflowed -/
structure Fills (m : Mem) (dst count : ℕ) (value : ℕ → BitVec 8) (s : Filled) : Prop where
  inside : ∀ i < count, s.mem (dst + i) = value i
  outside : ∀ x, x < dst ∨ dst + count ≤ x → s.mem x = m x
  counter : s.overflowed = false

/-! ## the memory after `n` steps -/

section
variable (dst count : BitVec 64) (value : BitVec 64 → Mem → BitVec 8) (m : Mem) {n : ℕ}

def written : ℕ → Mem
  | 0 => m
  | n + 1 => Function.update (written n) (dst.toNat + n) (value (BitVec.ofNat 64 n) (written n))

theorem written_succ (n : ℕ) : written dst value m (n + 1) = Function.update (written dst value m n)
    (dst.toNat + n) (value (BitVec.ofNat 64 n) (written dst value m n)) := rfl

theorem written_outside (x : ℕ) (h : x < dst.toNat ∨ dst.toNat + n ≤ x) :
    written dst value m n x = m x := by
  induction n with
  | zero => rfl
  | succ n ih => rw [written_succ, Function.update_of_ne (by omega), ih (by omega)]

/-- **every byte is the value of the start**, if the values do not depend on what is written -/
theorem written_inside (v : ℕ → BitVec 8)
    (hvalue : ∀ k < n, value (BitVec.ofNat 64 k) (written dst value m k) = v k) :
    ∀ i < n, written dst value m n (dst.toNat + i) = v i := by
  induction n with
  | zero => exact fun i hi => absurd hi (Nat.not_lt_zero i)
  | succ n ih =>
    intro i hi
    rw [written_succ]
    by_cases h : i = n
    · subst h
      rw [Function.update_self, hvalue i hi]
    · rw [Function.update_of_ne (by omega), ih (fun k hk => hvalue k (by omega)) i (by omega)]

/-! ## the loop -/

theorem signExtend_ofNat (hn : n < 2 ^ 31) :
    (BitVec.ofNat 32 n).signExtend 64 = BitVec.ofNat 64 n := by
  have h32 : (BitVec.ofNat 32 n).toNat = n := Nat.mod_eq_of_lt (by omega)
  have h64 : (BitVec.ofNat 64 n).toNat = n := Nat.mod_eq_of_lt (by omega)
  apply BitVec.eq_of_toInt_eq
  rw [BitVec.toInt_signExtend_of_le (by omega), BitVec.toInt_eq_toNat_of_lt (by omega),
    BitVec.toInt_eq_toNat_of_lt (by omega), h32, h64]

theorem byteLoop_of_lt {i : BitVec 32} {s : Filled} (h : (i.signExtend 64).ult count) :
    byteLoop dst count value i s = byteLoop dst count value (i + 1#32) (byteStep dst value i s) := by
  rw [byteLoop, dif_pos h]

theorem byteLoop_of_ge {i : BitVec 32} {s : Filled} (h : ¬ (i.signExtend 64).ult count) :
    byteLoop dst count value i s = s := by
  rw [byteLoop, dif_neg h]

theorem byteLoop_eq (hdst : dst.toNat + count.toNat ≤ 2 ^ 64) (hn : n ≤ 2 ^ 31)
    (hcount : n ≤ count.toNat) : byteLoop dst count value 0#32 ⟨m, false⟩
      = byteLoop dst count value (BitVec.ofNat 32 n) ⟨written dst value m n, decide (n = 2 ^ 31)⟩ := by
  induction n with
  | zero => rfl
  | succ n ih =>
    have hext : (BitVec.ofNat 32 n).signExtend 64 = BitVec.ofNat 64 n :=
      signExtend_ofNat (by omega)
    have hlt : ((BitVec.ofNat 32 n).signExtend 64).ult count := by
      rw [hext, BitVec.ult_iff_lt, BitVec.lt_def, BitVec.toNat_ofNat]
      omega
    have haddr : (dst + BitVec.ofNat 64 n).toNat = dst.toNat + n := by
      rw [BitVec.toNat_add, BitVec.toNat_ofNat]
      omega
    have hmax : (BitVec.ofNat 32 n == BitVec.intMax 32) = decide (n + 1 = 2 ^ 31) := by
      rw [Bool.eq_iff_iff, beq_iff_eq, decide_eq_true_iff, ← BitVec.toNat_inj, BitVec.toNat_ofNat,
        BitVec.toNat_intMax]
      omega
    have hnot : decide (n = 2 ^ 31) = false := decide_eq_false (by omega)
    have hsucc : BitVec.ofNat 32 n + 1#32 = BitVec.ofNat 32 (n + 1) := (BitVec.ofNat_add n 1).symm
    rw [ih (by omega) (by omega), byteLoop_of_lt _ _ _ hlt, byteStep, hext, haddr, hmax, hnot, hsucc,
      Bool.false_or, written_succ]

/-- once it has overflowed -/
theorem byteLoop_overflowed (i : BitVec 32) (s : Filled) (h : s.overflowed = true) :
    (byteLoop dst count value i s).overflowed = true := by
  fun_induction byteLoop dst count value i s with
  | case1 i s hlt ih => exact ih (by rw [byteStep, h, Bool.true_or])
  | case2 i s hge => exact h

/-- **counts below `2 ^ 31`**: every byte is written -/
theorem byteLoop_short (hdst : dst.toNat + count.toNat ≤ 2 ^ 64) (h : count.toNat < 2 ^ 31) :
    byteLoop dst count value 0#32 ⟨m, false⟩ = ⟨written dst value m count.toNat, false⟩ := by
  have hstop : ¬ ((BitVec.ofNat 32 count.toNat).signExtend 64).ult count := by
    rw [signExtend_ofNat h, BitVec.ofNat_toNat, BitVec.setWidth_eq, BitVec.ult_iff_lt]
    exact BitVec.lt_irrefl count
  rw [byteLoop_eq dst count value m hdst (by omega) le_rfl, byteLoop_of_ge _ _ _ hstop,
    decide_eq_false (by omega)]

/-- **the other counts**: the counter overflows -/
theorem byteLoop_long (hdst : dst.toNat + count.toNat ≤ 2 ^ 64) (h : 2 ^ 31 ≤ count.toNat) :
    (byteLoop dst count value 0#32 ⟨m, false⟩).overflowed = true := by
  rw [byteLoop_eq dst count value m hdst le_rfl h]
  exact byteLoop_overflowed _ _ _ _ _ (decide_eq_true (Eq.refl (2 ^ 31)))

/-- and the loop stops after `2 ^ 31` bytes, unless the count is almost `2 ^ 64` -/
theorem byteLoop_stops (hdst : dst.toNat + count.toNat ≤ 2 ^ 64) (h : 2 ^ 31 ≤ count.toNat)
    (hmax : count.toNat ≤ 2 ^ 64 - 2 ^ 31) :
    byteLoop dst count value 0#32 ⟨m, false⟩ = ⟨written dst value m (2 ^ 31), true⟩ := by
  have hmin : ((BitVec.ofNat 32 (2 ^ 31)).signExtend 64).toNat = 2 ^ 64 - 2 ^ 31 := by decide
  have hstop : ¬ ((BitVec.ofNat 32 (2 ^ 31)).signExtend 64).ult count := by
    rw [BitVec.ult_iff_lt, BitVec.lt_def, hmin]
    omega
  rw [byteLoop_eq dst count value m hdst le_rfl h, byteLoop_of_ge _ _ _ hstop, decide_eq_true rfl]

/-- **the loop fills the range** exactly for the counts below `2 ^ 31` -/
theorem byteLoop_fills_iff (v : ℕ → BitVec 8) (hdst : dst.toNat + count.toNat ≤ 2 ^ 64)
    (hvalue : ∀ k < count.toNat, value (BitVec.ofNat 64 k) (written dst value m k) = v k) :
    Fills m dst.toNat count.toNat v (byteLoop dst count value 0#32 ⟨m, false⟩) ↔
      count.toNat < 2 ^ 31 := by
  constructor
  · intro hfills
    by_contra h
    have hcounter := hfills.counter
    rw [byteLoop_long dst count value m hdst (by omega)] at hcounter
    exact absurd hcounter (by decide)
  · intro h
    rw [byteLoop_short dst count value m hdst h]
    exact ⟨written_inside dst value m v hvalue, fun x hx => written_outside dst value m x hx, rfl⟩

end

/-! ## the functions -/

section
variable (m : Mem) (dst src count : BitVec 64) (c : BitVec 32)

/-- what is read is not written before -/
theorem memcpy_value (hsrc : src.toNat + count.toNat ≤ 2 ^ 64)
    (hdisjoint : dst.toNat + count.toNat ≤ src.toNat ∨ src.toNat + count.toNat ≤ dst.toNat)
    (k : ℕ) (hk : k < count.toNat) :
    written dst (fun i m => m (src + i).toNat) m k (src + BitVec.ofNat 64 k).toNat
      = m (src.toNat + k) := by
  have haddr : (src + BitVec.ofNat 64 k).toNat = src.toNat + k := by
    rw [BitVec.toNat_add, BitVec.toNat_ofNat]
    omega
  rw [haddr, written_outside _ _ _ _ (by omega)]

/-- **of a long range only the first `2 ^ 31` bytes are copied** -/
theorem memcpy_long (hdst : dst.toNat + count.toNat ≤ 2 ^ 64) (h : 2 ^ 31 ≤ count.toNat)
    (hmax : count.toNat ≤ 2 ^ 64 - 2 ^ 31) (x : ℕ) (hx : dst.toNat + 2 ^ 31 ≤ x) :
    (memcpy m dst src count).2.mem x = m x := by
  have hstop := byteLoop_stops dst count (fun i m => m (src + i).toNat) m hdst h hmax
  have hmem := congrArg Filled.mem hstop
  exact (congrFun hmem x).trans (written_outside dst _ m x (Or.inr hx))

/-- **`memcpy` copies and `memset` fills** exactly if the count is below `2 ^ 31` -/
theorem memcpy_memset_iff (hdst : dst.toNat + count.toNat ≤ 2 ^ 64)
    (hsrc : src.toNat + count.toNat ≤ 2 ^ 64)
    (hdisjoint : dst.toNat + count.toNat ≤ src.toNat ∨ src.toNat + count.toNat ≤ dst.toNat) :
    (Fills m dst.toNat count.toNat (fun i => m (src.toNat + i)) (memcpy m dst src count).2 ↔
      count.toNat < 2 ^ 31) ∧
    (Fills m dst.toNat count.toNat (fun _ => c.setWidth 8) (memset m dst c count).2 ↔
      count.toNat < 2 ^ 31) :=
  ⟨byteLoop_fills_iff dst count _ m _ hdst (memcpy_value m dst src count hsrc hdisjoint),
    byteLoop_fills_iff dst count _ m _ hdst fun _ _ => rfl⟩

end

theorem memcpy_memset_iff_page :
    (Fills (BitVec.ofNat 8) 0x5000 0x1000 (fun i => BitVec.ofNat 8 (0x7000 + i))
      (memcpy (BitVec.ofNat 8) 0x5000#64 0x7000#64 0x1000#64).2 ↔ 0x1000 < 2 ^ 31) ∧
    (Fills (BitVec.ofNat 8) 0x5000 0x1000 (fun _ => 0xCC#8)
      (memset (BitVec.ofNat 8) 0x5000#64 0xCC#32 0x1000#64).2 ↔ 0x1000 < 2 ^ 31) :=
  memcpy_memset_iff (BitVec.ofNat 8) 0x5000#64 0x7000#64 0x1000#64 0xCC#32 (by decide) (by decide)
    (by decide)

/-- **four GiB are not copied**: of `2 ^ 32` bytes at `2 ^ 32` the byte `2 ^ 31` does not reach `0` -/
theorem memcpy_stops_early : ¬ ∀ (m : Mem) (dst src count : BitVec 64) (c : BitVec 32),
    dst.toNat + count.toNat ≤ 2 ^ 64 → src.toNat + count.toNat ≤ 2 ^ 64 →
    (dst.toNat + count.toNat ≤ src.toNat ∨ src.toNat + count.toNat ≤ dst.toNat) →
    Fills m dst.toNat count.toNat (fun i => m (src.toNat + i)) (memcpy m dst src count).2 ∧
    Fills m dst.toNat count.toNat (fun _ => c.setWidth 8) (memset m dst c count).2 := by
  intro h
  have hcopy := (h (fun x => if x = 2 ^ 32 + 2 ^ 31 then 1#8 else 0#8) 0#64 0x100000000#64
    0x100000000#64 0#32 (by decide) (by decide) (by decide)).1.inside (2 ^ 31) (by decide)
  rw [memcpy_long _ _ _ _ (by decide) (by decide) (by decide) _ (by decide)] at hcopy
  exact absurd hcopy (by decide)

end HyperC.Utils
