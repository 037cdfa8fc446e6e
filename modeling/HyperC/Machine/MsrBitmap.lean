import HyperC.Lib.Bitmap

/-!
# The processor's MSR bitmaps

A page of four bitmaps of 1024 bytes: reads of low MSRs, reads of high MSRs, writes of low MSRs,
writes of high MSRs.  An access by the guest to a covered MSR leaves the guest exactly if its bit is
set.

* `MsrAccess`, `Covered`   the two directions, and the MSRs that have bits;
* `quarter`, `consulted`   the bitmap for an access, and the bit the processor looks at;
* `bitIndex`               the position of that bit in the whole page, `bitIndex_inj`: accesses do
                           not share bits.
-/

namespace Msr

inductive MsrAccess where
  | read | write
deriving DecidableEq

/-- `0..0x1FFF` and `0xC0000000..0xC0001FFF` -/
def Covered (msr : BitVec 32) : Prop :=
  msr.toNat ≤ 0x1FFF ∨ (0xC0000000 ≤ msr.toNat ∧ msr.toNat ≤ 0xC0001FFF)

instance (msr : BitVec 32) : Decidable (Covered msr) := inferInstanceAs (Decidable (_ ∨ _))

/-- the first byte of the bitmap for an access -/
def quarter : MsrAccess → BitVec 32 → Nat
  | .read, msr => if msr.toNat ≤ 0x1FFF then 0 else 1024
  | .write, msr => if msr.toNat ≤ 0x1FFF then 2048 else 3072

/-- the bit that decides about an access -/
def consulted (m : Mem) (bitmaps : Nat) (d : MsrAccess) (msr : BitVec 32) : Bool :=
  (m (bitmaps + (quarter d msr + msr.toNat % 0x2000 / 8))).getLsbD (msr.toNat % 8)

def bitIndex (d : MsrAccess) (msr : BitVec 32) : Nat := 8 * quarter d msr + msr.toNat % 0x2000

theorem consulted_eq (m : Mem) (bitmaps : Nat) (d : MsrAccess) (msr : BitVec 32) :
    consulted m bitmaps d msr = Bitmap.test m bitmaps (bitIndex d msr) := by
  have h1 : bitIndex d msr / 8 = quarter d msr + msr.toNat % 0x2000 / 8 := by
    unfold bitIndex
    omega
  have h2 : bitIndex d msr % 8 = msr.toNat % 8 := by
    unfold bitIndex
    omega
  rw [consulted, Bitmap.test, h1, h2]

theorem bitIndex_lt (d : MsrAccess) (msr : BitVec 32) : bitIndex d msr < 8 * 4096 := by
  have h : quarter d msr ≤ 3072 := by cases d <;> simp only [quarter] <;> split <;> omega
  unfold bitIndex
  omega

/-- **no two accesses share a bit** -/
theorem bitIndex_inj {d d' : MsrAccess} {msr msr' : BitVec 32} (hc : Covered msr)
    (hc' : Covered msr') : bitIndex d msr = bitIndex d' msr' ↔ d = d' ∧ msr = msr' := by
  refine ⟨fun h => ?_, by rintro ⟨rfl, rfl⟩; rfl⟩
  unfold Covered at hc hc'
  have hd : d = d' := by
    cases d <;> cases d' <;> simp only [bitIndex, quarter] at h <;> first | rfl | (split at h <;> split at h <;> omega)
  subst hd
  refine ⟨rfl, BitVec.eq_of_toNat_eq ?_⟩
  cases d <;> simp only [bitIndex, quarter] at h <;> split at h <;> split at h <;> omega

theorem exists_bitIndex {i : Nat} (hi : i < 8 * 4096) : ∃ d msr, Covered msr ∧ bitIndex d msr = i := by
  have hlow : ∀ r < 0x2000, ∃ msr : BitVec 32, Covered msr ∧ msr.toNat = r ∧ msr.toNat ≤ 0x1FFF := by
    intro r hr
    have hmsr : (BitVec.ofNat 32 r).toNat = r := by
      rw [BitVec.toNat_ofNat]
      omega
    refine ⟨BitVec.ofNat 32 r, ?_, hmsr, ?_⟩
    · unfold Covered
      omega
    · omega
  have hhigh : ∀ r < 0x2000, ∃ msr : BitVec 32, Covered msr ∧ msr.toNat = 0xC0000000 + r ∧
      ¬ msr.toNat ≤ 0x1FFF := by
    intro r hr
    have hmsr : (BitVec.ofNat 32 (0xC0000000 + r)).toNat = 0xC0000000 + r := by
      rw [BitVec.toNat_ofNat]
      omega
    refine ⟨BitVec.ofNat 32 (0xC0000000 + r), ?_, hmsr, ?_⟩
    · unfold Covered
      omega
    · omega
  obtain ⟨l, hl, hl', hlr⟩ := hlow (i % 0x2000) (by omega)
  obtain ⟨h, hh, hh', hhr⟩ := hhigh (i % 0x2000) (by omega)
  have hq : i / 0x2000 = 0 ∨ i / 0x2000 = 1 ∨ i / 0x2000 = 2 ∨ i / 0x2000 = 3 := by omega
  rcases hq with hq | hq | hq | hq
  · refine ⟨.read, l, hl, ?_⟩
    rw [bitIndex, quarter, if_pos hlr]
    omega
  · refine ⟨.read, h, hh, ?_⟩
    rw [bitIndex, quarter, if_neg hhr]
    omega
  · refine ⟨.write, l, hl, ?_⟩
    rw [bitIndex, quarter, if_pos hlr]
    omega
  · refine ⟨.write, h, hh, ?_⟩
    rw [bitIndex, quarter, if_neg hhr]
    omega

/-- **no access is monitored exactly if the page is zero** -/
theorem unmonitored_iff (m : Mem) (bitmaps : Nat) :
    (∀ msr, Covered msr → ∀ d, consulted m bitmaps d msr = false) ↔ m.ZeroOn bitmaps 4096 := by
  constructor
  · intro h x hlo hhi
    obtain ⟨k, rfl⟩ := Nat.exists_eq_add_of_le hlo
    apply BitVec.eq_of_getLsbD_eq
    intro j hj
    obtain ⟨d, msr, hc, hidx⟩ := exists_bitIndex (i := 8 * k + j) (by omega)
    have hbit := h msr hc d
    have h1 : (8 * k + j) / 8 = k := by omega
    have h2 : (8 * k + j) % 8 = j := by omega
    rw [consulted_eq, hidx, Bitmap.test, h1, h2] at hbit
    rw [hbit, BitVec.getLsbD_zero]
  · intro h msr _ d
    have hlt := bitIndex_lt d msr
    rw [consulted_eq, Bitmap.test, h _ (by omega) (by omega), BitVec.getLsbD_zero]

end Msr
