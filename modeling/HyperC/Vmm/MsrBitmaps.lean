import Mathlib.Data.List.TakeWhile
import HyperC.Machine.State
import HyperC.Machine.MsrBitmap

/-!
# `msr_bitmaps.c`: monitoring MSRs

* `monitorRdmsr`, `monitorWrmsr`   the functions of the file, two instances of `monitor`;
* `monitorRdmsr_eq`, `monitorWrmsr_eq`   on a covered MSR they set the bit the processor consults;
* `monitor_invalid`                on every other MSR they panic and leave memory alone;
* `monitor_represents`             after any run of calls the bitmaps are the set of the monitored
                                   accesses.
-/

namespace HyperC
open Code Msr

def maxLowMsr : BitVec 32 := 0x00001FFF#32
def minLowMsr : BitVec 32 := 0x0#32
def maxHighMsr : BitVec 32 := 0xC0001FFF#32
def minHighMsr : BitVec 32 := 0xC0000000#32
def bitmapForHighMsrs : BitVec 32 := 1024#32
def bitmapForWrmsr : BitVec 32 := 2048#32

/-- `msr_bitmaps[msr_index] |= 1 << (msr & 0b0111)`, an `int` operation stored back into a byte -/
def setMsrBit (a : ℕ) (msr : BitVec 32) (m : Mem) : Mem :=
  Function.update m a (((m a).setWidth 32 ||| 1#32 <<< (msr &&& 0b0111#32)).setWidth 8)

/-- both functions of the file: `low` and `high` are the first bytes of the two bitmaps -/
def monitor (low high : BitVec 32) (msrBitmaps : ℕ) (msr : BitVec 32) : Host Unit := do
  if ¬ ((minLowMsr ≤ msr ∧ msr ≤ maxLowMsr) ∨ (minHighMsr ≤ msr ∧ msr ≤ maxHighMsr)) then
    panic "invalid MSR id" []
  else
    let msrIndex : BitVec 32 := if minLowMsr ≤ msr ∧ msr ≤ maxLowMsr then msr / 8#32 + low
      else (msr - 0xC0000000#32) / 8#32 + high
    modifyMem (setMsrBit (ptrAdd msrBitmaps msrIndex) msr)

def monitorRdmsr (msrBitmaps : ℕ) (msr : BitVec 32) : Host Unit :=
  monitor 0 bitmapForHighMsrs msrBitmaps msr

def monitorWrmsr (msrBitmaps : ℕ) (msr : BitVec 32) : Host Unit :=
  monitor bitmapForWrmsr (bitmapForWrmsr + bitmapForHighMsrs) msrBitmaps msr

/-! ## one call -/

theorem setMsrBit_eq (a i : ℕ) (msr : BitVec 32) (m : Mem) (hi : i % 8 = msr.toNat % 8) :
    setMsrBit (a + i / 8) msr m = Bitmap.insert a i m := by
  have hand : (msr &&& 0b0111#32).toNat = msr.toNat % 8 := by
    rw [BitVec.toNat_and]
    exact Nat.and_two_pow_sub_one_eq_mod msr.toNat 3
  have hbyte : ((m (a + i / 8)).setWidth 32 ||| 1#32 <<< (msr &&& 0b0111#32)).setWidth 8
      = m (a + i / 8) ||| 1#8 <<< (i % 8) := by
    apply BitVec.eq_of_getLsbD_eq
    intro j hj
    rw [hi, ← hand, BitVec.shiftLeft_eq']
    generalize (msr &&& 0b0111#32).toNat = k
    simp [hj]
  rw [setMsrBit, hbyte, Bitmap.insert]

theorem covered_iff (msr : BitVec 32) :
    ((minLowMsr ≤ msr ∧ msr ≤ maxLowMsr) ∨ (minHighMsr ≤ msr ∧ msr ≤ maxHighMsr)) ↔ Covered msr := by
  simp only [minLowMsr, maxLowMsr, minHighMsr, maxHighMsr, BitVec.le_def, BitVec.toNat_ofNat, Covered]
  omega

theorem ptrAdd_eq (p : ℕ) (i : BitVec 32) (h : i.toNat < 2 ^ 31) : ptrAdd p i = p + i.toNat := by
  rw [ptrAdd, BitVec.toInt_eq_toNat_of_lt (by omega)]
  omega

theorem monitor_covered {low high : BitVec 32} (hlow : low.toNat ≤ 4096) (hhigh : high.toNat ≤ 4096)
    (msrBitmaps : ℕ) {msr : BitVec 32} (hc : Covered msr) (s : Machine) :
    (monitor low high msrBitmaps msr).run s = .ret () { s with
      mem := Bitmap.insert msrBitmaps (8 * (if msr.toNat ≤ 0x1FFF then low.toNat else high.toNat)
        + msr.toNat % 0x2000) s.mem } := by
  have hcond := not_not.mpr ((covered_iff msr).mpr hc)
  have hlowc : (minLowMsr ≤ msr ∧ msr ≤ maxLowMsr) ↔ msr.toNat ≤ 0x1FFF := by
    simp only [minLowMsr, maxLowMsr, BitVec.le_def, BitVec.toNat_ofNat]
    omega
  have h8 : (8#32).toNat = 8 := rfl
  have hbase : (0xC0000000#32).toNat = 0xC0000000 := rfl
  unfold Covered at hc
  -- the byte of the bit, whichever half of the page it lies in
  have hidx : (if minLowMsr ≤ msr ∧ msr ≤ maxLowMsr then msr / 8#32 + low
        else (msr - 0xC0000000#32) / 8#32 + high).toNat
      = (8 * (if msr.toNat ≤ 0x1FFF then low.toNat else high.toNat) + msr.toNat % 0x2000) / 8 := by
    by_cases h : msr.toNat ≤ 0x1FFF
    · rw [if_pos (hlowc.mpr h), if_pos h, BitVec.toNat_add, BitVec.toNat_udiv, h8]
      omega
    · rw [if_neg (hlowc.not.mpr h), if_neg h, BitVec.toNat_add, BitVec.toNat_udiv,
        BitVec.toNat_sub, h8, hbase]
      omega
  have hlt : (8 * (if msr.toNat ≤ 0x1FFF then low.toNat else high.toNat)
      + msr.toNat % 0x2000) / 8 < 2 ^ 31 := by
    split <;> omega
  rw [monitor, if_neg hcond]
  show Outcome.ret () { s with mem := setMsrBit (ptrAdd msrBitmaps _) msr s.mem } = _
  rw [ptrAdd_eq _ _ (by rw [hidx]; exact hlt), hidx, setMsrBit_eq _ _ _ _ (by omega)]

theorem monitorRdmsr_eq (msrBitmaps : ℕ) {msr : BitVec 32} (hc : Covered msr) (s : Machine) :
    (monitorRdmsr msrBitmaps msr).run s
      = .ret () { s with mem := Bitmap.insert msrBitmaps (bitIndex .read msr) s.mem } :=
  monitor_covered (by decide) (by decide) msrBitmaps hc s

theorem monitorWrmsr_eq (msrBitmaps : ℕ) {msr : BitVec 32} (hc : Covered msr) (s : Machine) :
    (monitorWrmsr msrBitmaps msr).run s
      = .ret () { s with mem := Bitmap.insert msrBitmaps (bitIndex .write msr) s.mem } :=
  monitor_covered (by decide) (by decide) msrBitmaps hc s

theorem monitor_invalid (low high : BitVec 32) (msrBitmaps : ℕ) {msr : BitVec 32}
    (hc : ¬ Covered msr) (s : Machine) : (monitor low high msrBitmaps msr).run s
      = .halt { s with log := logged s .fatal "invalid MSR id" [] } := by
  rw [monitor, if_pos ((covered_iff msr).not.mpr hc)]
  rfl

/-! ## runs of calls -/

/-- a call of one of the two functions -/
structure MsrCall where
  access : MsrAccess
  msr : BitVec 32
deriving DecidableEq

def MsrCall.run (msrBitmaps : ℕ) (c : MsrCall) : Host Unit :=
  match c.access with
  | .read => monitorRdmsr msrBitmaps c.msr
  | .write => monitorWrmsr msrBitmaps c.msr

/-- the calls before the first one with an MSR that has no bit -/
def executed (cs : List MsrCall) : List MsrCall := cs.takeWhile fun c => decide (Covered c.msr)

theorem msrCall_covered (msrBitmaps : ℕ) (c : MsrCall) (hc : Covered c.msr) (s : Machine) :
    (c.run msrBitmaps).run s = .ret () { s with
      mem := Bitmap.insert msrBitmaps (bitIndex c.access c.msr) s.mem } := by
  obtain ⟨d, msr⟩ := c
  cases d with
  | read => exact monitorRdmsr_eq msrBitmaps hc s
  | write => exact monitorWrmsr_eq msrBitmaps hc s

theorem msrCall_invalid (msrBitmaps : ℕ) (c : MsrCall) (hc : ¬ Covered c.msr) (s : Machine) :
    (c.run msrBitmaps).run s = .halt { s with log := logged s .fatal "invalid MSR id" [] } := by
  obtain ⟨d, msr⟩ := c
  cases d with
  | read => exact monitor_invalid _ _ msrBitmaps hc s
  | write => exact monitor_invalid _ _ msrBitmaps hc s

def monitored (msrBitmaps : ℕ) (cs : List MsrCall) (m : Mem) : Mem :=
  (cs.map fun c => bitIndex c.access c.msr).foldl (fun m i => Bitmap.insert msrBitmaps i m) m

theorem each_msrCall (msrBitmaps : ℕ) (cs : List MsrCall) (s : Machine) :
    (each (MsrCall.run msrBitmaps) cs).run s =
      if ∀ c ∈ cs, Covered c.msr then .ret () { s with mem := monitored msrBitmaps cs s.mem }
      else .halt { s with
        mem := monitored msrBitmaps (executed cs) s.mem
        log := logged s .fatal "invalid MSR id" [] } := by
  induction cs generalizing s with
  | nil => rfl
  | cons c cs ih =>
    rw [each_cons]
    by_cases hc : Covered c.msr
    · rw [bind_of_ret (msrCall_covered msrBitmaps c hc s), ih]
      have hex : executed (c :: cs) = c :: executed cs := by
        rw [executed, List.takeWhile_cons_of_pos (by simpa using hc)]
        rfl
      simp only [List.forall_mem_cons, hc, true_and, hex]
      rfl
    · have hex : executed (c :: cs) = [] := by
        rw [executed, List.takeWhile_cons_of_neg (by simpa using hc)]
      rw [bind_of_halt (msrCall_invalid msrBitmaps c hc s), if_neg (by simp [hc]), hex]
      rfl

/-- **a bitmap page that stands for the set of the monitored accesses**, changed nowhere else -/
structure Represents (msrBitmaps : ℕ) (cs : List MsrCall) (m₀ m : Mem) : Prop where
  bits : ∀ d msr, Covered msr → (consulted m msrBitmaps d msr = true ↔ ⟨d, msr⟩ ∈ cs)
  outside : ∀ x, x < msrBitmaps ∨ msrBitmaps + 4096 ≤ x → m x = m₀ x

theorem represents_monitored (msrBitmaps : ℕ) (cs : List MsrCall) (m : Mem)
    (hcs : ∀ c ∈ cs, Covered c.msr) (hz : m.ZeroOn msrBitmaps 4096) :
    Represents msrBitmaps cs m (monitored msrBitmaps cs m) := by
  refine ⟨fun d msr hc => ?_, fun x hx => ?_⟩
  · have h0 : Bitmap.test m msrBitmaps (bitIndex d msr) = false := by
      have hlt := bitIndex_lt d msr
      rw [Bitmap.test, hz _ (by omega) (by omega)]
      simp
    rw [consulted_eq, monitored, Bitmap.test_foldl_insert, h0]
    simp only [List.mem_map, Bool.false_eq_true, or_false]
    constructor
    · rintro ⟨c, hmem, hbit⟩
      obtain ⟨rfl, rfl⟩ := (bitIndex_inj (hcs c hmem) hc).mp hbit
      exact hmem
    · intro hmem
      exact ⟨_, hmem, rfl⟩
  · refine Bitmap.foldl_insert_outside m msrBitmaps 4096 _ (fun i hi => ?_) x hx
    obtain ⟨c, -, rfl⟩ := List.mem_map.mp hi
    exact bitIndex_lt _ _

/-- **the bitmaps represent exactly the monitored accesses**: a run of calls over a zeroed page
executes up to the first invalid MSR, where it halts, and sets the bits of the executed calls -/
theorem monitor_represents (msrBitmaps : ℕ) (cs : List MsrCall) (s : Machine)
    (hz : s.mem.ZeroOn msrBitmaps 4096) :
    Represents msrBitmaps (executed cs) s.mem
        ((each (MsrCall.run msrBitmaps) cs).run s).state.mem ∧
      ((∀ c ∈ cs, Covered c.msr) → executed cs = cs ∧
        ∃ s', (each (MsrCall.run msrBitmaps) cs).run s = .ret () s') ∧
      ∀ c : MsrCall, ¬ Covered c.msr → ∀ t, (c.run msrBitmaps).run t
        = .halt { t with log := logged t .fatal "invalid MSR id" [] } := by
  have hex : ∀ c ∈ executed cs, Covered c.msr := fun c hc => by
    simpa using List.mem_takeWhile_imp hc
  have hrep := represents_monitored msrBitmaps (executed cs) s.mem hex hz
  have hall : (∀ c ∈ cs, Covered c.msr) → executed cs = cs := fun h =>
    List.takeWhile_eq_self_iff.mpr fun c hc => by simpa using h c hc
  refine ⟨?_, fun h => ⟨hall h, ?_⟩, fun c hc t => msrCall_invalid msrBitmaps c hc t⟩
  · rw [each_msrCall]
    split
    · rename_i h
      rw [hall h] at hrep ⊢
      exact hrep
    · exact hrep
  · rw [each_msrCall, if_pos h]
    exact ⟨_, rfl⟩

/-- two system-call MSRs monitored in a zeroed page, then a call with an MSR that has no bit -/
theorem monitor_represents_syscall :
    let cs : List MsrCall := [⟨.write, 0x176#32⟩, ⟨.write, 0xC0000082#32⟩, ⟨.read, 0x2000#32⟩]
    Represents 0x1808000 (executed cs) (default : Machine).mem
        ((each (MsrCall.run 0x1808000) cs).run default).state.mem ∧
      ((∀ c ∈ cs, Covered c.msr) → executed cs = cs ∧
        ∃ s', (each (MsrCall.run 0x1808000) cs).run default = .ret () s') ∧
      ∀ c : MsrCall, ¬ Covered c.msr → ∀ t, (c.run 0x1808000).run t
        = .halt { t with log := logged t .fatal "invalid MSR id" [] } :=
  monitor_represents 0x1808000 _ default fun _ _ _ => rfl

end HyperC
