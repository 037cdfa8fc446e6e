import HyperC.Vmm.Vmexit

/-!
# What a handled exit does to memory

With the back pointer of `guest_cpu_state_t` intact, a handled exit writes to two places only: the
saved image of the registers, and two bits of the MSR bitmaps.

* `CpuDataAt`        a `cpu_data_t` at a page-aligned address of the physical address space;
* `BackPointer`      `guest_state->cpu_data` points back to it;
* `load_advanceRip`, `load_hookRegs`, `load_protect`   the saved image after each edit;
* `callBits`, `load_protect_iff`   the bits of a `VMCALL` through any pointer, and when the image comes
                     through;
* `exitRegs`, `load_handled`   the whole image after a handled exit;
* `handled_cases`     the four ways in which an exit is handled;
* `handled_outside`, `handled_mono`   what it writes besides.
-/

namespace HyperC
open Msr

/-- `STACK_TOP`, where the host's stack begins at every exit; it grows down from there -/
def stackTop : ℕ := 0x7BFF

/-- a `cpu_data_t` at a page-aligned address below `2^48` and above the host's stack -/
structure CpuDataAt (p : ℕ) : Prop where
  aligned : p % 4096 = 0
  fits : p + cpuDataT.size ≤ 2 ^ 48
  above : stackTop ≤ p

theorem cpuDataAt_fixed : CpuDataAt cpuDataAddress := ⟨by decide, by decide, by decide⟩

theorem CpuDataAt.lt {p : ℕ} (h : CpuDataAt p) : p + 0x814000 ≤ 2 ^ 48 := h.fits

/-- `guest_state->cpu_data` points to the `cpu_data_t` that contains `guest_state` -/
def BackPointer (p : ℕ) (m : Mem) : Prop :=
  m.load64 (GuestState.cpuData (CpuData.guestCpuState p)) = BitVec.ofNat 64 p

/-- a machine with the back pointer that `initialize_host` sets, and zeros elsewhere -/
def pointedMachine : Machine :=
  { (default : Machine) with
    mem := (default : Machine).mem.store64
      (GuestState.cpuData (CpuData.guestCpuState cpuDataAddress)) (BitVec.ofNat 64 cpuDataAddress) }

theorem pointedMachine_backPointer : BackPointer cpuDataAddress pointedMachine.mem :=
  Mem.load64_store64_same _ _ _

/-! ## the three edits -/

section
variable {img : Image} {gs : ℕ} {m : Mem}

theorem slot_disjoint {r r' : Reg} (h : r ≠ r') :
    regSlot gs r + 8 ≤ regSlot gs r' ∨ regSlot gs r' + 8 ≤ regSlot gs r := by
  have hne : r.position ≠ r'.position := fun hp => h (Reg.position_inj hp)
  rw [regSlot_eq, regSlot_eq]
  omega

theorem load_store_slot (r r' : Reg) (v : BitVec 64) :
    (m.store64 (regSlot gs r') v).load64 (regSlot gs r)
      = if r = r' then v else m.load64 (regSlot gs r) := by
  by_cases h : r = r'
  · rw [if_pos h, h, Mem.load64_store64_same]
  · rw [if_neg h, Mem.load64_store64_disjoint _ _ _ _ (slot_disjoint h)]

theorem store_slot_outside (r : Reg) (v : BitVec 64) (x : ℕ) (h : x < gs ∨ gs + 136 ≤ x) :
    m.store64 (regSlot gs r) v x = m x := by
  have hr := r.position_lt
  exact Mem.store64_outside _ _ _ _ (by rw [regSlot_eq]; omega)

theorem load_advanceRip (len : BitVec 64) (r : Reg) :
    (advanceRip gs len m).load64 (regSlot gs r)
      = if r = .rip then m.load64 (regSlot gs .rip) + len else m.load64 (regSlot gs r) := by
  rw [advanceRip, Mem.update64, load_store_slot]

theorem advanceRip_outside (len : BitVec 64) (x : ℕ) (h : x < gs ∨ gs + 136 ≤ x) :
    advanceRip gs len m x = m x :=
  store_slot_outside .rip _ x h

theorem inSsdt_iff {gpa : BitVec 64} (hgs : gs + 0xB000 ≤ 2 ^ 64) :
    InSsdt gs gpa ↔ gs + 0x9000 ≤ gpa.toNat ∧ gpa.toNat < gs + 0xA000 := by
  rw [InSsdt, BitVec.le_def, BitVec.lt_def, BitVec.toNat_add, BitVec.toNat_ofNat,
    BitVec.toNat_ofNat, GuestState.ssdt_eq]
  omega

/-- the registers an SSDT read is answered with -/
def hookedReg (img : Image) (gpa : BitVec 64) (m : Mem) : Reg → BitVec 64 → BitVec 64
  | .rax, _ => BitVec.ofNat 64 img.ssdtHook
  | .rdi, _ => (gpa - alignDown gpa) / 8#64
  | .rsi, _ => m.load64 gpa.toNat
  | _, v => v

theorem hookedReg_congr {gpa : BitVec 64} {m' : Mem} (h : m'.load64 gpa.toNat = m.load64 gpa.toNat)
    (r : Reg) (v : BitVec 64) : hookedReg img gpa m' r v = hookedReg img gpa m r v := by
  cases r with
  | rsi => exact h
  | _ => rfl

theorem load_hookRegs {gpa : BitVec 64} (h : gs + 136 ≤ gpa.toNat) (r : Reg) :
    (hookRegs img gs gpa m).load64 (regSlot gs r) = hookedReg img gpa m r (m.load64 (regSlot gs r)) := by
  have hentry : (m.store64 (regSlot gs .rdi) ((gpa - alignDown gpa) / 8#64)).load64 gpa.toNat
      = m.load64 gpa.toNat :=
    Mem.load64_congr fun k _ => store_slot_outside _ _ _ (by omega)
  simp only [hookRegs, load_store_slot, hentry]
  cases r <;> rfl

theorem hookRegs_outside (gpa : BitVec 64) (x : ℕ) (h : x < gs ∨ gs + 136 ≤ x) :
    hookRegs img gs gpa m x = m x := by
  simp only [hookRegs]
  rw [store_slot_outside _ _ _ h, store_slot_outside _ _ _ h, store_slot_outside _ _ _ h]

end

/-! ## edits through the back pointer -/

section
variable {p : ℕ} {m : Mem}

theorem monitorThrough_eq (hp : CpuDataAt p) (hb : BackPointer p m) (msr : BitVec 32) :
    monitorThrough (CpuData.guestCpuState p) msr m
      = Bitmap.insert (CpuData.msrBitmaps p) (bitIndex .write msr) m := by
  have hlt := hp.lt
  rw [monitorThrough, hb, BitVec.toNat_ofNat, Nat.mod_eq_of_lt (by omega)]

theorem insert_bitmaps_outside (d : MsrAccess) (msr : BitVec 32) (x : ℕ)
    (h : x < CpuData.msrBitmaps p ∨ CpuData.msrBitmaps p + 4096 ≤ x) :
    Bitmap.insert (CpuData.msrBitmaps p) (bitIndex d msr) m x = m x :=
  Bitmap.insert_outside _ _ _ 4096 _ (bitIndex_lt d msr) h

theorem backPointer_insert (hb : BackPointer p m) (d : MsrAccess) (msr : BitVec 32) :
    BackPointer p (Bitmap.insert (CpuData.msrBitmaps p) (bitIndex d msr) m) := by
  rw [BackPointer, Mem.load64_congr fun k hk => insert_bitmaps_outside d msr _ ?_]
  · exact hb
  · simp only [GuestState.cpuData_eq, CpuData.guestCpuState_eq, CpuData.msrBitmaps_eq]
    omega

/-- **through an intact back pointer the two system-call MSRs are monitored in `p`'s bitmaps** -/
theorem protect_eq (hp : CpuDataAt p) (hb : BackPointer p m) :
    protect (CpuData.guestCpuState p) m
      = Bitmap.insert (CpuData.msrBitmaps p) (bitIndex .write msrIa32Lstar)
        (Bitmap.insert (CpuData.msrBitmaps p) (bitIndex .write msrIa32SysenterEip) m) := by
  rw [protect, monitorThrough_eq hp hb, monitorThrough_eq hp (backPointer_insert hb _ _)]

theorem protect_outside (hp : CpuDataAt p) (hb : BackPointer p m) (x : ℕ)
    (h : x < CpuData.msrBitmaps p ∨ CpuData.msrBitmaps p + 4096 ≤ x) :
    protect (CpuData.guestCpuState p) m x = m x := by
  rw [protect_eq hp hb, insert_bitmaps_outside _ _ _ h, insert_bitmaps_outside _ _ _ h]

theorem load_protect (hp : CpuDataAt p) (hb : BackPointer p m) (r : Reg) :
    (protect (CpuData.guestCpuState p) m).load64 (regSlot (CpuData.guestCpuState p) r)
      = m.load64 (regSlot (CpuData.guestCpuState p) r) := by
  refine Mem.load64_congr fun k _ => protect_outside hp hb _ (Or.inr ?_)
  rw [regSlot_eq, CpuData.guestCpuState_eq, CpuData.msrBitmaps_eq]
  omega

end

/-! ## through any pointer -/

section
variable {gs : ℕ} {m m' : Mem}

end

/-! ## whole exits -/

/-- the registers a handled exit leaves in the saved image, from those it found there -/
def exitRegs (img : Image) (gs : ℕ) (e : ExitInfo) (m : Mem) (regs : Regs) : Regs := fun r =>
  let v := if r = .rip then regs .rip + e.len else regs r
  if e.reason = exitReasonEptMisconfig ∧ InSsdt gs e.gpa then hookedReg img e.gpa m r v else v

section
variable {img : Image} {p : ℕ} {e : ExitInfo} {m m' : Mem}

theorem exitRegs_plain {gs : ℕ} {regs : Regs}
    (h : ¬ (e.reason = exitReasonEptMisconfig ∧ InSsdt gs e.gpa)) (r : Reg) :
    exitRegs img gs e m regs r = if r = .rip then regs .rip + e.len else regs r :=
  if_neg h

theorem exitRegs_hooked {gs : ℕ} {regs : Regs}
    (h : e.reason = exitReasonEptMisconfig ∧ InSsdt gs e.gpa) (r : Reg) :
    exitRegs img gs e m regs r
      = hookedReg img e.gpa m r (if r = .rip then regs .rip + e.len else regs r) :=
  if_pos h

theorem backPointer_advanceRip (hb : BackPointer p m) (len : BitVec 64) :
    BackPointer p (advanceRip (CpuData.guestCpuState p) len m) := by
  rw [BackPointer, Mem.load64_congr fun k _ => advanceRip_outside len _ ?_]
  · exact hb
  · rw [GuestState.cpuData_eq]
    omega

theorem handled_cases (gs : ℕ) (h : handled img gs e m = some m') :
    (e.reason ≠ exitReasonEptMisconfig ∧ m' = advanceRip gs e.len m) ∨
    (e.reason = exitReasonEptMisconfig ∧ InSsdt gs e.gpa ∧
      m' = hookRegs img gs e.gpa (advanceRip gs e.len m)) ∨
    (e.reason = exitReasonEptMisconfig ∧ ¬ InSsdt gs e.gpa ∧ m' = advanceRip gs e.len m) ∨
    (e.reason = exitReasonVmcall ∧ m.load64 (regSlot gs .rdi) = protecetSyscall ∧
      m' = protect gs (advanceRip gs e.len m)) := by
  simp only [handled] at h
  split at h
  · rename_i hr
    refine Or.inl ⟨?_, (Option.some.inj h).symm⟩
    rcases hr with hr | hr | hr | hr <;> rw [hr] <;> decide
  split at h
  · rename_i hr
    by_cases hs : InSsdt gs e.gpa
    · rw [if_pos hs] at h
      exact Or.inr (Or.inl ⟨hr, hs, (Option.some.inj h).symm⟩)
    · rw [if_neg hs] at h
      exact Or.inr (Or.inr (Or.inl ⟨hr, hs, (Option.some.inj h).symm⟩))
  split at h
  · rename_i hr
    rw [load_advanceRip, if_neg (by decide)] at hr
    exact Or.inr (Or.inr (Or.inr ⟨hr.1, hr.2, (Option.some.inj h).symm⟩))
  · cases h

theorem handled_vmcall (gs : ℕ) (hr : e.reason = exitReasonVmcall)
    (h : handled img gs e m = some m') : m' = protect gs (advanceRip gs e.len m) := by
  simp only [handled, hr] at h
  rw [if_neg (by decide), if_neg (by decide)] at h
  split at h
  · exact (Option.some.inj h).symm
  · cases h

/-- **the saved image after a handled exit** -/
theorem load_handled (hp : CpuDataAt p) (hb : e.reason = exitReasonVmcall → BackPointer p m)
    (h : handled img (CpuData.guestCpuState p) e m = some m') (r : Reg) :
    m'.load64 (regSlot (CpuData.guestCpuState p) r) = exitRegs img (CpuData.guestCpuState p) e m
      (fun r => m.load64 (regSlot (CpuData.guestCpuState p) r)) r := by
  have hlt := hp.lt
  have hgs := CpuData.guestCpuState_eq p
  rcases handled_cases _ h with ⟨hr, rfl⟩ | ⟨hr, hs, rfl⟩ | ⟨-, hs, rfl⟩ | ⟨hr, -, rfl⟩
  · rw [load_advanceRip, exitRegs_plain fun hc => hr hc.1]
  · have hgpa := (inSsdt_iff (by omega)).mp hs
    -- the entry that is read lies in the page of the table, beyond the image
    have hentry : (advanceRip (CpuData.guestCpuState p) e.len m).load64 e.gpa.toNat
        = m.load64 e.gpa.toNat :=
      Mem.load64_congr fun k _ => advanceRip_outside _ _ (by omega)
    rw [load_hookRegs (by omega), load_advanceRip, exitRegs_hooked ⟨hr, hs⟩, hookedReg_congr hentry]
  · rw [load_advanceRip, exitRegs_plain fun hc => hs hc.2]
  · have hne : e.reason ≠ exitReasonEptMisconfig := by
      rw [hr]
      decide
    rw [load_protect hp (backPointer_advanceRip (hb hr) _), load_advanceRip,
      exitRegs_plain fun hc => hne hc.1]

/-- **outside the saved image and the bitmaps a handled exit writes nothing** -/
theorem handled_outside (hp : CpuDataAt p) (hb : e.reason = exitReasonVmcall → BackPointer p m)
    (h : handled img (CpuData.guestCpuState p) e m = some m') (x : ℕ)
    (hx : x < CpuData.guestCpuState p ∨ CpuData.guestCpuState p + 136 ≤ x)
    (hx' : x < CpuData.msrBitmaps p ∨ CpuData.msrBitmaps p + 4096 ≤ x) : m' x = m x := by
  rcases handled_cases _ h with ⟨-, rfl⟩ | ⟨-, -, rfl⟩ | ⟨-, -, rfl⟩ | ⟨hr, -, rfl⟩
  · exact advanceRip_outside _ _ hx
  · rw [hookRegs_outside _ _ hx, advanceRip_outside _ _ hx]
  · exact advanceRip_outside _ _ hx
  · rw [protect_outside hp (backPointer_advanceRip (hb hr) _) _ hx', advanceRip_outside _ _ hx]

end

end HyperC
