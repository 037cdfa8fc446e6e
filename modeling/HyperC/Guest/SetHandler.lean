import HyperC.Lib.LastWrite
import HyperC.Vmm.SavedImage

/-!
# `set_syscall_handler` and the back pointer behind the table

The guest registers handlers in the table at `SSDT_ADDRESS`, inside `guest_cpu_state_t`.  The field
after the table is the hypervisor's `cpu_data` pointer, and the bound of the function lets number
`512` through, which is that field.

* `setSyscallHandler`, `SetCall`, `setAll`   the function, a call, and a run of calls;
* `load_storeEntries_pointer`   after a run the pointer is the handler of the last call with number
                              `512`, if there was one;
* `BackPointerSafe`           nothing outside the table changed, the pointer is intact and a later
                              `vmcall_handler` stays in its bitmaps;
* `set_handlers_safe_iff`     a run is safe exactly if its last call with number `512` passes the
                              pointer itself;
* `set_handler_breaks_pointer`   one call with another handler is not.
-/

namespace HyperC
open Code Msr

def setSyscallHandler (number : BitVec 32) (handler : BitVec 64) : Host Unit :=
  if number > BitVec.ofNat 32 ssdtSize then pure ()
  else storeQword (Ssdt.entries ssdtAddress number.toNat) handler

/-- a call of `set_syscall_handler` -/
structure SetCall where
  number : BitVec 32
  handler : BitVec 64

def setAll (cs : List SetCall) : Host Unit := each (fun c => setSyscallHandler c.number c.handler) cs

def storeEntry (m : Mem) (c : SetCall) : Mem :=
  if c.number.toNat ≤ ssdtSize then m.store64 (Ssdt.entries ssdtAddress c.number.toNat) c.handler
  else m

/-- the `guest_cpu_state_t` that holds the table at `SSDT_ADDRESS` -/
def guestState : ℕ := CpuData.guestCpuState cpuDataAddress

/-- **the entry one past the table is the back pointer** -/
theorem entries_ssdtSize : Ssdt.entries ssdtAddress ssdtSize = GuestState.cpuData guestState := rfl

/-! ## one call, and a run -/

theorem storeEntry_of_le (m : Mem) (number : BitVec 32) (handler : BitVec 64)
    (h : number.toNat ≤ ssdtSize) : storeEntry m ⟨number, handler⟩
      = m.store64 (Ssdt.entries ssdtAddress number.toNat) handler := if_pos h

theorem setSyscallHandler_eq (c : SetCall) (s : Machine) :
    (setSyscallHandler c.number c.handler).run s = .ret () { s with mem := storeEntry s.mem c } := by
  have h : c.number > BitVec.ofNat 32 ssdtSize ↔ ¬ c.number.toNat ≤ ssdtSize := by
    rw [gt_iff_lt, BitVec.lt_def, Nat.not_le]
    rfl
  unfold setSyscallHandler storeEntry
  by_cases hn : c.number.toNat ≤ ssdtSize
  · rw [if_neg (h.not.mpr (not_not.mpr hn)), if_pos hn]
    rfl
  · rw [if_pos (h.mpr hn), if_neg hn]
    rfl

theorem setAll_eq (cs : List SetCall) (s : Machine) :
    (setAll cs).run s = .ret () { s with mem := cs.foldl storeEntry s.mem } :=
  each_mem (fun c _ s => setSyscallHandler_eq c s) s

section
variable (cs : List SetCall) (m : Mem)

/-- **a run writes to the table and the pointer behind it** -/
theorem storeEntries_outside (x : ℕ) (h : x < ssdtAddress ∨ ssdtAddress + 8 * ssdtSize + 8 ≤ x) :
    cs.foldl storeEntry m x = m x := by
  induction cs generalizing m with
  | nil => rfl
  | cons c cs ih =>
    rw [List.foldl_cons, ih, storeEntry]
    split
    · exact Mem.store64_outside _ _ _ _ (by rw [Ssdt.entries_eq]; omega)
    · rfl

def SetCall.hitsPointer (c : SetCall) : Bool := c.number.toNat == ssdtSize

/-- **the back pointer after a run is the handler of the last call with number `512`** -/
theorem load_storeEntries_pointer : (cs.foldl storeEntry m).load64 (GuestState.cpuData guestState)
    = ((LastWrite.last SetCall.hitsPointer cs).map SetCall.handler).getD
      (m.load64 (GuestState.cpuData guestState)) := by
  refine LastWrite.foldl_view (fun m : Mem => m.load64 (GuestState.cpuData guestState)) cs
    (fun c _ m => ?_) m
  simp only [SetCall.hitsPointer, storeEntry, ← entries_ssdtSize, beq_iff_eq]
  by_cases h : c.number.toNat = ssdtSize
  · rw [if_pos h, if_pos h.le, h, Mem.load64_store64_same]
  · rw [if_neg h]
    split
    · exact Mem.load64_store64_disjoint _ _ _ _ (by simp only [Ssdt.entries_eq]; omega)
    · rfl

end

/-! ## safe runs -/

/-- memory `m` after a run of calls from `m₀`: the table apart nothing changed, the back pointer is
intact, and whenever it still is, a `VMCALL` for the protection of the system-call MSRs writes to the
bitmaps of the same `cpu_data_t`, and to the saved `rip` that every handler advances -/
structure BackPointerSafe (m₀ m : Mem) : Prop where
  outside : ∀ x, x < ssdtAddress ∨ ssdtAddress + 8 * ssdtSize ≤ x → m x = m₀ x
  pointer : BackPointer cpuDataAddress m
  confined : ∀ t : Machine,
    t.mem.load64 (GuestState.cpuData guestState) = m.load64 (GuestState.cpuData guestState) →
    t.mem.load64 (regSlot guestState .rdi) = protecetSyscall →
    ∃ t', (vmcallHandler guestState).run t = .ret .handlerSuccess t' ∧
      ∀ x, (x < CpuData.msrBitmaps cpuDataAddress ∨ CpuData.msrBitmaps cpuDataAddress + 4096 ≤ x) →
        (x < regSlot guestState .rip ∨ regSlot guestState .rip + 8 ≤ x) → t'.mem x = t.mem x

theorem vmcallHandler_confined {t : Machine} (hb : BackPointer cpuDataAddress t.mem)
    (hrdi : t.mem.load64 (regSlot guestState .rdi) = protecetSyscall) :
    ∃ t', (vmcallHandler guestState).run t = .ret .handlerSuccess t' ∧
      ∀ x, (x < CpuData.msrBitmaps cpuDataAddress ∨ CpuData.msrBitmaps cpuDataAddress + 4096 ≤ x) →
        (x < regSlot guestState .rip ∨ regSlot guestState .rip + 8 ≤ x) → t'.mem x = t.mem x := by
  have hrdi' : (advanceRip guestState (exitInfo t.vmcs).len t.mem).load64 (regSlot guestState .rdi)
      = protecetSyscall := by
    rw [load_advanceRip, if_neg (by decide), hrdi]
  obtain ⟨log, hrun⟩ := serves_vmcall guestState t hrdi'
  refine ⟨_, hrun, fun x hbits hrip => ?_⟩
  show protect guestState _ x = _
  rw [guestState, protect_outside cpuDataAt_fixed (backPointer_advanceRip hb _) x hbits]
  exact Mem.update64_outside _ _ _ _ hrip

/-- **a run of `set_syscall_handler` is safe exactly if its last call with number `512`, when there
is one, passes the address of `cpu_data` itself** -/
theorem set_handlers_safe_iff (cs : List SetCall) (s : Machine)
    (hb : BackPointer cpuDataAddress s.mem) :
    (∃ s', (setAll cs).run s = .ret () s' ∧ BackPointerSafe s.mem s'.mem) ↔
      ∀ c, LastWrite.last SetCall.hitsPointer cs = some c →
        c.handler = BitVec.ofNat 64 cpuDataAddress := by
  have hptr := load_storeEntries_pointer cs s.mem
  constructor
  · rintro ⟨s', hrun, hsafe⟩ c hc
    cases (setAll_eq cs s).symm.trans hrun
    have h := hsafe.pointer
    rw [hc] at hptr
    exact hptr.symm.trans h
  · intro h
    have hb' : BackPointer cpuDataAddress (cs.foldl storeEntry s.mem) := by
      refine hptr.trans ?_
      cases hl : LastWrite.last SetCall.hitsPointer cs with
      | none => exact hb
      | some c => exact h c hl
    refine ⟨_, setAll_eq cs s, fun x hx => ?_, hb', fun t ht hrdi => ?_⟩
    · -- a byte of the back pointer, or one beyond every store
      by_cases hin : ssdtAddress + 8 * ssdtSize ≤ x ∧ x < ssdtAddress + 8 * ssdtSize + 8
      · obtain ⟨k, rfl⟩ := Nat.exists_eq_add_of_le hin.1
        have hbytes : (cs.foldl storeEntry s.mem).load64 (GuestState.cpuData guestState)
            = s.mem.load64 (GuestState.cpuData guestState) := hb'.trans hb.symm
        have hk : k < 8 := by omega
        have h1 := Mem.byte_of_load (cs.foldl storeEntry s.mem) (GuestState.cpuData guestState) 8 k hk
        have h2 := Mem.byte_of_load s.mem (GuestState.cpuData guestState) 8 k hk
        exact h1.symm.trans ((congrArg (fun v => BitVec.extractLsb' (8 * k) 8 v) hbytes).trans h2)
      · exact storeEntries_outside cs s.mem x (by omega)
    · exact vmcallHandler_confined (ht.trans hb') hrdi

/-- two registrations that are safe: the last number of the table, and one that is refused -/
theorem set_handlers_safe_iff_bounds :
    (∃ s', (setAll [⟨511#32, 0x100000#64⟩, ⟨513#32, 0x100000#64⟩]).run pointedMachine = .ret () s' ∧
      BackPointerSafe pointedMachine.mem s'.mem) ↔
      ∀ c, LastWrite.last SetCall.hitsPointer [⟨511#32, 0x100000#64⟩, ⟨513#32, 0x100000#64⟩] = some c →
        c.handler = BitVec.ofNat 64 cpuDataAddress :=
  set_handlers_safe_iff _ pointedMachine pointedMachine_backPointer

/-- **the registration of number `512` overwrites the back pointer** -/
theorem set_handler_breaks_pointer :
    ¬ ∀ (cs : List SetCall) (s : Machine), BackPointer cpuDataAddress s.mem →
      ∃ s', (setAll cs).run s = .ret () s' ∧ BackPointerSafe s.mem s'.mem := by
  intro h
  obtain ⟨s', hrun, hsafe⟩ := h [⟨512#32, 0x100000#64⟩] pointedMachine pointedMachine_backPointer
  cases (setAll_eq _ _).symm.trans hrun
  have hptr := load_storeEntries_pointer [⟨512#32, 0x100000#64⟩] pointedMachine.mem
  have hbad : (0x100000#64 : BitVec 64) = BitVec.ofNat 64 cpuDataAddress :=
    hptr.symm.trans hsafe.pointer
  exact absurd hbad (by decide)

end HyperC
