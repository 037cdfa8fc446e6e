import HyperC.Run.Exit
import HyperC.Vmm.ConfigureVmcs

/-!
# The guest-state area that `configure_vmcs` leaves

The guest is meant to start with the registers of the host.  The limit of the GDT goes to the field of
the IDT's limit, which is written again three lines later; its own field is written nowhere.

* `HostEnvironment`   the fields hold the registers of a processor;
* `configured_gdtrLimit`, `configured_idtrLimit`   what the two limits hold;
* `host_environment_iff`   the fields are the host's exactly if the stale limit happens to be right.
-/

namespace HyperC
open Code

/-- the guest-state fields hold the registers of the processor `c`; `IA32_DEBUGCTL` takes two fields -/
structure HostEnvironment (c : Cpu) (vmcs : ℕ → BitVec 64) : Prop where
  cr0 : vmcs vmcsGuestCr0 = c.cr0
  cr3 : vmcs vmcsGuestCr3 = c.cr3
  cr4 : vmcs vmcsGuestCr4 = c.cr4
  dr7 : vmcs vmcsGuestDr7 = c.dr7
  debugctl : (vmcs vmcsGuestIa32DebugctlHigh <<< 32) ||| vmcs vmcsGuestIa32Debugctl
    = c.msr msrIa32Debugctl
  cs : vmcs vmcsGuestCsSelector = c.cs.setWidth 64
  ss : vmcs vmcsGuestSsSelector = c.ss.setWidth 64
  ds : vmcs vmcsGuestDsSelector = c.ds.setWidth 64
  es : vmcs vmcsGuestEsSelector = c.es.setWidth 64
  fs : vmcs vmcsGuestFsSelector = c.fs.setWidth 64
  gs : vmcs vmcsGuestGsSelector = c.gs.setWidth 64
  gdtrBase : vmcs vmcsGuestGdtrBase = c.gdtr.base
  gdtrLimit : vmcs vmcsGuestGdtrLimit = c.gdtr.limit.setWidth 64
  idtrBase : vmcs vmcsGuestIdtrBase = c.idtr.base
  idtrLimit : vmcs vmcsGuestIdtrLimit = c.idtr.limit.setWidth 64

section
variable (img : Image) (p : ℕ) {s s' : Machine} (h : (configureVmcs img p).run s = .ret () s')
include h

/-- **nothing is written to the limit of the GDT** -/
theorem configured_gdtrLimit : s'.vmcs vmcsGuestGdtrLimit = s.vmcs vmcsGuestGdtrLimit := by
  rw [(configureVmcs_inv img p h).1]
  refine vmwrites_of_not_mem _ _ _ ?_
  simp only [configuredFields, controlFields, hostFields, guestRegFields, guestSegmentFields,
    segmentFields, guestTableFields, List.map_append, List.map_cons, List.map_nil]
  decide

/-- **of the two writes to the limit of the IDT the second one counts** -/
theorem configured_idtrLimit : s'.vmcs vmcsGuestIdtrLimit = s.cpu.idtr.limit.setWidth 64 := by
  have hsplit : guestTableFields s.cpu.gdtr s.cpu.idtr
      = [(vmcsGuestGdtrBase, s.cpu.gdtr.base), (vmcsGuestIdtrLimit, s.cpu.gdtr.limit.setWidth 64),
        (vmcsGuestIdtrBase, s.cpu.idtr.base)] ++
        [(vmcsGuestIdtrLimit, s.cpu.idtr.limit.setWidth 64), (vmcsGuestActivityState, cpuStateActive),
          (vmcsGuestInterruptibilityInfo, defaultInterruptibilityState),
          (vmcsVmcsLinkPointer, BitVec.allOnes 64)] := rfl
  rw [(configureVmcs_inv img p h).1, configuredFields, hsplit, ← List.append_assoc, List.append_assoc,
    vmwrites_append]
  refine vmwrites_of_mem _ _ ?_ List.mem_cons_self
  simp only [List.map_append, List.map_cons, List.map_nil]
  decide

end

section
variable (img : Image) (p : ℕ) {s s' : Machine} (h : (configureVmcs img p).run s = .ret () s')
include h

theorem configured_guest {field : ℕ} {v : BitVec 64}
    (hm : (field, v) ∈ guestRegFields img p s.cpu ++ guestSegmentFields s.cpu ++
      guestTableFields s.cpu.gdtr s.cpu.idtr) (hne : field ≠ vmcsGuestIdtrLimit) :
    s'.vmcs field = v := by
  refine configureVmcs_field img p h ?_ hne
  have hgroups : configuredFields img p s.cpu = controlFields s.cpu ++ hostFields img p s.cpu ++
      (guestRegFields img p s.cpu ++ guestSegmentFields s.cpu ++
        guestTableFields s.cpu.gdtr s.cpu.idtr) ++
      [(vmcsMsrBitmap, BitVec.ofNat 64 (CpuData.msrBitmaps p)),
        (vmcsEptPointer, eptpOf (CpuData.epts p))] := by
    simp only [configuredFields, List.append_assoc]
  rw [hgroups]
  exact List.mem_append_left _ (List.mem_append_right _ hm)

theorem hostEnvironment_configured (hg : s.vmcs vmcsGuestGdtrLimit = s.cpu.gdtr.limit.setWidth 64) :
    HostEnvironment s.cpu s'.vmcs where
  cr0 := configured_guest img p h (by simp [guestRegFields]) (by decide)
  cr3 := configured_guest img p h (by simp [guestRegFields]) (by decide)
  cr4 := configured_guest img p h (by simp [guestRegFields]) (by decide)
  dr7 := configured_guest img p h (by simp [guestRegFields]) (by decide)
  debugctl := by
    have hlow : s'.vmcs vmcsGuestIa32Debugctl = s.cpu.msr msrIa32Debugctl &&& 0xffffffff#64 :=
      configured_guest img p h (by simp [guestRegFields]) (by decide)
    have hhigh : s'.vmcs vmcsGuestIa32DebugctlHigh = s.cpu.msr msrIa32Debugctl >>> 32 :=
      configured_guest img p h (by simp [guestRegFields]) (by decide)
    rw [hlow, hhigh, Bits.halves_or]
  cs := configured_guest img p h (by simp [guestSegmentFields, segmentFields]) (by decide)
  ss := configured_guest img p h (by simp [guestSegmentFields, segmentFields]) (by decide)
  ds := configured_guest img p h (by simp [guestSegmentFields, segmentFields]) (by decide)
  es := configured_guest img p h (by simp [guestSegmentFields, segmentFields]) (by decide)
  fs := configured_guest img p h (by simp [guestSegmentFields, segmentFields]) (by decide)
  gs := configured_guest img p h (by simp [guestSegmentFields, segmentFields]) (by decide)
  gdtrBase := configured_guest img p h (by simp [guestTableFields]) (by decide)
  gdtrLimit := (configured_gdtrLimit img p h).trans hg
  idtrBase := configured_guest img p h (by simp [guestTableFields]) (by decide)
  idtrLimit := configured_idtrLimit img p h

end

/-- **the guest starts in the environment of the host exactly if the limit of its GDT was there
before** -/
theorem host_environment_iff (img : Image) (p : ℕ) (s : Machine) :
    ∃ s', (configureVmcs img p).run s = .ret () s' ∧
      (HostEnvironment s.cpu s'.vmcs ↔
        s.vmcs vmcsGuestGdtrLimit = s.cpu.gdtr.limit.setWidth 64) := by
  obtain ⟨log, hrun⟩ := configureVmcs_run img p s
  exact ⟨_, hrun, fun he => (configured_gdtrLimit img p hrun).symm.trans he.gdtrLimit,
    fun hg => hostEnvironment_configured img p hrun hg⟩

/-- a host with a GDT of three entries -/
def gdtMachine : Machine :=
  { (default : Machine) with cpu := { (default : Cpu) with gdtr := ⟨0x17#16, 0x101000#64⟩ } }

/-- **on a cleared VMCS the guest's GDT has no entries** -/
theorem guest_gdt_stale : ¬ ∀ (img : Image) (p : ℕ) (s : Machine),
    ∃ s', (configureVmcs img p).run s = .ret () s' ∧ HostEnvironment s.cpu s'.vmcs := by
  intro h
  obtain ⟨s', hrun, he⟩ := h sampleImage cpuDataAddress gdtMachine
  have hlimit := (configured_gdtrLimit sampleImage cpuDataAddress hrun).symm.trans he.gdtrLimit
  exact absurd hlimit (by decide)

end HyperC
