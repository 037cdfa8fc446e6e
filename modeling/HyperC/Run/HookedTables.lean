import HyperC.Run.HookedMap

/-!
# The tables of the guest, leaf by leaf

`HookedMap` says where the guest's addresses go; here is what the tables hold for that, which is a
matter of the bytes of the tables alone.

* `GuestTables`       every leaf has its slot, and nothing hangs above 4 GiB;
* `guestTables_congr` no byte outside the tables matters;
* `guestTables_configure`, `guestTables_hook`   what `configure_vmcs` builds, and the hook;
* `guestTables_setup` so the guest is launched under the hook;
* `eptAccess_eq`      every access of the guest, on every address.
-/

namespace HyperC
open Code Ept Walk

/-- the tables send each page below 4 GiB to its slot -/
structure GuestTables (caps : Caps) (slots : ℕ → Slot Attrs Fault) (s : Machine) : Prop where
  eptPointer : s.vmcs vmcsEptPointer = eptpOf (CpuData.epts cpuDataAddress)
  leaves : ∀ page < 1048576, PageSlot caps (CpuData.epts cpuDataAddress) page (slots page) s.mem
  empty : EmptyAbove (CpuData.epts cpuDataAddress) s.mem

def identitySlots (page : ℕ) : Slot Attrs Fault := .page (page * pageSize) identityAttrs

def hookedSlots : ℕ → Slot Attrs Fault := Function.update identitySlots ssdtPage hookedSlot

/-- the byte is one of the extended page tables -/
def InTables (x : ℕ) : Prop := CpuData.epts cpuDataAddress ≤ x ∧
  x < CpuData.epts cpuDataAddress + extendedPagingTablesT.size

theorem tables_range {x : ℕ} (h : InTables x) : 0x1002000 ≤ x ∧ x < 0x1808000 := by
  have e : CpuData.epts cpuDataAddress = 0x1002000 := rfl
  unfold InTables at h
  rw [Epts.size_eq, e] at h
  omega

section
variable {caps : Caps} {slots : ℕ → Slot Attrs Fault} {epts : ℕ} {m m' : Mem} {s s' : Machine}

theorem emptyAbove_congr (h : EmptyAbove epts m)
    (hm : ∀ x, epts ≤ x → x < epts + extendedPagingTablesT.size → m' x = m x) :
    EmptyAbove epts m' := by
  rw [Epts.size_eq] at hm
  refine ⟨fun i h1 h2 => ?_, fun i h1 h2 => ?_⟩
  · rw [Mem.load64_congr fun k _ => hm _ (by rw [Epts.pml4_eq]; omega) (by rw [Epts.pml4_eq]; omega)]
    exact h.pml4 i h1 h2
  · rw [Mem.load64_congr fun k _ => hm _ (by rw [Epts.pdpt_eq]; omega) (by rw [Epts.pdpt_eq]; omega)]
    exact h.pdpt i h1 h2

/-- **only the bytes of the tables matter** -/
theorem guestTables_congr (h : GuestTables caps slots s)
    (hv : s'.vmcs vmcsEptPointer = s.vmcs vmcsEptPointer)
    (hm : ∀ x, InTables x → s'.mem x = s.mem x) : GuestTables caps slots s' := by
  have hm' : ∀ x, CpuData.epts cpuDataAddress ≤ x →
      x < CpuData.epts cpuDataAddress + extendedPagingTablesT.size → s'.mem x = s.mem x :=
    fun x hlo hhi => hm x ⟨hlo, hhi⟩
  exact ⟨hv.trans h.eptPointer, fun page hp => pageSlot_congr (h.leaves page hp) hp hm',
    emptyAbove_congr h.empty hm'⟩

theorem guestTables_configure {img : Image}
    (hz : s.mem.ZeroOn (CpuData.epts cpuDataAddress) extendedPagingTablesT.size)
    (h : (configureVmcs img cpuDataAddress).run s = .ret () s') :
    GuestTables caps identitySlots s' := by
  have hmem : s'.mem = buildTables (CpuData.epts cpuDataAddress) s.mem := (configureVmcs_inv img _ h).2.1
  refine ⟨configureVmcs_field img _ h (by simp [configuredFields]) (by decide), fun page hp => ?_, ?_⟩
  · rw [hmem]
    exact pageSlot_build (cleanTables_of_zero hz) (by decide) (by decide) hp
  · rw [hmem]
    exact emptyAbove_build (emptyAbove_of_zero hz)

/-- **the hook replaces the slot of its page** -/
theorem guestTables_hook (h : GuestTables caps slots s) :
    GuestTables caps (Function.update slots ssdtPage hookedSlot) (hooked s) := by
  refine ⟨h.eptPointer, fun page hp => ?_, emptyAbove_update hookUpdate h.empty⟩
  by_cases hne : page = ssdtPage
  · rw [hne, Function.update_self]
    exact (ssdtTables_hook (s := s) ⟨h.eptPointer, h.leaves ssdtPage (by decide)⟩).tables
  · rw [Function.update_of_ne hne]
    refine pageSlot_update_ne hookUpdate (h.leaves page hp) ?_
    rw [hookUpdate_page]
    exact Ne.symm hne

theorem guestTables_ssdt (h : GuestTables caps hookedSlots s) : SsdtTables caps hookedSlot s := by
  refine ⟨h.eptPointer, ?_⟩
  have hleaf := h.leaves ssdtPage (by decide)
  rwa [hookedSlots, Function.update_self] at hleaf

theorem hookedMap_of_tables (h : GuestTables caps hookedSlots s) : HookedMap caps s := by
  have hal : CpuData.epts cpuDataAddress % 4096 = 0 := by decide
  have hlt : CpuData.epts cpuDataAddress < 2 ^ 48 := by decide
  have hssdt := guestTables_ssdt h
  refine ⟨fun a ha hne => ?_, fun a ha => ?_, fun a h1 h2 => ?_⟩
  · have hleaf := h.leaves (a / 4096) (by omega)
    rw [hookedSlots, Function.update_of_ne hne] at hleaf
    rw [h.eptPointer]
    exact pageSlot_identity hleaf hal hlt (by omega) rfl
  · rw [ssdtTables_walk hssdt ha, resolve_stop hssdt.tables.leaf]
  · rw [h.eptPointer]
    exact (eptWalk_empty hssdt.tables.upper h.empty hal hlt h1 h2).1

/-- **where an access goes**: to its own address, to the hook, or nowhere -/
theorem eptAccess_eq (h : HookedMap caps s) {right : Attrs → Bool} (hr : right identityAttrs = true)
    {a : ℕ} (ha : a < 2 ^ 48) : eptAccess caps right s a
      = if a / 4096 = ssdtPage then .fault exitReasonEptMisconfig
        else if a < 2 ^ 32 then .host a else .fault exitReasonEptViolation := by
  unfold eptAccess
  split_ifs with hp hlt
  · rw [h.hooked a hp]
  · rw [h.mapped a hlt hp]
    exact if_pos hr
  · rw [h.above a (by omega) ha]

end

/-! ## the launched machine -/

section
variable {u : VmxUnit} {img : Image} {caps : Caps} {s s' s₀ : Machine}

/-- **the guest is launched on hooked tables**, if they are built in zeroed memory -/
theorem guestTables_setup (hz : s.mem.ZeroOn (CpuData.epts cpuDataAddress) extendedPagingTablesT.size)
    (h : (hostSetup u img).run s = .ret () s') : GuestTables caps hookedSlots s' := by
  unfold hostSetup at h
  obtain ⟨⟨⟩, s₁, h₁, h⟩ := bind_eq_ret.mp h
  unfold vmSetup at h
  obtain ⟨⟨⟩, s₂, h₂, h⟩ := bind_eq_ret.mp h
  obtain ⟨⟨⟩, s₃, h₃, h⟩ := bind_eq_ret.mp h
  obtain ⟨⟨⟩, s₄, h₄, h₅⟩ := bind_eq_ret.mp h
  have hs₄ := (Outcome.ret.inj ((initializeSsdt_run _ s₃).symm.trans h₄)).2
  have hs' := (Outcome.ret.inj ((initializeReadHook_hooked s₄).symm.trans h₅)).2
  -- the memory of the tables is still zero when they are built
  have hz₂ : s₂.mem.ZeroOn (CpuData.epts cpuDataAddress) extendedPagingTablesT.size := by
    intro x hlo hhi
    obtain ⟨h1, h2⟩ := tables_range ⟨hlo, hhi⟩
    have e1 : GuestState.cpuData (CpuData.guestCpuState cpuDataAddress) = 0x1813000 := rfl
    have e2 : cpuDataAddress = 0x1000000 := rfl
    have hk₁ : s₁.mem x = s.mem x :=
      (keeps_announce x cpuDataAddress (by rw [e1]; omega)).of_ret h₁
    have hk₂ : s₂.mem x = s₁.mem x :=
      (keeps_enterVmxRoot u cpuDataAddress x (by rw [e2]; omega)).of_ret h₂
    rw [hk₂, hk₁]
    exact hz x hlo hhi
  have ht₃ : GuestTables caps identitySlots s₃ := guestTables_configure hz₂ h₃
  have ht₄ : GuestTables caps identitySlots s₄ := by
    refine guestTables_congr ht₃ (by rw [← hs₄]) fun x hx => ?_
    have e : crabEntry = 0x1812150 := rfl
    have hrange := tables_range hx
    rw [← hs₄]
    exact Mem.store64_outside _ _ _ _ (by rw [e]; omega)
  rw [← hs']
  exact guestTables_hook ht₄

theorem guestTables_boots (hz : s.mem.ZeroOn (CpuData.epts cpuDataAddress) extendedPagingTablesT.size)
    (h : Boots u img s s₀) : GuestTables caps hookedSlots s₀ := by
  obtain ⟨s₁, hsetup, hlaunch⟩ := h
  obtain ⟨log, rfl⟩ := launchVm_inv hlaunch
  exact guestTables_congr (guestTables_setup hz hsetup) rfl fun _ _ => rfl

end

end HyperC
