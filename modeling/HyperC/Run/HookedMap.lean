import HyperC.Boot.PageTables
import HyperC.Run.Access

/-!
# What the guest can reach

The extended page tables after `configure_vmcs` on zeroed memory and `initialize_read_hook`.

* `HookedMap`         every page below 4 GiB is mapped to itself with all rights, but for the page of
                      the syscall table, and nothing is mapped above;
* `hookedMap_setup`   the setup makes this map;
* `boot_paging_identity`   with the page tables of the boot, the guest's two translations compose to
                      the identity, as the host's one is;
* `Private`, `private_alias_iff`   a page of the hypervisor is reached through its own address only;
* `guest_writes_bitmaps`   and through that it is reached.
-/

namespace HyperC
open Code Ept Walk

/-- the translation of guest-physical addresses under the hook -/
structure HookedMap (caps : Caps) (s : Machine) : Prop where
  mapped : ∀ a < 2 ^ 32, ¬ InSsdtPage a →
    eptWalk caps s.mem (s.vmcs vmcsEptPointer) a = .mapped a identityAttrs
  hooked : ∀ a, InSsdtPage a → eptWalk caps s.mem (s.vmcs vmcsEptPointer) a = .fault .misconfigured
  above : ∀ a, 2 ^ 32 ≤ a → a < 2 ^ 48 →
    eptWalk caps s.mem (s.vmcs vmcsEptPointer) a = .fault .notPresent

section
variable {img : Image} {s s' : Machine}

/-- **the setup maps the first 4 GiB to themselves, but for one page** -/
theorem hookedMap_setup (caps : Caps)
    (hz : s.mem.ZeroOn (CpuData.epts cpuDataAddress) extendedPagingTablesT.size)
    (h : (configureVmcs img cpuDataAddress).run s = .ret () s') : HookedMap caps (hooked s') := by
  have hal : CpuData.epts cpuDataAddress % 4096 = 0 := by decide
  have hend : CpuData.epts cpuDataAddress + extendedPagingTablesT.size ≤ 2 ^ 48 := by decide
  have hlt : CpuData.epts cpuDataAddress < 2 ^ 48 := by decide
  have hclean := cleanTables_of_zero hz
  have hmem : s'.mem = buildTables (CpuData.epts cpuDataAddress) s.mem := (configureVmcs_inv img _ h).2.1
  have heptp : (hooked s').vmcs vmcsEptPointer = eptpOf (CpuData.epts cpuDataAddress) :=
    configureVmcs_field img _ h (by simp [configuredFields]) (by decide)
  have hslot : ∀ page < 1048576, PageSlot caps (CpuData.epts cpuDataAddress) page
      (.page (page * pageSize) identityAttrs) s'.mem := by
    intro page hp
    rw [hmem]
    exact pageSlot_build hclean hal hend hp
  have hp : ssdtPage < 1048576 := by decide
  refine ⟨fun a ha hne => ?_, fun a ha => ?_, fun a h1 h2 => ?_⟩
  · have hne' : hookUpdate.page ≠ a / 4096 := by
      rw [hookUpdate_page]
      exact fun e => hne e.symm
    rw [heptp]
    exact pageSlot_identity (pageSlot_update_ne hookUpdate (hslot (a / 4096) (by omega)) hne') hal hlt
      (by omega) rfl
  · have ht := ssdtTables_hook (s := s') ⟨heptp, hslot ssdtPage hp⟩
    rw [ssdtTables_walk ht ha, resolve_stop ht.tables.leaf]
  · have hempty : EmptyAbove (CpuData.epts cpuDataAddress) s'.mem := by
      rw [hmem]
      exact emptyAbove_build (emptyAbove_of_zero hz)
    rw [heptp]
    exact (eptWalk_empty (upperTables_update [hookUpdate] (hslot 0 (by norm_num)).upper)
      (emptyAbove_update hookUpdate hempty) hal hlt h1 h2).1

theorem hookedMap_identity {caps : Caps} (h : HookedMap caps s) {a : ℕ} (ha : a < 0x1000000) :
    eptWalk caps s.mem (s.vmcs vmcsEptPointer) a = .mapped a identityAttrs :=
  h.mapped a (by omega) (by unfold InSsdtPage ssdtPage; omega)

end

/-! ## the two translations of a guest -/

section
variable {img : Image} {s s' : Machine} {m₀ : Mem}

theorem low_setup (h : (configureVmcs img cpuDataAddress).run s = .ret () s') {x : ℕ}
    (hx : x < 0x1000000) : (hooked s').mem x = s.mem x := by
  have h1 : Epts.pts (CpuData.epts cpuDataAddress) 0x1812 = 0x1014090 := rfl
  have h2 : CpuData.epts cpuDataAddress = 0x1002000 := rfl
  have hhook : (hooked s').mem x = s'.mem x := by
    refine updateLeaf_outside _ hookUpdate s'.mem x (Or.inl ?_)
    rw [hookUpdate_page, ssdtPage, h1]
    omega
  rw [hhook]
  exact (keeps_configureVmcs img x cpuDataAddress (Or.inl (by rw [h2]; omega))).of_ret h

/-- **boot paging and the extended page tables compose to the identity** -/
theorem boot_paging_identity (mode : Paging.Mode) (caps : Caps) (img : Image) (m₀ : Mem) (s : Machine)
    (hboot : ∀ x, 0x110000 ≤ x → x < 0x116000 →
      s.mem x = Boot.setupPml4Map Boot.memorySize m₀ x)
    (hcr3 : s.cpu.cr3 = Boot.ia32ePagingBase.setWidth 64)
    (hz : s.mem.ZeroOn (CpuData.epts cpuDataAddress) extendedPagingTablesT.size) :
    ∃ s₁ s₂, (configureVmcs img cpuDataAddress).run s = .ret () s₁ ∧
      (initializeReadHook (CpuData.epts cpuDataAddress)
        (GuestState.ssdt (CpuData.guestCpuState cpuDataAddress))).run s₁ = .ret () s₂ ∧
      ∀ la < 2 ^ 32, ¬ InSsdtPage la →
        Paging.guestWalk mode caps s₂.mem (s₂.vmcs vmcsGuestCr3) (s₂.vmcs vmcsEptPointer) la
          = .mapped la ⟨true, true, true⟩ ∧
        Paging.linearWalk mode s₂.mem s.cpu.cr3 la = .mapped la Boot.bootAttrs := by
  obtain ⟨log, hrun⟩ := configureVmcs_run img cpuDataAddress s
  refine ⟨_, _, hrun, initializeReadHook_hooked _, fun la hla hne => ?_⟩
  generalize hs : { s with
    mem := buildTables (CpuData.epts cpuDataAddress) s.mem
    vmcs := vmwrites (configuredFields img cpuDataAddress s.cpu) s.vmcs
    log := log } = s₁ at hrun ⊢
  have hmap := hookedMap_setup caps hz hrun
  have hguest : (hooked s₁).vmcs vmcsGuestCr3 = s.cpu.cr3 :=
    configureVmcs_field img _ hrun (by simp [configuredFields, guestRegFields]) (by decide)
  have hframe : Paging.frame s.cpu.cr3 = 0x110000 := by
    rw [hcr3]
    decide
  have htables : Boot.BootTables 4 (hooked s₁).mem := by
    refine Boot.bootTables_congr (by norm_num)
      (Boot.bootTables_setup (by norm_num) (by norm_num) m₀) fun x hlo hhi => ?_
    rw [low_setup hrun (by omega)]
    exact hboot x hlo (by omega)
  refine ⟨?_, ?_⟩
  · have hwalk : walk (Paging.format mode)
        (Paging.guestRead caps (hooked s₁).mem ((hooked s₁).vmcs vmcsEptPointer)) 3
        (Paging.frame s.cpu.cr3) Paging.allRights la = .mapped la Boot.bootAttrs := by
      rw [hframe]
      exact Boot.walk_boot htables le_rfl (fun a _ _ => Paging.guestRead_of_identity
        (hookedMap_identity hmap (by omega)) rfl rfl) (by omega)
    rw [hguest]
    exact Paging.guestWalk_of_walk hwalk (hmap.mapped la hla hne)
  · rw [Paging.linearWalk, hframe]
    exact Boot.walk_boot htables le_rfl (fun _ _ _ => rfl) (by omega)

end

/-- a processor that runs on the boot's tables, in memory that was zero before -/
def pagedMachine : Machine :=
  { (default : Machine) with
    mem := Boot.setupPml4Map Boot.memorySize fun _ => 0#8
    cpu := { (default : Cpu) with cr3 := Boot.ia32ePagingBase.setWidth 64 } }

theorem boot_paging_identity_zero : ∃ s₁ s₂,
    (configureVmcs sampleImage cpuDataAddress).run pagedMachine = .ret () s₁ ∧
      (initializeReadHook (CpuData.epts cpuDataAddress)
        (GuestState.ssdt (CpuData.guestCpuState cpuDataAddress))).run s₁ = .ret () s₂ ∧
      ∀ la < 2 ^ 32, ¬ InSsdtPage la →
        Paging.guestWalk ⟨true, true⟩ ⟨true, true, true⟩ s₂.mem (s₂.vmcs vmcsGuestCr3)
          (s₂.vmcs vmcsEptPointer) la = .mapped la ⟨true, true, true⟩ ∧
        Paging.linearWalk ⟨true, true⟩ s₂.mem pagedMachine.cpu.cr3 la = .mapped la Boot.bootAttrs := by
  have h2 : CpuData.epts cpuDataAddress = 0x1002000 := rfl
  refine boot_paging_identity ⟨true, true⟩ ⟨true, true, true⟩ sampleImage (fun _ => 0#8) pagedMachine
    (fun _ _ _ => rfl) rfl fun x hx _ => ?_
  exact Boot.setupPml4Map_outside (by decide) (by decide) _ x (Or.inr (by
    rw [h2] at hx
    show 0x112000 + 4096 * 4 ≤ x
    omega))

/-! ## the hypervisor's own pages -/

/-- the address lies in one of the hypervisor's pages: the two VMX regions, the extended page tables,
the bitmaps and the saved registers -/
def Private (p x : ℕ) : Prop :=
  (CpuData.vmxonRegion p ≤ x ∧ x < CpuData.vmxonRegion p + pageFrameSize) ∨
  (CpuData.vmcs p ≤ x ∧ x < CpuData.vmcs p + pageFrameSize) ∨
  (CpuData.epts p ≤ x ∧ x < CpuData.epts p + extendedPagingTablesT.size) ∨
  (CpuData.msrBitmaps p ≤ x ∧ x < CpuData.msrBitmaps p + pageFrameSize) ∨
  (CpuData.guestCpuState p ≤ x ∧ x < CpuData.guestCpuState p + pageFrameSize)

/-- the guest may write at `a`, and reaches the host's address `h` -/
def GuestWrites (caps : Caps) (s : Machine) (a h : ℕ) : Prop :=
  ∃ q, eptWalk caps s.mem (s.vmcs vmcsEptPointer) a = .mapped h q ∧ q.write = true

section
variable {caps : Caps} {s : Machine} {a h : ℕ}

theorem private_range (hx : Private cpuDataAddress a) : 0x1000000 ≤ a ∧ a < 0x180A000 := by
  have e1 : CpuData.vmxonRegion cpuDataAddress = 0x1000000 := rfl
  have e2 : CpuData.vmcs cpuDataAddress = 0x1001000 := rfl
  have e3 : CpuData.epts cpuDataAddress = 0x1002000 := rfl
  have e4 : CpuData.msrBitmaps cpuDataAddress = 0x1808000 := rfl
  have e5 : CpuData.guestCpuState cpuDataAddress = 0x1809000 := rfl
  have e6 : pageFrameSize = 0x1000 := rfl
  unfold Private at hx
  rw [e1, e2, e3, e4, e5, e6, Epts.size_eq] at hx
  omega

/-- **the guest writes where it points to** -/
theorem guestWrites_iff (hmap : HookedMap caps s) (ha : a < 2 ^ 48) :
    GuestWrites caps s a h ↔ a < 2 ^ 32 ∧ ¬ InSsdtPage a ∧ h = a := by
  constructor
  · rintro ⟨q, hw, -⟩
    by_cases h32 : a < 2 ^ 32
    · by_cases hs : InSsdtPage a
      · cases (hmap.hooked a hs).symm.trans hw
      · cases (hmap.mapped a h32 hs).symm.trans hw
        exact ⟨h32, hs, rfl⟩
    · cases (hmap.above a (by omega) ha).symm.trans hw
  · rintro ⟨h32, hs, rfl⟩
    exact ⟨identityAttrs, hmap.mapped h h32 hs, rfl⟩

end

/-- **a guest's store reaches a byte of the hypervisor through that byte's own address, and no other** -/
theorem private_alias_iff (caps : Caps) (img : Image) (s : Machine)
    (hz : s.mem.ZeroOn (CpuData.epts cpuDataAddress) extendedPagingTablesT.size) :
    ∃ s₁ s₂, (configureVmcs img cpuDataAddress).run s = .ret () s₁ ∧
      (initializeReadHook (CpuData.epts cpuDataAddress)
        (GuestState.ssdt (CpuData.guestCpuState cpuDataAddress))).run s₁ = .ret () s₂ ∧
      ∀ h, Private cpuDataAddress h → ∀ a < 2 ^ 48, (GuestWrites caps s₂ a h ↔ a = h) := by
  obtain ⟨log, hrun⟩ := configureVmcs_run img cpuDataAddress s
  have hmap := hookedMap_setup caps hz hrun
  refine ⟨_, _, hrun, initializeReadHook_hooked _, fun h hp a ha => ?_⟩
  have hrange := private_range hp
  have hplain : ¬ InSsdtPage h := by
    unfold InSsdtPage ssdtPage
    omega
  constructor
  · intro hw
    exact ((guestWrites_iff hmap ha).mp hw).2.2.symm
  · rintro rfl
    exact (guestWrites_iff hmap ha).mpr ⟨by omega, hplain, rfl⟩

theorem private_alias_iff_paged : ∃ s₁ s₂,
    (configureVmcs sampleImage cpuDataAddress).run default = .ret () s₁ ∧
      (initializeReadHook (CpuData.epts cpuDataAddress)
        (GuestState.ssdt (CpuData.guestCpuState cpuDataAddress))).run s₁ = .ret () s₂ ∧
      ∀ h, Private cpuDataAddress h → ∀ a < 2 ^ 48,
        (GuestWrites ⟨true, true, true⟩ s₂ a h ↔ a = h) :=
  private_alias_iff ⟨true, true, true⟩ sampleImage default fun _ _ _ => rfl

/-- **the guest can write to the bitmaps that watch it** -/
theorem guest_writes_bitmaps : ¬ ∀ (caps : Caps) (img : Image) (s s₁ : Machine),
    s.mem.ZeroOn (CpuData.epts cpuDataAddress) extendedPagingTablesT.size →
    (configureVmcs img cpuDataAddress).run s = .ret () s₁ →
    ∀ a < 2 ^ 48, ∀ h, GuestWrites caps (hooked s₁) a h → ¬ Private cpuDataAddress h := by
  intro hall
  have hz : (default : Machine).mem.ZeroOn (CpuData.epts cpuDataAddress) extendedPagingTablesT.size :=
    fun _ _ _ => rfl
  obtain ⟨log, hrun⟩ := configureVmcs_run sampleImage cpuDataAddress default
  have hmap := hookedMap_setup ⟨true, true, true⟩ hz hrun
  have hw : GuestWrites ⟨true, true, true⟩ (hooked _) 0x1808000 0x1808000 :=
    (guestWrites_iff hmap (by norm_num)).mpr ⟨by norm_num, by unfold InSsdtPage ssdtPage; omega, rfl⟩
  refine hall ⟨true, true, true⟩ sampleImage default _ hz hrun 0x1808000 (by norm_num) _ hw ?_
  exact Or.inr (Or.inr (Or.inr (Or.inl ⟨by decide, by decide⟩)))

end HyperC
