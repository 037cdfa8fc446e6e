import HyperC.Guest.SetHandler
import HyperC.Run.Exit
import HyperC.Vmm.ConfigureVmcs
import HyperC.Vmm.EptUpdate
import HyperC.Vmm.VmxonReady

/-!
# `initialize_host`

* `initializeSsdt`, `initializeReadHook`, `hostSetup`, `initializeHost`   the functions;
* `Untouched`, `keeps_hostSetup`   the bytes the setup does not write;
* `hostSetup_returns`, `hostSetup_halts`   the setup gets through where `enter_vmx_root` does;
* `Launched`, `launched_of_ret`   what the guest is launched on;
* `Boots`, `boots_boot`   a boot of a processor that has just been reset.
-/

namespace HyperC
open Code Msr

/-- the flags of `initialize_read_hook`: no read access, write access, write-back memory -/
def ssdtPageFlags : BitVec 64 :=
  EptField.memoryType.set (EptField.writeAccess.set (EptField.readAccess.set 0 0) 1)
    eptMemoryTypeWriteback

/-- the table is not cleared: the `memset` is commented out -/
def initializeSsdt (img : Image) (_ssdt : ℕ) : Host Unit :=
  setSyscallHandler 42#32 (BitVec.ofNat 64 img.printACrab)

def initializeReadHook (epts ssdt : ℕ) : Host Unit :=
  updateGpaAccessRights epts (BitVec.ofNat 64 ssdt) ssdtPageFlags

/-- the lines of `initialize_host` about the layout -/
def logLayout (cpuData : ℕ) : Host Unit := do
  logInfo "VMM memory size is %x and its layout is as follows:" [.int (BitVec.ofNat 64 cpuDataT.size)]
  logInfo "[vmxon region]: %u" [.int (BitVec.ofNat 64 (CpuData.vmxonRegion cpuData))]
  logInfo "[vmcs]: %u" [.int (BitVec.ofNat 64 (CpuData.vmcs cpuData))]
  logInfo "[extended paging tables]: %u" [.int (BitVec.ofNat 64 (CpuData.epts cpuData))]
  logInfo "[msr bitmaps]: %u" [.int (BitVec.ofNat 64 (CpuData.msrBitmaps cpuData))]
  logInfo "[guest registers]: %u"
    [.int (BitVec.ofNat 64 (GuestState.register (CpuData.guestCpuState cpuData) 0))]
  logInfo "[guest stack]: %u"
    [.int (BitVec.ofNat 64 (GuestState.stackTop (CpuData.guestCpuState cpuData)))]
  logInfo "[guest ssdt]: %u" [.int (BitVec.ofNat 64 (GuestState.ssdt (CpuData.guestCpuState cpuData)))]

/-- the back pointer, with what is logged around it -/
def announce (cpuData : ℕ) : Host Unit := do
  setLogLevel .debug
  logInfo "initializing machine" []
  storeQword (GuestState.cpuData (CpuData.guestCpuState cpuData)) (BitVec.ofNat 64 cpuData)
  logLayout cpuData

/-- the calls of `initialize_host` before `launch_vm` -/
def vmSetup (u : VmxUnit) (img : Image) (cpuData : ℕ) : Host Unit := do
  enterVmxRoot u cpuData
  configureVmcs img cpuData
  initializeSsdt img (GuestState.ssdt (CpuData.guestCpuState cpuData))
  initializeReadHook (CpuData.epts cpuData) (GuestState.ssdt (CpuData.guestCpuState cpuData))

/-- `initialize_host` up to `launch_vm` -/
def hostSetup (u : VmxUnit) (img : Image) : Host Unit := do
  announce cpuDataAddress
  vmSetup u img cpuDataAddress

def initializeHost (u : VmxUnit) (img : Image) : Host Unit := do
  hostSetup u img
  launchVm u

/-! ## the bytes that are written -/

def crabEntry : ℕ := Ssdt.entries ssdtAddress (42#32).toNat

/-- the byte is none of those `vmSetup` writes: the two VMX regions, the tables and the entry of
number `42` -/
structure SetupKeeps (x : ℕ) : Prop where
  regions : x < cpuDataAddress ∨ cpuDataAddress + 0x2000 ≤ x
  epts : x < CpuData.epts cpuDataAddress ∨
    CpuData.epts cpuDataAddress + extendedPagingTablesT.size ≤ x
  entry : x < crabEntry ∨ crabEntry + 8 ≤ x

/-- nor is it in the back pointer -/
structure Untouched (x : ℕ) : Prop extends SetupKeeps x where
  pointer : x < GuestState.cpuData guestState ∨ GuestState.cpuData guestState + 8 ≤ x

section
variable (u : VmxUnit) (img : Image) (x : ℕ)

theorem keeps_logLayout (p : ℕ) : Keeps (byteAt x) (logLayout p) := by
  unfold logLayout
  refine (keeps_logInfo x _ _).bind fun _ => (keeps_logInfo x _ _).bind fun _ => ?_
  refine (keeps_logInfo x _ _).bind fun _ => (keeps_logInfo x _ _).bind fun _ => ?_
  refine (keeps_logInfo x _ _).bind fun _ => (keeps_logInfo x _ _).bind fun _ => ?_
  exact (keeps_logInfo x _ _).bind fun _ => keeps_logInfo x _ _

theorem keeps_announce (p : ℕ) (h : x < GuestState.cpuData (CpuData.guestCpuState p) ∨
    GuestState.cpuData (CpuData.guestCpuState p) + 8 ≤ x) : Keeps (byteAt x) (announce p) := by
  unfold announce
  refine keeps_then x (fun _ => rfl) fun _ => (keeps_logInfo x _ _).bind fun _ => ?_
  exact (keeps_storeQword x _ _ h).bind fun _ => keeps_logLayout x p

theorem keeps_configureVmcs (p : ℕ)
    (h : x < CpuData.epts p ∨ CpuData.epts p + extendedPagingTablesT.size ≤ x) :
    Keeps (byteAt x) (configureVmcs img p) := by
  refine keeps_of_ret x fun s => ?_
  obtain ⟨log, hrun⟩ := configureVmcs_run img p s
  refine ⟨(), _, hrun, ?_⟩
  rw [(configureVmcs_inv img p hrun).2.1]
  exact buildTables_outside _ _ x h

theorem keeps_setSyscallHandler (c : SetCall)
    (h : x < Ssdt.entries ssdtAddress c.number.toNat ∨
      Ssdt.entries ssdtAddress c.number.toNat + 8 ≤ x) :
    Keeps (byteAt x) (setSyscallHandler c.number c.handler) := by
  refine keeps_of_ret x fun s => ⟨(), _, setSyscallHandler_eq c s, ?_⟩
  unfold storeEntry
  split
  · exact Mem.store64_outside _ _ _ x h
  · rfl

theorem keeps_updateGpaAccessRights (epts : ℕ) (gpa flags : BitVec 64)
    (h : x < Epts.pts epts (gpa / BitVec.ofNat 64 pageSize).toNat ∨
      Epts.pts epts (gpa / BitVec.ofNat 64 pageSize).toNat + 8 ≤ x) :
    Keeps (byteAt x) (updateGpaAccessRights epts gpa flags) := by
  unfold updateGpaAccessRights
  exact (keeps_assertNot x _ _).bind fun _ => keeps_modifyMem x fun m => Mem.update64_outside _ _ m x h

theorem ssdt_page : (BitVec.ofNat 64 (GuestState.ssdt (CpuData.guestCpuState cpuDataAddress)) /
    BitVec.ofNat 64 pageSize).toNat = 0x1812 := by
  decide

theorem outside_leaf {epts i : ℕ} (h : x < epts ∨ epts + extendedPagingTablesT.size ≤ x)
    (hi : i < 1048576) : x < Epts.pts epts i ∨ Epts.pts epts i + 8 ≤ x := by
  rw [Epts.size_eq] at h
  rw [Epts.pts_eq]
  omega

theorem keeps_vmSetup (h : SetupKeeps x) : Keeps (byteAt x) (vmSetup u img cpuDataAddress) := by
  unfold vmSetup
  refine (keeps_enterVmxRoot u _ x h.regions).bind fun _ => ?_
  refine (keeps_configureVmcs img x _ h.epts).bind fun _ => ?_
  refine (keeps_setSyscallHandler x ⟨42#32, _⟩ h.entry).bind fun _ => ?_
  refine keeps_updateGpaAccessRights x _ _ _ (outside_leaf x h.epts ?_)
  rw [ssdt_page]
  decide

/-- **the setup writes nowhere else**, however it ends -/
theorem keeps_hostSetup (h : Untouched x) : Keeps (byteAt x) (hostSetup u img) :=
  (keeps_announce x _ h.pointer).bind fun _ => keeps_vmSetup u img x h.toSetupKeeps

end

theorem untouched_bitmaps {x : ℕ} (h : CpuData.msrBitmaps cpuDataAddress ≤ x)
    (h' : x < CpuData.msrBitmaps cpuDataAddress + pageFrameSize) : Untouched x := by
  have h1 : CpuData.msrBitmaps cpuDataAddress = 0x1808000 := rfl
  have h2 : CpuData.epts cpuDataAddress = 0x1002000 := rfl
  have h3 : GuestState.cpuData guestState = 0x1813000 := rfl
  have h4 : crabEntry = 0x1812150 := rfl
  have h5 : pageFrameSize = 4096 := rfl
  have h6 : cpuDataAddress = 0x1000000 := rfl
  exact ⟨⟨by omega, by rw [Epts.size_eq]; omega, by omega⟩, by omega⟩

theorem untouched_entry {n k : ℕ} (hn : n < ssdtSize) (h42 : n ≠ 42) (hk : k < 8) :
    Untouched (Ssdt.entries ssdtAddress n + k) := by
  have h1 : Ssdt.entries ssdtAddress n = 0x1812000 + 8 * n := rfl
  have h2 : CpuData.epts cpuDataAddress = 0x1002000 := rfl
  have h3 : GuestState.cpuData guestState = 0x1813000 := rfl
  have h4 : crabEntry = 0x1812150 := rfl
  have h5 : ssdtSize = 512 := rfl
  have h6 : cpuDataAddress = 0x1000000 := rfl
  exact ⟨⟨by omega, by rw [Epts.size_eq]; omega, by omega⟩, by omega⟩

theorem setupKeeps_pointer {k : ℕ} (hk : k < 8) : SetupKeeps (GuestState.cpuData guestState + k) := by
  have h2 : CpuData.epts cpuDataAddress = 0x1002000 := rfl
  have h3 : GuestState.cpuData guestState = 0x1813000 := rfl
  have h4 : crabEntry = 0x1812150 := rfl
  have h6 : cpuDataAddress = 0x1000000 := rfl
  exact ⟨by omega, by rw [Epts.size_eq]; omega, by omega⟩

theorem crabEntry_outside {k : ℕ} (hk : k < 8) : crabEntry + k < CpuData.epts cpuDataAddress ∨
    CpuData.epts cpuDataAddress + extendedPagingTablesT.size ≤ crabEntry + k := by
  have h2 : CpuData.epts cpuDataAddress = 0x1002000 := rfl
  have h4 : crabEntry = 0x1812150 := rfl
  rw [Epts.size_eq]
  omega

/-! ## what the guest is launched on -/

/-- the state `initialize_host` hands to `launch_vm` -/
structure Launched (img : Image) (s : Machine) : Prop where
  ready : HostReady cpuDataAddress s
  msrBitmap : s.vmcs vmcsMsrBitmap = BitVec.ofNat 64 (CpuData.msrBitmaps cpuDataAddress)
  eptPointer : s.vmcs vmcsEptPointer = eptpOf (CpuData.epts cpuDataAddress)
  crab : s.mem.load64 crabEntry = BitVec.ofNat 64 img.printACrab

section
variable {u : VmxUnit} {img : Image} {s s' : Machine}

theorem announce_run (p : ℕ) (s : Machine) : ∃ log, (announce p).run s = .ret () { s with
    mem := s.mem.store64 (GuestState.cpuData (CpuData.guestCpuState p)) (BitVec.ofNat 64 p)
    minLevel := .debug
    log := log } := by
  unfold announce logLayout setLogLevel
  simp only [run_bind, run_modify, run_logInfo, run_storeQword]
  exact ⟨_, rfl⟩

theorem storeEntry_crab (m : Mem) (handler : BitVec 64) :
    storeEntry m ⟨42#32, handler⟩ = m.store64 crabEntry handler :=
  storeEntry_of_le m 42#32 handler (by decide)

theorem initializeSsdt_run (ssdt : ℕ) (s : Machine) : (initializeSsdt img ssdt).run s
    = .ret () { s with mem := s.mem.store64 crabEntry (BitVec.ofNat 64 img.printACrab) } := by
  have hrun := setSyscallHandler_eq ⟨42#32, BitVec.ofNat 64 img.printACrab⟩ s
  rw [storeEntry_crab] at hrun
  exact hrun

theorem initializeReadHook_run (s : Machine) :
    (initializeReadHook (CpuData.epts cpuDataAddress)
      (GuestState.ssdt (CpuData.guestCpuState cpuDataAddress))).run s
      = .ret () { s with
        mem := updateLeaf (CpuData.epts cpuDataAddress)
          (BitVec.ofNat 64 (GuestState.ssdt (CpuData.guestCpuState cpuDataAddress))) ssdtPageFlags
          s.mem } :=
  updateGpaAccessRights_eq _ _ _ (by decide) s

variable (img) in
/-- **the setup gets through** where `enter_vmx_root` does -/
theorem hostSetup_returns (hu : u.Succeeds cpuDataAddress) (hf : FixedBits s.cpu.msr)
    (h : VmxonAllowed (s.cpu.msr msrIa32FeatureControl)) :
    ∃ s', (hostSetup u img).run s = .ret () s' := by
  obtain ⟨log, h₁⟩ := announce_run cpuDataAddress s
  unfold hostSetup vmSetup
  rw [bind_of_ret h₁]
  obtain ⟨s₂, h₂⟩ := enterVmxRoot_returns (p := cpuDataAddress) (s := { s with
    mem := s.mem.store64 (GuestState.cpuData (CpuData.guestCpuState cpuDataAddress))
      (BitVec.ofNat 64 cpuDataAddress)
    minLevel := .debug
    log := log }) hu hf h
  obtain ⟨log', h₃⟩ := configureVmcs_run img cpuDataAddress s₂
  rw [bind_of_ret h₂, bind_of_ret h₃]
  rw [bind_of_ret (initializeSsdt_run _ _)]
  exact ⟨_, initializeReadHook_run _⟩

variable (img) in
theorem hostSetup_halts (hu : u.Succeeds cpuDataAddress)
    (h : ¬ VmxonAllowed (s.cpu.msr msrIa32FeatureControl)) :
    ∃ s', (hostSetup u img).run s = .halt s' := by
  obtain ⟨log, h₁⟩ := announce_run cpuDataAddress s
  unfold hostSetup vmSetup
  rw [bind_of_ret h₁]
  obtain ⟨s₂, h₂⟩ := enterVmxRoot_halts (p := cpuDataAddress) (s := { s with
    mem := s.mem.store64 (GuestState.cpuData (CpuData.guestCpuState cpuDataAddress))
      (BitVec.ofNat 64 cpuDataAddress)
    minLevel := .debug
    log := log }) hu h
  exact ⟨s₂, bind_of_halt h₂ _⟩

theorem launched_of_ret (h : (hostSetup u img).run s = .ret () s') : Launched img s' := by
  unfold hostSetup at h
  obtain ⟨⟨⟩, s₁, h₁, h⟩ := bind_eq_ret.mp h
  have hpointer : s'.mem.load64 (GuestState.cpuData guestState)
      = s₁.mem.load64 (GuestState.cpuData guestState) :=
    Mem.load64_congr fun k hk => (keeps_vmSetup u img _ (setupKeeps_pointer hk)).of_ret h
  unfold vmSetup at h
  obtain ⟨⟨⟩, s₂, h₂, h⟩ := bind_eq_ret.mp h
  obtain ⟨⟨⟩, s₃, h₃, h⟩ := bind_eq_ret.mp h
  obtain ⟨⟨⟩, s₄, h₄, h₅⟩ := bind_eq_ret.mp h
  have hs₄ := (Outcome.ret.inj ((initializeSsdt_run _ s₃).symm.trans h₄)).2
  have hs' := (Outcome.ret.inj ((initializeReadHook_run s₄).symm.trans h₅)).2
  have hvmcs : s'.vmcs = s₃.vmcs := by rw [← hs', ← hs₄]
  refine ⟨⟨?_, ?_⟩, ?_, ?_, ?_⟩
  · rw [HostFs, hvmcs]
    exact configureVmcs_field img _ h₃ (by simp [configuredFields, hostFields]) (by decide)
  · obtain ⟨log, hrun⟩ := announce_run cpuDataAddress s
    have hmem := congrArg Machine.mem (Outcome.ret.inj (hrun.symm.trans h₁)).2
    refine hpointer.trans ?_
    rw [← hmem]
    exact Mem.load64_store64_same _ _ _
  · rw [hvmcs]
    exact configureVmcs_field img _ h₃ (by simp [configuredFields]) (by decide)
  · rw [hvmcs]
    exact configureVmcs_field img _ h₃ (by simp [configuredFields]) (by decide)
  · have hentry : s'.mem.load64 crabEntry = s₄.mem.load64 crabEntry :=
      Mem.load64_congr fun k hk => (keeps_updateGpaAccessRights _ _ _ _
        (outside_leaf _ (crabEntry_outside hk) (by rw [ssdt_page]; decide))).of_ret h₅
    rw [hentry, ← hs₄]
    exact Mem.load64_store64_same _ _ _

end

/-- the host sets up and launches the guest on `s₀` -/
def Boots (u : VmxUnit) (img : Image) (s s₀ : Machine) : Prop :=
  ∃ s₁, (hostSetup u img).run s = .ret () s₁ ∧ (launchVm u).run s₁ = .leave s₀

theorem Boots.run {u : VmxUnit} {img : Image} {s s₀ : Machine} (h : Boots u img s s₀) :
    (initializeHost u img).run s = .leave s₀ := by
  obtain ⟨s₁, hsetup, hlaunch⟩ := h
  unfold initializeHost
  rw [bind_of_ret hsetup, hlaunch]

/-! ## a boot -/

/-- a processor that has just been reset, on any memory -/
def bootMachine (m : Mem) : Machine := { freeMachine 0#64 with mem := m }

theorem hostSetup_boot (m : Mem) :
    ∃ s', (hostSetup plainUnit sampleImage).run (bootMachine m) = .ret () s' := by
  have hmsr : (bootMachine m).cpu.msr = (freeMachine 0#64).cpu.msr := rfl
  refine hostSetup_returns _ plainUnit_succeeds ?_ ?_
  · rw [hmsr]
    exact freeMachine_fixed 0#64
  · rw [hmsr]
    exact fun hlock => absurd hlock (by decide)

theorem boots_boot (m : Mem) : ∃ s₀, Boots plainUnit sampleImage (bootMachine m) s₀ := by
  obtain ⟨s₁, hs₁⟩ := hostSetup_boot m
  obtain ⟨log, hleave⟩ := launchVm_leaves (u := plainUnit) (s := s₁) fun _ => rfl
  exact ⟨_, s₁, hs₁, hleave⟩

end HyperC
