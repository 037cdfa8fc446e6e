import HyperC.Boot.Entrypoint
import HyperC.Run.VmRuns
import HyperC.Vmm.VmxonReady

/-!
# From the loader to the guest

* `launches_iff`      `initialize_host` gets into the guest exactly if the firmware lets it;
* `loader_launches`   the launch from the state of the loader: the machine runs a virtual machine, whose
                      memory is the loader's where nobody writes;
* `loader_runs_guest`   and so does every run of the guest from there.
-/

namespace HyperC
open Code Boot Simulation

section
variable {u : VmxUnit} {img : Image} {s : Machine}

variable (u img s) in
/-- the VM entry passes its checks on what the setup has written -/
def EntryPasses : Prop :=
  ∀ s₁ log, (hostSetup u img).run s = .ret () s₁ → u.launchFails { s₁ with log := log } = none

/-- **the host launches its guest exactly if the firmware lets it**, where the VMX instructions obey their
conditions and the VM entry passes its checks -/
theorem launches_iff (hu : u.Succeeds cpuDataAddress) (hf : FixedBits s.cpu.msr)
    (hlaunch : EntryPasses u img s) :
    (∃ s₀, (initializeHost u img).run s = .leave s₀) ↔
      VmxonAllowed (s.cpu.msr msrIa32FeatureControl) := by
  unfold initializeHost
  constructor
  · rintro ⟨s₀, h⟩
    by_contra hlock
    obtain ⟨s', hs'⟩ := hostSetup_halts img hu hlock
    rw [bind_of_halt hs'] at h
    cases h
  · intro hallowed
    obtain ⟨s₁, h₁⟩ := hostSetup_returns img hu hf hallowed
    obtain ⟨log, h₂⟩ := launchVm_leaves (s := s₁) fun log => hlaunch s₁ log h₁
    exact ⟨_, by rw [bind_of_ret h₁, h₂]⟩

end

theorem launches_iff_plain :
    (∃ s₀, (initializeHost plainUnit sampleImage).run (bootMachine fun _ => 0#8) = .leave s₀) ↔
      VmxonAllowed ((bootMachine fun _ => 0#8).cpu.msr msrIa32FeatureControl) :=
  launches_iff plainUnit_succeeds (freeMachine_fixed 0#64) fun _ _ _ => rfl

/-! ## from the loader -/

/-- the loader's stack is no part of the extended page tables either -/
def ApartFromEpt (S : ℕ) : Prop :=
  S ≤ CpuData.epts cpuDataAddress ∨
    CpuData.epts cpuDataAddress + extendedPagingTablesT.size + 44 ≤ S

/-- the byte is written neither on the way to `initialize_host` nor by it: the host has its data, its page
tables and the frames of its functions between the start of the image and the top of its stack -/
structure Loaded (S x : ℕ) : Prop extends Untouched x where
  host : x < 0x100000 ∨ higherMemoryStackTop ≤ x
  stack : x < S - 44 ∨ S ≤ x

section
variable {u : VmxUnit} {img : Image} {start : StartCode} {s t s₀ : Machine} {S : ℕ}

theorem zeroOn_entered (h : Boot.Entered start S s t) (hS : ApartFromEpt S)
    (hz : s.mem.ZeroOn (CpuData.epts cpuDataAddress) extendedPagingTablesT.size) :
    t.mem.ZeroOn (CpuData.epts cpuDataAddress) extendedPagingTablesT.size := by
  have h1 : CpuData.epts cpuDataAddress = 0x1002000 := rfl
  have h2 : higherMemoryStackTop = 0x120000 := rfl
  rw [ApartFromEpt] at hS
  intro x hlo hhi
  rw [h.outside x (by omega) (by omega) (by omega)]
  exact hz x hlo hhi

theorem boots_mem (h : Boots u img t s₀) {x : ℕ} (hx : Untouched x) : s₀.mem x = t.mem x := by
  obtain ⟨s₁, hsetup, hlaunch⟩ := h
  obtain ⟨log, rfl⟩ := launchVm_inv hlaunch
  have hmem : s₁.mem x = t.mem x := (keeps_hostSetup u img x hx).of_ret hsetup
  exact hmem

/-- **from the loader to the guest**: the launched machine runs a virtual machine whose memory is what
the loader left, where neither the entry nor the host writes -/
theorem loader_launches (u : VmxUnit) (env : GuestEnv) (start : StartCode) (s : Machine) (S : ℕ)
    (h : Multiboot S s) (hS : ApartFromEpt S)
    (hz : s.mem.ZeroOn (CpuData.epts cpuDataAddress) extendedPagingTablesT.size)
    (hu : u.Succeeds cpuDataAddress) (hf : FixedBits s.cpu.msr)
    (hlaunch : ∀ t, start.start.run ⟨s, []⟩ = .ret () ⟨t, []⟩ → EntryPasses u env.img t)
    (hallowed : VmxonAllowed (s.cpu.msr msrIa32FeatureControl)) :
    ∃ t s₀, start.start.run ⟨s, []⟩ = .ret () ⟨t, []⟩ ∧ (initializeHost u env.img).run t = .leave s₀ ∧
      Hosts env s₀ (vmOf s₀) ∧ ∀ x, Loaded S x → s₀.mem x = s.mem x := by
  obtain ⟨t, hrun, hentered⟩ := start_reaches_host start s S [] h
  have hmsr : t.cpu.msr msrIa32FeatureControl = s.cpu.msr msrIa32FeatureControl :=
    hentered.msr _ (by decide)
  rw [← hmsr] at hallowed
  have hft : FixedBits t.cpu.msr :=
    hf.congr fun r hr => hentered.msr r (ne_of_mem_of_not_mem hr (by decide))
  obtain ⟨s₁, hsetup⟩ := hostSetup_returns env.img hu hft hallowed
  obtain ⟨log, hleave⟩ := launchVm_leaves (s := s₁) fun log => hlaunch t hrun s₁ log hsetup
  have hboot : Boots u env.img t (vmEntry { s₁ with log := log }) := ⟨s₁, hsetup, hleave⟩
  refine ⟨t, _, hrun, hboot.run, hosts_boots env (zeroOn_entered hentered hS hz) hboot, ?_⟩
  intro x hx
  have htop : higherMemoryStackTop = 0x120000 := rfl
  have hhost := hx.host
  rw [boots_mem hboot hx.toUntouched, hentered.outside x (by omega) hx.stack (by omega)]

/-- **and so does every run of the guest from there**: it goes on as the virtual machine does, and halts
only where the virtual machine stops -/
theorem loader_runs_guest (u : VmxUnit) (env : GuestEnv) (start : StartCode) (s : Machine) (S : ℕ)
    (h : Multiboot S s) (hS : ApartFromEpt S)
    (hz : s.mem.ZeroOn (CpuData.epts cpuDataAddress) extendedPagingTablesT.size)
    (hu : u.Succeeds cpuDataAddress) (hf : FixedBits s.cpu.msr)
    (hlaunch : ∀ t, start.start.run ⟨s, []⟩ = .ret () ⟨t, []⟩ → EntryPasses u env.img t)
    (hallowed : VmxonAllowed (s.cpu.msr msrIa32FeatureControl)) :
    ∃ t s₀, start.start.run ⟨s, []⟩ = .ret () ⟨t, []⟩ ∧ (initializeHost u env.img).run t = .leave s₀ ∧
      (∀ x, Loaded S x → s₀.mem x = s.mem x) ∧ ∀ is, (∀ i ∈ is, i.Fair env.img) →
        (∀ v, runFrom (Vm.step env) (vmOf s₀) is = some v →
          ∃ s', (guestRuns env is).run s₀ = .ret () s' ∧ Hosts env s' v) ∧
        (runFrom (Vm.step env) (vmOf s₀) is = none → ∃ s', (guestRuns env is).run s₀ = .halt s') := by
  obtain ⟨t, s₀, hrun, hleave, hhosts, hmem⟩ :=
    loader_launches u env start s S h hS hz hu hf hlaunch hallowed
  refine ⟨t, s₀, hrun, hleave, hmem, fun is hfair => ⟨fun v hv => ?_, fun hnone => ?_⟩⟩
  · exact (vm_simulates env).returns_run hhosts hfair hv
  · exact (vm_simulates env).halts_run hhosts hfair hnone

/-- the loader of `sampleLoader`, on a processor that has been reset -/
def resetLoader : Machine :=
  { sampleLoader with cpu := { sampleLoader.cpu with msr := (freeMachine 0#64).cpu.msr } }

theorem multiboot_reset : Multiboot 0x7000 resetLoader :=
  ⟨⟨by decide, by decide, by decide, by decide⟩, by decide, by decide, by decide, by decide,
    Or.inl (by decide)⟩

theorem loader_runs_guest_sample : ∃ t s₀, sampleStart.start.run ⟨resetLoader, []⟩ = .ret () ⟨t, []⟩ ∧
    (initializeHost plainUnit sampleImage).run t = .leave s₀ ∧
    (∀ x, Loaded 0x7000 x → s₀.mem x = resetLoader.mem x) ∧ ∀ is, (∀ i ∈ is, i.Fair sampleImage) →
      (∀ v, runFrom (Vm.step plainEnv) (vmOf s₀) is = some v →
        ∃ s', (guestRuns plainEnv is).run s₀ = .ret () s' ∧ Hosts plainEnv s' v) ∧
      (runFrom (Vm.step plainEnv) (vmOf s₀) is = none →
        ∃ s', (guestRuns plainEnv is).run s₀ = .halt s') :=
  loader_runs_guest plainUnit plainEnv sampleStart resetLoader 0x7000 multiboot_reset
    (Or.inl (by decide)) (fun _ _ _ => rfl) plainUnit_succeeds (freeMachine_fixed 0#64)
    (fun _ _ _ _ _ => rfl) fun hlock => absurd hlock (by decide)

end

end HyperC
