import HyperC.Guest.ReadHook
import HyperC.Run.VmRefines
import HyperC.Vmm.Controls

/-!
# Runs of the guest, from the launch

* `hosts_boots`       the launched machine runs the virtual machine;
* `guest_runs_on_vm`  so does every run of the guest, and it halts only where the virtual machine stops;
* `StopsAt`, `halts_where_stopped`   which is at a hypercall the hypervisor does not know, or at an access
                      to an MSR that the processor refuses;
* `guest_sees_no_host`   the guest cannot tell two hosts apart;
* `table_frozen`      the guest never changes the syscall table.
-/

namespace HyperC
open Code Msr Ept Simulation

/-! ## the launch -/

section
variable {u : VmxUnit} {img : Image} {s s' s₀ : Machine}

theorem hltExits_configure {p : ℕ} (h : (configureVmcs img p).run s = .ret () s') : HltExits s' := by
  have hc : (⟨vmcsCpuBasedVmExecControl, msrIa32VmxProcbasedCtls, msrIa32VmxTrueProcbasedCtls,
      cpuBasedHltExiting ||| cpuBasedActivateMsrBitmap ||| cpuBasedActivateSecondaryControls⟩ : Control)
      ∈ controls := by simp [controls]
  have hbit : (cpuBasedHltExiting ||| cpuBasedActivateMsrBitmap |||
      cpuBasedActivateSecondaryControls).getLsbD 7 = true := by decide
  rw [HltExits, control_field img p h hc, BitVec.getLsbD_setWidth, BitVec.getLsbD_or, hbit,
    Bool.or_true]
  rfl

theorem hltExits_setup (h : (hostSetup u img).run s = .ret () s') : HltExits s' := by
  unfold hostSetup at h
  obtain ⟨⟨⟩, s₁, -, h⟩ := bind_eq_ret.mp h
  unfold vmSetup at h
  obtain ⟨⟨⟩, s₂, -, h⟩ := bind_eq_ret.mp h
  obtain ⟨⟨⟩, s₃, h₃, h⟩ := bind_eq_ret.mp h
  obtain ⟨⟨⟩, s₄, h₄, h₅⟩ := bind_eq_ret.mp h
  have hs₄ := (Outcome.ret.inj ((initializeSsdt_run _ s₃).symm.trans h₄)).2
  have hs' := (Outcome.ret.inj ((initializeReadHook_run s₄).symm.trans h₅)).2
  have hvmcs : s'.vmcs = s₃.vmcs := by rw [← hs', ← hs₄]
  rw [HltExits, hvmcs]
  exact hltExits_configure h₃

/-- **the launched machine runs its virtual machine** -/
theorem hosts_boots (env : GuestEnv)
    (hz : s.mem.ZeroOn (CpuData.epts cpuDataAddress) extendedPagingTablesT.size)
    (h : Boots u img s s₀) : Hosts env s₀ (vmOf s₀) where
  view := hostView_boots h
  backPointer := by
    obtain ⟨s₁, hsetup, hlaunch⟩ := h
    obtain ⟨log, rfl⟩ := launchVm_inv hlaunch
    exact (launched_of_ret hsetup).ready.backPointer
  hlt := by
    obtain ⟨s₁, hsetup, hlaunch⟩ := h
    obtain ⟨log, rfl⟩ := launchVm_inv hlaunch
    have hlt : HltExits s₁ := hltExits_setup hsetup
    exact hlt
  tables := guestTables_boots hz h
  debugctl := rfl
  regs := rfl
  msr := rfl
  watched := fun _ _ _ => rfl
  mem := fun _ _ => rfl

end

/-! ## runs -/

/-- the guest executes the instructions one after the other -/
def guestRuns (env : GuestEnv) (is : List GuestInstr) : Host Unit := each (GuestInstr.exec env) is

/-- **every run of the guest is a run of the virtual machine**, and it halts the host only where the
virtual machine stops -/
theorem guest_runs_on_vm (u : VmxUnit) (env : GuestEnv) (s s₀ : Machine)
    (hz : s.mem.ZeroOn (CpuData.epts cpuDataAddress) extendedPagingTablesT.size)
    (hboot : Boots u env.img s s₀) (is : List GuestInstr) (hfair : ∀ i ∈ is, i.Fair env.img) :
    (∀ v, runFrom (Vm.step env) (vmOf s₀) is = some v →
      ∃ s', (guestRuns env is).run s₀ = .ret () s' ∧ Hosts env s' v) ∧
    (runFrom (Vm.step env) (vmOf s₀) is = none → ∃ s', (guestRuns env is).run s₀ = .halt s') :=
  ⟨fun _ hr => (vm_simulates env).returns_run (hosts_boots env hz hboot) hfair hr,
    fun hr => (vm_simulates env).halts_run (hosts_boots env hz hboot) hfair hr⟩

/-- a guest that halts, looks at the syscall table and asks for the protection of its MSRs -/
def sampleGuest : List GuestInstr :=
  [.hlt, .load 0x1812150, .compute fun _ _ => 0#64, .vmcall, .wrmsr, .store 0x200000 5#64]

theorem sampleGuest_fair : ∀ i ∈ sampleGuest, i.Fair sampleImage := by
  intro i hi
  simp only [sampleGuest, List.mem_cons, List.not_mem_nil, or_false] at hi
  rcases hi with rfl | rfl | rfl | rfl | rfl | rfl
  · trivial
  · exact ⟨by decide, by norm_num, fun k hk => not_owned_of_le (by omega) (by omega) (by omega)⟩
  · trivial
  · trivial
  · trivial
  · exact ⟨by decide, by norm_num, fun k hk => not_owned_of_le (by omega) (by omega) (by omega)⟩

theorem guest_runs_on_vm_sample : ∃ s₀, Boots plainUnit sampleImage (bootMachine fun _ => 0#8) s₀ ∧
    (∀ v, runFrom (Vm.step plainEnv) (vmOf s₀) sampleGuest = some v →
      ∃ s', (guestRuns plainEnv sampleGuest).run s₀ = .ret () s' ∧ Hosts plainEnv s' v) ∧
    (runFrom (Vm.step plainEnv) (vmOf s₀) sampleGuest = none →
      ∃ s', (guestRuns plainEnv sampleGuest).run s₀ = .halt s') := by
  obtain ⟨s₀, hboot⟩ := boots_boot fun _ => 0#8
  exact ⟨s₀, hboot, guest_runs_on_vm plainUnit plainEnv (bootMachine fun _ => 0#8) s₀ (fun _ _ _ => rfl)
    hboot sampleGuest sampleGuest_fair⟩

/-! ## where it stops -/

/-- the instruction stops the machine: an access to an MSR that neither leaves the guest nor is one of
the processor's, or a hypercall that asks for something other than the protection of the system calls -/
def StopsAt (env : GuestEnv) (s : Machine) : GuestInstr → Prop
  | .rdmsr => ¬ MsrExits .read s ∧ env.readable (ecx s) = false
  | .wrmsr => ¬ MsrExits .write s ∧ env.writable (ecx s) (wrmsrValue s.cpu.regs) = false
  | .vmcall => s.cpu.regs .rdi ≠ protecetSyscall
  | _ => False

theorem Hosts.stopsAt_iff {env : GuestEnv} {s : Machine} {v : Vm} (h : Hosts env s v) (i : GuestInstr) :
    StopsAt env s i ↔ v.Stops env i := by
  have hecx : ecx s = v.ecx := by rw [ecx, h.regs, Vm.ecx]
  cases i with
  | rdmsr => rw [StopsAt, Vm.Stops, msrExits_iff h, hecx, Bool.not_eq_true]
  | wrmsr => rw [StopsAt, Vm.Stops, msrExits_iff h, hecx, h.regs, Bool.not_eq_true]
  | vmcall => rw [StopsAt, Vm.Stops, h.regs]
  | _ => exact Iff.rfl

/-- **a guest that leaves the hypervisor alone stops it there only** -/
theorem halts_where_stopped (u : VmxUnit) (env : GuestEnv) (s s₀ : Machine)
    (hz : s.mem.ZeroOn (CpuData.epts cpuDataAddress) extendedPagingTablesT.size)
    (hboot : Boots u env.img s s₀) (is : List GuestInstr) (hfair : ∀ i ∈ is, i.Fair env.img) :
    (∃ s', (guestRuns env is).run s₀ = .halt s') ↔
      ∃ pre i post s₁, is = pre ++ i :: post ∧ (guestRuns env pre).run s₀ = .ret () s₁ ∧
        StopsAt env s₁ i := by
  have hhosts := hosts_boots env hz hboot
  rw [guestRuns, (vm_simulates env).halts_iff hhosts hfair, runFrom_none_iff]
  constructor
  · rintro ⟨pre, i, post, v, rfl, hpre, hnone⟩
    obtain ⟨s₁, hrun, hv⟩ := (vm_simulates env).returns_run hhosts
      (fun i hi => hfair i (List.mem_append_left _ hi)) hpre
    exact ⟨pre, i, post, s₁, rfl, hrun, (hv.stopsAt_iff i).mpr (step_none_iff.mp hnone)⟩
  · rintro ⟨pre, i, post, s₁, rfl, hrun, hstops⟩
    have hfairs : ∀ i ∈ pre, i.Fair env.img := fun i hi => hfair i (List.mem_append_left _ hi)
    obtain ⟨v, hpre, hv⟩ := (vm_simulates env).returns_inv hhosts hfairs hrun
    exact ⟨pre, i, post, v, rfl, hpre, step_none_iff.mpr ((hv.stopsAt_iff i).mp hstops)⟩

theorem halts_where_stopped_sample : ∃ s₀, Boots plainUnit sampleImage (bootMachine fun _ => 0#8) s₀ ∧
    ((∃ s', (guestRuns plainEnv sampleGuest).run s₀ = .halt s') ↔
      ∃ pre i post s₁, sampleGuest = pre ++ i :: post ∧ (guestRuns plainEnv pre).run s₀ = .ret () s₁ ∧
        StopsAt plainEnv s₁ i) := by
  obtain ⟨s₀, hboot⟩ := boots_boot fun _ => 0#8
  exact ⟨s₀, hboot, halts_where_stopped plainUnit plainEnv (bootMachine fun _ => 0#8) s₀
    (fun _ _ _ => rfl) hboot sampleGuest sampleGuest_fair⟩

/-! ## what the guest sees -/

/-- registers, MSRs and the memory that is not the hypervisor's -/
abbrev GuestView (img : Image) : Type :=
  Regs × (BitVec 32 → BitVec 64) × ({ x // ¬ Owned img x } → BitVec 8)

def guestView (img : Image) (s : Machine) : GuestView img := (s.cpu.regs, s.cpu.msr, fun x => s.mem x)

def Vm.view (img : Image) (v : Vm) : GuestView img := (v.regs, v.msr, fun x => v.mem x)

section
variable {env env' : GuestEnv} {s t : Machine} {v v' : Vm}

theorem Hosts.guestView (h : Hosts env s v) : guestView env.img s = v.view env.img := by
  unfold HyperC.guestView Vm.view
  rw [h.regs, h.msr]
  exact congrArg _ (congrArg _ (funext fun x => h.mem x x.2))

/-- bytes of the hypervisor and accesses that no bitmap covers do not matter -/
theorem Hosts.congr (h : Hosts env s v) (hview : v'.view env.img = v.view env.img)
    (hdebugctl : v'.debugctl = v.debugctl)
    (hw : ∀ d msr, Covered msr → v'.watched d msr = v.watched d msr) : Hosts env s v' where
  view := h.view
  backPointer := h.backPointer
  hlt := h.hlt
  tables := h.tables
  debugctl := h.debugctl.trans hdebugctl.symm
  regs := h.regs.trans (congrArg Prod.fst hview).symm
  msr := h.msr.trans (congrArg (fun w => w.2.1) hview).symm
  watched := fun d msr hc => (h.watched d msr hc).trans (hw d msr hc).symm
  mem := fun x hx => by
    have hbyte : v'.mem x = v.mem x := congrFun (congrArg (fun w => w.2.2) hview) ⟨x, hx⟩
    rw [h.mem x hx, hbyte]

/-- the two environments report the same lengths and let the guest access the same MSRs -/
structure SameGuest (env env' : GuestEnv) : Prop where
  img : env'.img = env.img
  len : env'.len = env.len
  readable : env'.readable = env.readable
  writable : env'.writable = env.writable

theorem step_env (h : SameGuest env env') : Vm.step env' = Vm.step env := by
  funext v i
  cases i with
  | load a => simp only [Vm.step, Vm.hooked, h.img, h.len]
  | store a x => simp only [Vm.step, Vm.hooked, h.img, h.len]
  | rdmsr => simp only [Vm.step, h.readable]
  | wrmsr => simp only [Vm.step, h.writable]
  | _ => rfl

end

/-- **the guest cannot tell two hosts apart**: whatever their processors do about VMX, however their
handlers are compiled and whatever their own memory holds, a guest that leaves them alone finds the same
registers, MSRs and memory under both, or halts both -/
theorem guest_sees_no_host (u u' : VmxUnit) (env env' : GuestEnv) (s s₀ t t₀ : Machine)
    (henv : SameGuest env env')
    (hzs : s.mem.ZeroOn (CpuData.epts cpuDataAddress) extendedPagingTablesT.size)
    (hzt : t.mem.ZeroOn (CpuData.epts cpuDataAddress) extendedPagingTablesT.size)
    (hs : Boots u env.img s s₀) (ht : Boots u' env'.img t t₀)
    (hview : guestView env.img t₀ = guestView env.img s₀)
    (hdebugctl : exitDebugctl t₀.vmcs = exitDebugctl s₀.vmcs)
    (hwatched : ∀ d msr, Covered msr → consulted t₀.mem (CpuData.msrBitmaps cpuDataAddress) d msr
      = consulted s₀.mem (CpuData.msrBitmaps cpuDataAddress) d msr)
    (is : List GuestInstr) (hfair : ∀ i ∈ is, i.Fair env.img) :
    (∃ s' t', (guestRuns env is).run s₀ = .ret () s' ∧ (guestRuns env' is).run t₀ = .ret () t' ∧
      guestView env.img s' = guestView env.img t') ∨
    ∃ s' t', (guestRuns env is).run s₀ = .halt s' ∧ (guestRuns env' is).run t₀ = .halt t' := by
  have hhosts : Hosts env s₀ (vmOf s₀) := hosts_boots env hzs hs
  have hhosts' : Hosts env' t₀ (vmOf s₀) := by
    refine (hosts_boots env' hzt ht).congr ?_ hdebugctl.symm fun d msr hc => (hwatched d msr hc).symm
    rw [henv.img]
    exact hview.symm
  have hsim' := vm_simulates env'
  rw [step_env henv, henv.img] at hsim'
  have hview' : ∀ {t : Machine} {v : Vm}, Hosts env' t v → guestView env.img t = v.view env.img := by
    intro t v h
    have hsame := h.guestView
    rw [henv.img] at hsame
    exact hsame
  exact same_view (vm_simulates env) hsim' Hosts.guestView hview' hhosts hhosts' hfair

/-- a handler that leaves its stack and its registers dirty -/
def dirtyCompiled : Compiled where
  scratch := fun _ _ => 7#64
  stack := fun s x => if x < stackTop then 0xAA#8 else s.mem x
  stack_below := fun _ _ hx => if_neg (by omega)

/-- the same processor for the guest, under another host -/
def dirtyEnv : GuestEnv := { plainEnv with
  compiled := dirtyCompiled
  caps := ⟨false, false, false⟩ }

theorem guest_sees_no_host_dirty : ∃ s₀, Boots plainUnit sampleImage (bootMachine fun _ => 0#8) s₀ ∧
    ((∃ s' t', (guestRuns plainEnv sampleGuest).run s₀ = .ret () s' ∧
      (guestRuns dirtyEnv sampleGuest).run s₀ = .ret () t' ∧
      guestView sampleImage s' = guestView sampleImage t') ∨
    ∃ s' t', (guestRuns plainEnv sampleGuest).run s₀ = .halt s' ∧
      (guestRuns dirtyEnv sampleGuest).run s₀ = .halt t') := by
  obtain ⟨s₀, hboot⟩ := boots_boot fun _ => 0#8
  exact ⟨s₀, hboot, guest_sees_no_host plainUnit plainUnit plainEnv dirtyEnv (bootMachine fun _ => 0#8)
    s₀ (bootMachine fun _ => 0#8) s₀ ⟨rfl, rfl, rfl, rfl⟩ (fun _ _ _ => rfl) (fun _ _ _ => rfl) hboot
    hboot rfl rfl (fun _ _ _ => rfl) sampleGuest sampleGuest_fair⟩

/-! ## the syscall table -/

/-- **no instruction reaches the syscall table** -/
theorem step_table {env : GuestEnv} {v v' : Vm} {i : GuestInstr} (hi : i.Fair env.img)
    (h : v.step env i = some v') {x : ℕ} (hx : InSsdtPage x) : v'.mem x = v.mem x := by
  cases stepped_of_step h with
  | quiet _ _ _ hmem => rw [hmem]
  | stored hp _ _ hmem =>
    obtain ⟨hal, -, -⟩ := hi
    unfold InSsdtPage at hx
    rw [hmem]
    exact Mem.store64_outside _ _ _ _ (by omega)
  | wrote _ _ _ hmem => rw [hmem]
  | called _ _ _ hmem => rw [hmem]

/-- **the guest never changes the syscall table** once it runs under the hook, however it tries to -/
theorem table_frozen (u : VmxUnit) (env : GuestEnv) (s s₀ s' : Machine)
    (hz : s.mem.ZeroOn (CpuData.epts cpuDataAddress) extendedPagingTablesT.size)
    (hboot : Boots u env.img s s₀) (is : List GuestInstr) (hfair : ∀ i ∈ is, i.Fair env.img)
    (hrun : (guestRuns env is).run s₀ = .ret () s') :
    ∀ n < ssdtSize, s'.mem.load64 (Ssdt.entries ssdtAddress n)
      = s₀.mem.load64 (Ssdt.entries ssdtAddress n) := by
  obtain ⟨v, hr, hv⟩ := (vm_simulates env).returns_inv (hosts_boots env hz hboot) hfair hrun
  intro n hn
  refine Mem.load64_congr fun k hk => ?_
  have e1 : ssdtAddress = 0x1812000 := rfl
  have e2 : ssdtSize = 512 := rfl
  have hpage : InSsdtPage (Ssdt.entries ssdtAddress n + k) := by
    rw [InSsdtPage, Ssdt.entries_eq, e1, ssdtPage]
    omega
  have hfree : ¬ Owned env.img (Ssdt.entries ssdtAddress n + k) := by
    rw [Ssdt.entries_eq, e1]
    exact not_owned_of_le (by omega) (by omega) (by omega)
  rw [hv.mem _ hfree]
  exact inv_run (P := fun w => w.mem (Ssdt.entries ssdtAddress n + k)
    = s₀.mem (Ssdt.entries ssdtAddress n + k))
    (fun w i w' hi hw hs => (step_table hi hs hpage).trans hw) hfair rfl hr

theorem table_frozen_store : ∃ s₀ s', Boots plainUnit sampleImage (bootMachine fun _ => 0#8) s₀ ∧
    (guestRuns plainEnv [.store 0x1812150 5#64]).run s₀ = .ret () s' ∧
    ∀ n < ssdtSize, s'.mem.load64 (Ssdt.entries ssdtAddress n)
      = s₀.mem.load64 (Ssdt.entries ssdtAddress n) := by
  obtain ⟨s₀, hboot⟩ := boots_boot fun _ => 0#8
  have hz : (bootMachine fun _ => 0#8).mem.ZeroOn (CpuData.epts cpuDataAddress)
      extendedPagingTablesT.size := fun _ _ _ => rfl
  have hfair : ∀ i ∈ [GuestInstr.store 0x1812150 5#64], i.Fair sampleImage := by
    intro i hi
    rw [List.mem_singleton] at hi
    subst hi
    exact ⟨by decide, by norm_num, fun k hk => not_owned_of_le (by omega) (by omega) (by omega)⟩
  obtain ⟨s', hrun, -⟩ := (vm_simulates plainEnv).returns_run (hosts_boots plainEnv hz hboot) hfair rfl
  exact ⟨s₀, s', hboot, hrun, table_frozen plainUnit plainEnv (bootMachine fun _ => 0#8) s₀ s' hz hboot
    [.store 0x1812150 5#64] hfair hrun⟩

end HyperC
