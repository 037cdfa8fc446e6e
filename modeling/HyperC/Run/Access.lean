import HyperC.Run.Transparent
import HyperC.Vmm.InitializeHost

/-!
# The guest's loads and stores

An access of the guest goes through the extended page tables.  If they map the page with the right,
the processor does it; if not, it leaves the guest, and what the guest finds afterwards is what the
handler left.  A load puts its value in `rax`.

* `eptAccess`, `guestLoad`, `guestStore`   one access of eight bytes;
* `SsdtTables`        the tables send the page of the syscall table to a given slot, and the slots
                      `mappedSlot` and `hookedSlot` before and after `initialize_read_hook`;
* `HookedPage`        every access to that page is a misconfiguration;
* `load_mapped`       with the page mapped the access is the processor's own;
* `load_hooked`, `store_hooked`   with the hook it is `ept_misconfig_handler`'s.
-/

namespace HyperC
open Code Ept Walk

/-- what the guest runs on: the image, the compiled handler, the processor and the lengths it reports,
and the MSRs that it lets a guest read and write -/
structure GuestEnv where
  img : Image
  compiled : Compiled
  caps : Caps
  len : BitVec 64
  readable : BitVec 32 → Bool
  /-- the MSR takes the value -/
  writable : BitVec 32 → BitVec 64 → Bool

/-- how an access was done -/
inductive Access where
  | native
  | served
deriving DecidableEq

/-- where an access goes -/
inductive Translation where
  | host (address : ℕ)
  | fault (reason : ℕ)

def eptAccess (caps : Caps) (right : Attrs → Bool) (s : Machine) (a : ℕ) : Translation :=
  match eptWalk caps s.mem (s.vmcs vmcsEptPointer) a with
  | .mapped address q => if right q then .host address else .fault exitReasonEptViolation
  | .fault .misconfigured => .fault exitReasonEptMisconfig
  | .fault .notPresent => .fault exitReasonEptViolation

/-- an exit and the guest's resumption -/
def serveExit (env : GuestEnv) (e : ExitInfo) : Host Unit := fun s =>
  ((vmexitWrapper env.img env.compiled).run (vmExit e s)).resumed

/-- what the processor says about the fault -/
def faultExit (env : GuestEnv) (reason a : ℕ) : ExitInfo :=
  ⟨BitVec.ofNat 64 reason, env.len, BitVec.ofNat 64 a⟩

/-- the instruction is done: `rax` has the value, `rip` is past it -/
def retired (env : GuestEnv) (rax : BitVec 64) (s : Machine) : Machine :=
  { s with cpu := { s.cpu with
      regs := Function.update (Function.update s.cpu.regs .rax rax) .rip
        (s.cpu.regs .rip + env.len) } }

theorem retired_rax (env : GuestEnv) (v : BitVec 64) (s : Machine) :
    (retired env v s).cpu.regs .rax = v := by
  show Function.update (Function.update s.cpu.regs .rax v) .rip (s.cpu.regs .rip + env.len) .rax = v
  rw [Function.update_of_ne (by decide), Function.update_self]

def guestLoad (env : GuestEnv) (a : ℕ) : Host Access := do
  let s ← gets id
  match eptAccess env.caps Attrs.read s a with
  | .host address =>
    modify (retired env (s.mem.load64 address))
    return .native
  | .fault reason =>
    serveExit env (faultExit env reason a)
    return .served

def guestStore (env : GuestEnv) (a : ℕ) (v : BitVec 64) : Host Access := do
  let s ← gets id
  match eptAccess env.caps Attrs.write s a with
  | .host address =>
    modify fun s => { retired env (s.cpu.regs .rax) s with mem := s.mem.store64 address v }
    return .native
  | .fault reason =>
    serveExit env (faultExit env reason a)
    return .served

theorem serveExit_of_exit {env : GuestEnv} {e : ExitInfo} {s s' : Machine}
    (h : Exit env.img env.compiled e s s') : (serveExit env e).run s = .ret () s' := by
  have hrun : (vmexitWrapper env.img env.compiled).run (vmExit e s) = .leave s' := h
  show ((vmexitWrapper env.img env.compiled).run (vmExit e s)).resumed = _
  rw [hrun]
  rfl

/-! ## the page of the syscall table -/

def ssdtPage : ℕ := 0x1812

/-- the tables of the hypervisor, with the slot for the page of the syscall table -/
structure SsdtTables (caps : Caps) (slot : Slot Attrs Fault) (s : Machine) : Prop where
  eptPointer : s.vmcs vmcsEptPointer = eptpOf (CpuData.epts cpuDataAddress)
  tables : PageSlot caps (CpuData.epts cpuDataAddress) ssdtPage slot s.mem

def mappedSlot : Slot Attrs Fault := .page (ssdtPage * pageSize) identityAttrs
def hookedSlot : Slot Attrs Fault := .stop .misconfigured

/-- an address of the page of the table -/
def InSsdtPage (a : ℕ) : Prop := a / 4096 = ssdtPage

/-- an access to that page is a misconfiguration, in every memory with the tables of `s` -/
structure HookedPage (caps : Caps) (s : Machine) : Prop where
  eptPointer : s.vmcs vmcsEptPointer = eptpOf (CpuData.epts cpuDataAddress)
  stops : ∀ m : Mem, (∀ x, CpuData.epts cpuDataAddress ≤ x →
    x < CpuData.epts cpuDataAddress + extendedPagingTablesT.size → m x = s.mem x) →
    ∀ a, InSsdtPage a →
      eptWalk caps m (eptpOf (CpuData.epts cpuDataAddress)) a = .fault .misconfigured

/-- the call of `update_gpa_access_rights` in `initialize_read_hook` -/
def hookUpdate : RightsUpdate where
  gpa := BitVec.ofNat 64 (GuestState.ssdt (CpuData.guestCpuState cpuDataAddress))
  flags := ssdtPageFlags
  aligned := by decide
  below := by decide

theorem hookUpdate_page : hookUpdate.page = ssdtPage := by decide

def hooked (s : Machine) : Machine :=
  { s with mem := updateLeaf (CpuData.epts cpuDataAddress) hookUpdate.gpa hookUpdate.flags s.mem }

theorem initializeReadHook_hooked (s : Machine) :
    (initializeReadHook (CpuData.epts cpuDataAddress)
      (GuestState.ssdt (CpuData.guestCpuState cpuDataAddress))).run s = .ret () (hooked s) :=
  initializeReadHook_run s

section
variable {caps : Caps} {slot : Slot Attrs Fault} {s s' : Machine} {a : ℕ}

theorem ssdtTables_walk (h : SsdtTables caps slot s) (ha : InSsdtPage a) :
    eptWalk caps s.mem (s.vmcs vmcsEptPointer) a = resolve (format caps) (reads s.mem) 0
      (s.mem.load64 (Epts.pts (CpuData.epts cpuDataAddress) ssdtPage)) upperAttrs a := by
  rw [h.eptPointer, pageSlot_walk h.tables (by decide) (by decide) (by decide) ha]

theorem eptAccess_mapped (h : SsdtTables caps mappedSlot s) (ha : InSsdtPage a)
    {right : Attrs → Bool} (hr : right identityAttrs = true) : eptAccess caps right s a = .host a := by
  have hq : right (comb upperAttrs identityAttrs) = true := hr
  have haddr : ssdtPage * pageSize + a % span 0 = a := by
    rw [← ha]
    simp only [span, pageSize]
    omega
  unfold eptAccess
  rw [ssdtTables_walk h ha, resolve_page h.tables.leaf, haddr]
  exact if_pos hq

theorem ssdtTables_congr (h : SsdtTables caps slot s)
    (hv : s'.vmcs vmcsEptPointer = s.vmcs vmcsEptPointer)
    (hm : ∀ x, CpuData.epts cpuDataAddress ≤ x →
      x < CpuData.epts cpuDataAddress + extendedPagingTablesT.size → s'.mem x = s.mem x) :
    SsdtTables caps slot s' :=
  ⟨hv.trans h.eptPointer, pageSlot_congr h.tables (by decide) hm⟩

theorem hookedPage_of_tables (h : SsdtTables caps hookedSlot s) : HookedPage caps s := by
  refine ⟨h.eptPointer, fun m hm a ha => ?_⟩
  have hm' : SsdtTables caps hookedSlot { s with mem := m } := ssdtTables_congr h rfl hm
  have hw := ssdtTables_walk hm' ha
  rw [resolve_stop hm'.tables.leaf, hm'.eptPointer] at hw
  exact hw

theorem hookedPage_congr (h : HookedPage caps s)
    (hv : s'.vmcs vmcsEptPointer = s.vmcs vmcsEptPointer)
    (hm : ∀ x, CpuData.epts cpuDataAddress ≤ x →
      x < CpuData.epts cpuDataAddress + extendedPagingTablesT.size → s'.mem x = s.mem x) :
    HookedPage caps s' :=
  ⟨hv.trans h.eptPointer, fun m hm' => h.stops m fun x hlo hhi => (hm' x hlo hhi).trans (hm x hlo hhi)⟩

theorem eptAccess_hooked (h : HookedPage caps s) (ha : InSsdtPage a) (right : Attrs → Bool) :
    eptAccess caps right s a = .fault exitReasonEptMisconfig := by
  unfold eptAccess
  rw [h.eptPointer, h.stops s.mem (fun _ _ _ => rfl) a ha]

theorem decode_ssdtPageFlags (caps : Caps) (e : BitVec 64) :
    decode caps 0 (Bits.merge copyMask e ssdtPageFlags) = .stop .misconfigured := by
  have hm0 : copyMask.getLsbD 0 = true := by decide
  have hm1 : copyMask.getLsbD 1 = true := by decide
  have h0 : (Bits.merge copyMask e ssdtPageFlags).getLsbD 0 = false := by
    rw [Bits.getLsbD_merge, if_pos hm0]
    decide
  have h1 : (Bits.merge copyMask e ssdtPageFlags).getLsbD 1 = true := by
    rw [Bits.getLsbD_merge, if_pos hm1]
    decide
  refine decode_misconfigured ?_ ?_
  · simp only [present, h1, Bool.or_true, Bool.true_or]
  · simp only [Ept.misconfigured, h0, h1, Bool.not_false, Bool.true_and, Bool.true_or]

/-- **the hook sends the page of the table to a misconfigured leaf**, whatever it was before -/
theorem ssdtTables_hook (h : SsdtTables caps slot s) : SsdtTables caps hookedSlot (hooked s) := by
  have ht := h.tables
  rw [← hookUpdate_page] at ht
  have hu := pageSlot_update hookUpdate ht
  rw [show hookUpdate.flags = ssdtPageFlags from rfl, decode_ssdtPageFlags, hookUpdate_page] at hu
  exact ⟨h.eptPointer, hu⟩

end

/-! ## what an access does -/

/-- what the handler makes of an access to the page of the table -/
structure SsdtServed (env : GuestEnv) (a : ℕ) (s s' : Machine) : Prop where
  ready : HostReady cpuDataAddress s'
  eptPointer : s'.vmcs vmcsEptPointer = s.vmcs vmcsEptPointer
  rax : s'.cpu.regs .rax = BitVec.ofNat 64 env.img.ssdtHook
  rdi : s'.cpu.regs .rdi = BitVec.ofNat 64 (a % 4096 / 8)
  rsi : s'.cpu.regs .rsi = s.mem.load64 a
  mem : ∀ x, stackTop ≤ x →
    (x < CpuData.guestCpuState cpuDataAddress ∨ CpuData.guestCpuState cpuDataAddress + 136 ≤ x) →
    (x < CpuData.msrBitmaps cpuDataAddress ∨ CpuData.msrBitmaps cpuDataAddress + 4096 ≤ x) →
    s'.mem x = s.mem x

section
variable (env : GuestEnv) {s : Machine} {a : ℕ}

theorem faultExit_reason : (faultExit env exitReasonEptMisconfig a).reason = exitReasonEptMisconfig := by
  show basicExitReason (BitVec.ofNat 64 exitReasonEptMisconfig) = _
  decide

theorem faultExit_gpa (ha : InSsdtPage a) :
    (faultExit env exitReasonEptMisconfig a).gpa.toNat = a := by
  show (BitVec.ofNat 64 a).toNat = a
  unfold InSsdtPage ssdtPage at ha
  rw [BitVec.toNat_ofNat]
  omega

theorem ssdtAccess_faultExit (ha : InSsdtPage a) :
    SsdtAccess cpuDataAddress (faultExit env exitReasonEptMisconfig a) := by
  have hssdt : GuestState.ssdt (CpuData.guestCpuState cpuDataAddress) = 0x1812000 := rfl
  rw [SsdtAccess, faultExit_gpa env ha, hssdt]
  unfold InSsdtPage ssdtPage at ha
  exact ⟨faultExit_reason env, by omega, by omega⟩

theorem SsdtServed.inTables {s' : Machine} (hs : SsdtServed env a s s') (x : ℕ)
    (hlo : CpuData.epts cpuDataAddress ≤ x)
    (hhi : x < CpuData.epts cpuDataAddress + extendedPagingTablesT.size) : s'.mem x = s.mem x := by
  -- the tables lie between the VMCS and the bitmaps
  have h1 : CpuData.epts cpuDataAddress = 0x1002000 := rfl
  have h2 : CpuData.msrBitmaps cpuDataAddress = 0x1808000 := rfl
  have h3 : CpuData.guestCpuState cpuDataAddress = 0x1809000 := rfl
  rw [h1] at hlo hhi
  rw [Epts.size_eq] at hhi
  refine hs.mem x ?_ (Or.inl ?_) (Or.inl ?_)
  · simp only [stackTop]
    omega
  · omega
  · omega

theorem SsdtServed.hookedPage {s' : Machine} (hs : SsdtServed env a s s')
    (h : HookedPage env.caps s) : HookedPage env.caps s' :=
  hookedPage_congr h hs.eptPointer (SsdtServed.inTables env hs)

/-- **the handler serves every access to the hooked page** -/
theorem ssdt_served (h : HostReady cpuDataAddress s) (ha : InSsdtPage a) :
    ∃ s', (serveExit env (faultExit env exitReasonEptMisconfig a)).run s = .ret () s' ∧
      SsdtServed env a s s' := by
  obtain ⟨s', hx⟩ : ∃ s', Exit env.img env.compiled (faultExit env exitReasonEptMisconfig a) s s' :=
    (exit_iff cpuDataAt_fixed h.fsBase).mpr
    (Or.inr (Or.inr (Or.inr (Or.inr (Or.inl (faultExit_reason env))))))
  obtain ⟨hrax, hrdi, hrsi, -⟩ :=
    (transparent_exit cpuDataAt_fixed h hx).hooked (ssdtAccess_faultExit env ha)
  have hmem := exit_outside cpuDataAt_fixed h hx
  rw [faultExit_gpa env ha] at hrdi hrsi
  refine ⟨s', serveExit_of_exit hx, ?_⟩
  refine ⟨hostReady_exit cpuDataAt_fixed h hx, ?_, hrax, hrdi, hrsi, hmem⟩
  exact exit_field cpuDataAt_fixed h.fsBase hx
    (by simp only [exitFields, List.map_cons, List.map_nil]; decide)

theorem ssdtTables_retired {slot : Slot Attrs Fault} (ht : SsdtTables env.caps slot s)
    (v : BitVec 64) : SsdtTables env.caps slot (retired env v s) :=
  ssdtTables_congr ht rfl fun _ _ _ => rfl

theorem load_mapped (ht : SsdtTables env.caps mappedSlot s) (ha : InSsdtPage a) :
    (guestLoad env a).run s = .ret .native (retired env (s.mem.load64 a) s) := by
  have hq : eptAccess env.caps Attrs.read s a = .host a := eptAccess_mapped ht ha rfl
  unfold guestLoad
  rw [bind_of_ret (run_gets _ _)]
  simp only [id, hq]
  rfl

theorem load_hooked (h : HostReady cpuDataAddress s) (ht : HookedPage env.caps s)
    (ha : InSsdtPage a) :
    ∃ s', (guestLoad env a).run s = .ret .served s' ∧ SsdtServed env a s s' := by
  obtain ⟨s', hrun, hserved⟩ := ssdt_served env h ha
  refine ⟨s', ?_, hserved⟩
  unfold guestLoad
  rw [bind_of_ret (run_gets _ _)]
  simp only [id, eptAccess_hooked ht ha]
  rw [bind_of_ret hrun, run_pure]

theorem store_hooked (v : BitVec 64) (h : HostReady cpuDataAddress s)
    (ht : HookedPage env.caps s) (ha : InSsdtPage a) :
    ∃ s', (guestStore env a v).run s = .ret .served s' ∧ SsdtServed env a s s' := by
  obtain ⟨s', hrun, hserved⟩ := ssdt_served env h ha
  refine ⟨s', ?_, hserved⟩
  unfold guestStore
  rw [bind_of_ret (run_gets _ _)]
  simp only [id, eptAccess_hooked ht ha]
  rw [bind_of_ret hrun, run_pure]

end

end HyperC
