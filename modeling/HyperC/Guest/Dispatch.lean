import HyperC.Run.Access

/-!
# `dispatch_handler`

The guest's dispatcher reads the entry of a number twice: for the `NULL` test, and for the call.

* `Guest`           the machine with a record of the addresses read and the handlers invoked;
* `dispatchHandler`, `ssdtHook`, `dispatchAll`   the dispatcher, the hook, and a run of dispatches;
* `dispatch_mapped`    with the page mapped a number invokes its entry unless that is `NULL`;
* `dispatch_served`, `dispatch_hooked`    with the hook a number invokes its entry, `NULL` or not.

A call of a handler is recorded and returns; what the handler does besides is its own affair.
-/

namespace HyperC
open Code Ept Walk

structure Guest where
  machine : Machine
  reads : List ℕ
  invoked : List (BitVec 64)

/-- a guest that has done nothing yet -/
def Guest.init (s : Machine) : Guest := ⟨s, [], []⟩

def onMachine {α : Type} (x : Host α) : Code Guest α := fun g =>
  match x.run g.machine with
  | .ret a s => .ret a { g with machine := s }
  | .halt s => .halt { g with machine := s }
  | .leave s => .leave { g with machine := s }

/-- a load, with its address recorded -/
def readQword (env : GuestEnv) (a : ℕ) : Code Guest Access := do
  modify fun g => { g with reads := g.reads ++ [a] }
  onMachine (guestLoad env a)

def invoke (handler : BitVec 64) : Code Guest Unit :=
  modify fun g => { g with invoked := g.invoked ++ [handler] }

def ssdtHook (number : BitVec 32) (handler : BitVec 64) : Code Guest Unit := do
  onMachine (logInfo "hooked ssdt read at entry %d" [.int (number.setWidth 64)])
  invoke handler

/-- the call of what was loaded; a load that the hypervisor answered gave the address of `ssdt_hook`,
which finds its arguments in `rdi` and `rsi` -/
def callHandler (env : GuestEnv) (access : Access) (handler : BitVec 64) : Code Guest Unit := do
  if access = .served ∧ handler = BitVec.ofNat 64 env.img.ssdtHook then
    let rdi ← onMachine (getReg .rdi)
    let rsi ← onMachine (getReg .rsi)
    ssdtHook (rdi.setWidth 32) rsi
  else invoke handler

def dispatchHandler (env : GuestEnv) (number : BitVec 32) : Code Guest Unit := do
  if number > BitVec.ofNat 32 ssdtSize then
    onMachine (logError "out of bounds syscall number: %d" [.int (number.setWidth 64)])
  else
    let _ ← readQword env (Ssdt.entries ssdtAddress number.toNat)
    let entry ← onMachine (getReg .rax)
    if entry = 0#64 then
      onMachine (logError "syscall %d doesn't have a handler" [.int (number.setWidth 64)])
    else
      let access ← readQword env (Ssdt.entries ssdtAddress number.toNat)
      let handler ← onMachine (getReg .rax)
      callHandler env access handler

def dispatchAll (env : GuestEnv) (numbers : List (BitVec 32)) : Code Guest Unit :=
  each (dispatchHandler env) numbers

/-! ## one step -/

section
variable {env : GuestEnv} {g : Guest} {s : Machine} {n : BitVec 32}

theorem run_onMachine {α : Type} {x : Host α} {a : α} (h : x.run g.machine = .ret a s) :
    (onMachine x).run g = .ret a { g with machine := s } := by
  show (match x.run g.machine with
    | .ret a s => Outcome.ret a { g with machine := s }
    | .halt s => .halt { g with machine := s }
    | .leave s => .leave { g with machine := s }) = _
  rw [h]

theorem run_readQword {a : ℕ} {access : Access} (h : (guestLoad env a).run g.machine = .ret access s) :
    (readQword env a).run g = .ret access { g with machine := s, reads := g.reads ++ [a] } := by
  unfold readQword
  rw [bind_of_ret (run_modify _ _)]
  exact run_onMachine h

theorem run_getReg (r : Reg) : (onMachine (getReg r)).run g = .ret (g.machine.cpu.regs r) g :=
  run_onMachine rfl

theorem run_invoke (handler : BitVec 64) :
    (invoke handler).run g = .ret () { g with invoked := g.invoked ++ [handler] } := rfl

theorem inSsdtPage_entries (hn : n.toNat < ssdtSize) :
    InSsdtPage (Ssdt.entries ssdtAddress n.toNat) := by
  have hs : ssdtSize = 512 := rfl
  have ha : ssdtAddress = 0x1812000 := rfl
  rw [InSsdtPage, Ssdt.entries_eq, ha, ssdtPage]
  omega

theorem not_gt_ssdtSize (hn : n.toNat ≤ ssdtSize) : ¬ n > BitVec.ofNat 32 ssdtSize := by
  rw [gt_iff_lt, BitVec.lt_def, Nat.not_lt]
  exact hn

theorem dispatch_run_null (hn : n.toNat ≤ ssdtSize) {access : Access}
    (h : (guestLoad env (Ssdt.entries ssdtAddress n.toNat)).run g.machine = .ret access s)
    (he : s.cpu.regs .rax = 0#64) : (dispatchHandler env n).run g
      = (onMachine (logError "syscall %d doesn't have a handler" [.int (n.setWidth 64)])).run
        { g with machine := s, reads := g.reads ++ [Ssdt.entries ssdtAddress n.toNat] } := by
  unfold dispatchHandler
  rw [if_neg (not_gt_ssdtSize hn), bind_of_ret (run_readQword h), bind_of_ret (run_getReg .rax),
    if_pos he]

/-- a dispatch whose first load gives something else: what is called is what the second one gives -/
theorem dispatch_run_call (hn : n.toNat ≤ ssdtSize) {access access' : Access} {s' : Machine}
    (h : (guestLoad env (Ssdt.entries ssdtAddress n.toNat)).run g.machine = .ret access s)
    (he : s.cpu.regs .rax ≠ 0#64)
    (h' : (guestLoad env (Ssdt.entries ssdtAddress n.toNat)).run s = .ret access' s') :
    (dispatchHandler env n).run g = (callHandler env access' (s'.cpu.regs .rax)).run
      ⟨s', g.reads ++ [Ssdt.entries ssdtAddress n.toNat] ++ [Ssdt.entries ssdtAddress n.toNat],
        g.invoked⟩ := by
  have h'' := run_readQword (g := { g with
    machine := s
    reads := g.reads ++ [Ssdt.entries ssdtAddress n.toNat] }) h'
  unfold dispatchHandler
  rw [if_neg (not_gt_ssdtSize hn), bind_of_ret (run_readQword h), bind_of_ret (run_getReg .rax),
    if_neg he, bind_of_ret h'', bind_of_ret (run_getReg .rax)]

theorem run_callNative (handler : BitVec 64) : (callHandler env .native handler).run g
    = .ret () { g with invoked := g.invoked ++ [handler] } := by
  unfold callHandler
  rw [if_neg (by simp), run_invoke]

end

/-! ## with the page mapped -/

section
variable {env : GuestEnv} {g : Guest} {n : BitVec 32}

/-- **an entry that is not `NULL` is invoked** -/
theorem dispatch_mapped (ht : SsdtTables env.caps mappedSlot g.machine) (hn : n.toNat < ssdtSize)
    (he : g.machine.mem.load64 (Ssdt.entries ssdtAddress n.toNat) ≠ 0#64) :
    ∃ g', (dispatchHandler env n).run g = .ret () g' ∧
      SsdtTables env.caps mappedSlot g'.machine ∧ g'.machine.mem = g.machine.mem ∧
      g'.invoked = g.invoked ++ [g.machine.mem.load64 (Ssdt.entries ssdtAddress n.toNat)] ∧
      g'.reads = g.reads ++ [Ssdt.entries ssdtAddress n.toNat] ++
        [Ssdt.entries ssdtAddress n.toNat] := by
  have ha := inSsdtPage_entries hn
  have h₁ := load_mapped env ht ha
  have ht₁ := ssdtTables_retired env ht (g.machine.mem.load64 (Ssdt.entries ssdtAddress n.toNat))
  have h₂ := load_mapped env ht₁ ha
  have hne : (retired env (g.machine.mem.load64 (Ssdt.entries ssdtAddress n.toNat))
      g.machine).cpu.regs .rax ≠ 0#64 := by rwa [retired_rax]
  have hrun := (dispatch_run_call hn.le h₁ hne h₂).trans (run_callNative _)
  rw [retired_rax] at hrun
  exact ⟨_, hrun, ssdtTables_retired env ht₁ _, rfl, rfl, rfl⟩

/-- **an entry that is `NULL` is reported** -/
theorem dispatch_mapped_null (ht : SsdtTables env.caps mappedSlot g.machine)
    (hn : n.toNat < ssdtSize)
    (he : g.machine.mem.load64 (Ssdt.entries ssdtAddress n.toNat) = 0#64) :
    ∃ g', (dispatchHandler env n).run g = .ret () g' ∧
      SsdtTables env.caps mappedSlot g'.machine ∧ g'.machine.mem = g.machine.mem ∧
      g'.invoked = g.invoked ∧ g'.reads = g.reads ++ [Ssdt.entries ssdtAddress n.toNat] ∧
      g'.machine.log = logged g.machine .error "syscall %d doesn't have a handler"
        [.int (n.setWidth 64)] := by
  have h₁ := load_mapped env ht (inSsdtPage_entries hn)
  have ht₁ := ssdtTables_retired env ht (g.machine.mem.load64 (Ssdt.entries ssdtAddress n.toNat))
  refine ⟨{ g with
    machine := { retired env (g.machine.mem.load64 (Ssdt.entries ssdtAddress n.toNat)) g.machine with
      log := logged g.machine .error "syscall %d doesn't have a handler" [.int (n.setWidth 64)] }
    reads := g.reads ++ [Ssdt.entries ssdtAddress n.toNat] }, ?_,
    ssdtTables_congr ht₁ rfl fun _ _ _ => rfl, rfl, rfl, rfl, rfl⟩
  rw [dispatch_run_null hn.le h₁ (by rwa [retired_rax])]
  exact run_onMachine (run_logError _ _ _)

end

/-! ## with the hook -/

section
variable {env : GuestEnv} {g : Guest} {n : BitVec 32}

/-- the guest's world under the hook: the host is ready, the page is hooked, and what was in memory
outside the host's own bytes is still there -/
structure HookedWorld (env : GuestEnv) (m : Mem) (s : Machine) : Prop where
  ready : HostReady cpuDataAddress s
  tables : SsdtTables env.caps hookedSlot s
  mem : ∀ x, stackTop ≤ x →
    (x < CpuData.guestCpuState cpuDataAddress ∨ CpuData.guestCpuState cpuDataAddress + 136 ≤ x) →
    (x < CpuData.msrBitmaps cpuDataAddress ∨ CpuData.msrBitmaps cpuDataAddress + 4096 ≤ x) →
    s.mem x = m x

theorem hookedWorld_entry {m : Mem} {s : Machine} (h : HookedWorld env m s) :
    s.mem.load64 (Ssdt.entries ssdtAddress n.toNat)
      = m.load64 (Ssdt.entries ssdtAddress n.toNat) := by
  have h1 : CpuData.guestCpuState cpuDataAddress = 0x1809000 := rfl
  have h2 : CpuData.msrBitmaps cpuDataAddress = 0x1808000 := rfl
  have h3 : ssdtAddress = 0x1812000 := rfl
  refine Mem.load64_congr fun k _ => h.mem _ ?_ (Or.inr ?_) (Or.inr ?_)
  · rw [Ssdt.entries_eq, h3, stackTop]
    omega
  · rw [Ssdt.entries_eq, h1, h3]
    omega
  · rw [Ssdt.entries_eq, h2, h3]
    omega

theorem hookedWorld_served {m : Mem} {s s' : Machine} {a : ℕ} (h : HookedWorld env m s)
    (hs : SsdtServed env a s s') : HookedWorld env m s' :=
  ⟨hs.ready, ssdtTables_congr h.tables hs.eptPointer (SsdtServed.inTables env hs),
    fun x h1 h2 h3 => (hs.mem x h1 h2 h3).trans (h.mem x h1 h2 h3)⟩

theorem ssdtHook_ne_null (img : Image) : BitVec.ofNat 64 img.ssdtHook ≠ 0#64 := by
  obtain ⟨h1, h2⟩ := img.ssdtHook_linked
  intro h
  have hnat := congrArg BitVec.toNat h
  rw [BitVec.toNat_ofNat, Nat.mod_eq_of_lt h2] at hnat
  have h0 : (0#64).toNat = 0 := rfl
  omega

/-- the machine after the hook's line in the log -/
def hookLogged (s : Machine) : Machine :=
  let number : BitVec 32 := (s.cpu.regs .rdi).setWidth 32
  { s with log := logged s .info "hooked ssdt read at entry %d" [.int (number.setWidth 64)] }

theorem run_callHook {handler : BitVec 64} (h : handler = BitVec.ofNat 64 env.img.ssdtHook) :
    (callHandler env .served handler).run g = .ret () { g with
      machine := hookLogged g.machine
      invoked := g.invoked ++ [g.machine.cpu.regs .rsi] } := by
  have hlog : (onMachine (logInfo "hooked ssdt read at entry %d"
      [.int (((g.machine.cpu.regs .rdi).setWidth 32).setWidth 64)])).run g
      = .ret () { g with machine := hookLogged g.machine } := run_onMachine (run_logInfo _ _ _)
  unfold callHandler
  rw [if_pos ⟨rfl, h⟩, bind_of_ret (run_getReg .rdi), bind_of_ret (run_getReg .rsi)]
  unfold ssdtHook
  rw [bind_of_ret hlog, run_invoke]

theorem hookedWorld_logged {m : Mem} {s : Machine} (h : HookedWorld env m s) :
    HookedWorld env m (hookLogged s) :=
  ⟨⟨h.ready.fsBase, h.ready.backPointer⟩, ssdtTables_congr h.tables rfl fun _ _ _ => rfl, h.mem⟩

/-- **an entry is invoked through the hook**, when both reads of it are answered by the hypervisor -/
theorem dispatch_served (hready : HostReady cpuDataAddress g.machine)
    (hpage : HookedPage env.caps g.machine) (hn : n.toNat < ssdtSize) :
    ∃ s₁ s₂ g', SsdtServed env (Ssdt.entries ssdtAddress n.toNat) g.machine s₁ ∧
      SsdtServed env (Ssdt.entries ssdtAddress n.toNat) s₁ s₂ ∧
      (dispatchHandler env n).run g = .ret () g' ∧ g'.machine = hookLogged s₂ ∧
      g'.invoked = g.invoked ++ [s₁.mem.load64 (Ssdt.entries ssdtAddress n.toNat)] := by
  have ha := inSsdtPage_entries hn
  obtain ⟨s₁, h₁, hs₁⟩ := load_hooked env hready hpage ha
  obtain ⟨s₂, h₂, hs₂⟩ := load_hooked env hs₁.ready (SsdtServed.hookedPage env hs₁ hpage) ha
  have hne : ¬ s₁.cpu.regs .rax = 0#64 := by
    rw [hs₁.rax]
    exact ssdtHook_ne_null env.img
  have hrun := (dispatch_run_call hn.le h₁ hne h₂).trans (run_callHook hs₂.rax)
  rw [hs₂.rsi] at hrun
  exact ⟨s₁, s₂, _, hs₁, hs₂, hrun, rfl, rfl⟩

/-- **every entry is invoked**, through the hook -/
theorem dispatch_hooked {m : Mem} (h : HookedWorld env m g.machine) (hn : n.toNat < ssdtSize) :
    ∃ g', (dispatchHandler env n).run g = .ret () g' ∧ HookedWorld env m g'.machine ∧
      g'.invoked = g.invoked ++ [m.load64 (Ssdt.entries ssdtAddress n.toNat)] := by
  obtain ⟨s₁, s₂, g', hs₁, hs₂, hrun, hmachine, hinv⟩ :=
    dispatch_served h.ready (hookedPage_of_tables h.tables) hn
  have hw₁ := hookedWorld_served h hs₁
  refine ⟨g', hrun, ?_, by rw [hinv, hookedWorld_entry hw₁]⟩
  rw [hmachine]
  exact hookedWorld_logged (hookedWorld_served hw₁ hs₂)

end

end HyperC
