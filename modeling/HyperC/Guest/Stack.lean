import HyperC.Vmm.ConfigureVmcs
import HyperC.Run.Exit

/-!
# The guest's stack

`configure_vmcs` starts the guest with `rsp` at the first byte of the array `stack_top`, and the
stack of the processor grows down, away from the array.

* `StackOp`, `StackOp.step`   `push`, `call`, `pop` and `ret`;
* `StackOp.stored`, `storedBytes`   the addresses an instruction, and a run, writes;
* `Within`                    the depth stays between `0` and a bound;
* `storedBytes_below`         whatever the depth, a run writes below the `rsp` it starts with;
* `own_stack_iff`             so from `VMCS_GUEST_RSP` only the empty run stays in the array.
-/

namespace HyperC
open Code

/-- an instruction that works on the stack -/
inductive StackOp where
  | push (v : BitVec 64)
  | call (target : BitVec 64)
  | pop (r : Reg) (h : r ≠ .rsp)
  | ret

/-- by how much it makes the stack deeper -/
def StackOp.growth : StackOp → ℤ
  | .push _ => 8
  | .call _ => 8
  | .pop _ _ => -8
  | .ret => -8

/-- a store of `v` on top of the stack -/
def pushQword (v : BitVec 64) (s : Machine) : Machine :=
  let rsp := s.cpu.regs .rsp - 8#64
  { s with
    mem := s.mem.store64 rsp.toNat v
    cpu := { s.cpu with regs := Function.update s.cpu.regs .rsp rsp } }

/-- the top of the stack goes to the register `r` -/
def popQword (r : Reg) (s : Machine) : Machine :=
  let rsp := s.cpu.regs .rsp
  { s with cpu := { s.cpu with
      regs := Function.update (Function.update s.cpu.regs r (s.mem.load64 rsp.toNat)) .rsp
        (rsp + 8#64) } }

def setRip (v : BitVec 64) (s : Machine) : Machine :=
  { s with cpu := { s.cpu with regs := Function.update s.cpu.regs .rip v } }

/-- one instruction; a `call` is five bytes long -/
def StackOp.step : StackOp → Machine → Machine
  | .push v, s => pushQword v s
  | .call target, s => setRip target (pushQword (s.cpu.regs .rip + 5#64) s)
  | .pop r _, s => popQword r s
  | .ret, s => popQword .rip s

/-- the addresses an instruction writes -/
def StackOp.stored (s : Machine) : StackOp → List ℕ
  | .push _ | .call _ => (List.range 8).map fun k => (s.cpu.regs .rsp - 8#64).toNat + k
  | .pop _ _ | .ret => []

def storedBytes : List StackOp → Machine → List ℕ
  | [], _ => []
  | op :: ops, s => op.stored s ++ storedBytes ops (op.step s)

/-- from the depth `d` on, the depth stays between `0` and `size` -/
def Within (size : ℕ) : ℤ → List StackOp → Prop
  | d, [] => 0 ≤ d ∧ d ≤ size
  | d, op :: ops => 0 ≤ d ∧ d ≤ size ∧ Within size (d + op.growth) ops

/-! ## runs -/

section
variable (op : StackOp) (ops : List StackOp) (s : Machine)

theorem Within.depth {size : ℕ} {d : ℤ} {ops : List StackOp} (h : Within size d ops) :
    0 ≤ d ∧ d ≤ size := by
  cases ops with
  | nil => exact h
  | cons op ops => exact ⟨h.1, h.2.1⟩

theorem StackOp.step_rsp {top : ℕ} {d : ℤ} (h : ((s.cpu.regs .rsp).toNat : ℤ) = top - d)
    (h0 : 0 ≤ d + op.growth) (h1 : d + op.growth ≤ top) (htop : top < 2 ^ 64) :
    (((op.step s).cpu.regs .rsp).toNat : ℤ) = top - (d + op.growth) := by
  have hpush : d + 8 ≤ top → ((s.cpu.regs .rsp - 8#64).toNat : ℤ) = top - (d + 8) := by
    intro hd
    rw [BitVec.toNat_sub, BitVec.toNat_ofNat]
    omega
  have hpop : 0 ≤ d + -8 → ((s.cpu.regs .rsp + 8#64).toNat : ℤ) = top - (d + -8) := by
    intro hd
    rw [BitVec.toNat_add, BitVec.toNat_ofNat]
    omega
  cases op with
  | push v => exact hpush h1
  | call target => exact hpush h1
  | pop r hr => exact hpop h0
  | ret => exact hpop h0

theorem StackOp.stored_range {top : ℕ} {d : ℤ} (h : ((s.cpu.regs .rsp).toNat : ℤ) = top - d)
    (h0 : 0 ≤ d) (h1 : d + op.growth ≤ top) (htop : top < 2 ^ 64) :
    ∀ x ∈ op.stored s, (top : ℤ) - (d + op.growth) ≤ x ∧ (x : ℤ) < top := by
  have hpush : d + 8 ≤ top → ∀ x ∈ (List.range 8).map fun k => (s.cpu.regs .rsp - 8#64).toNat + k,
      (top : ℤ) - (d + 8) ≤ x ∧ (x : ℤ) < top := by
    intro hd x hx
    obtain ⟨k, hk, rfl⟩ := List.mem_map.mp hx
    rw [List.mem_range] at hk
    rw [BitVec.toNat_sub, BitVec.toNat_ofNat]
    omega
  cases op with
  | push v => exact hpush h1
  | call target => exact hpush h1
  | pop r hr => simp [stored]
  | ret => simp [stored]

/-- **a stack grows down**: a run that starts at `top` writes at most `size` bytes below it -/
theorem storedBytes_below {top size : ℕ} {d : ℤ} (hsize : size ≤ top) (htop : top < 2 ^ 64)
    (hrsp : ((s.cpu.regs .rsp).toNat : ℤ) = top - d) (h : Within size d ops) :
    ∀ x ∈ storedBytes ops s, top - size ≤ x ∧ x < top := by
  induction ops generalizing s d with
  | nil => simp [storedBytes]
  | cons op ops ih =>
    obtain ⟨h0, h1, h2⟩ := h
    obtain ⟨h3, h4⟩ := h2.depth
    intro x hx
    rcases List.mem_append.mp hx with hx | hx
    · have hrange := op.stored_range s hrsp h0 (by omega) htop x hx
      omega
    · exact ih _ (op.step_rsp s hrsp h3 (by omega) htop) h2 x hx

/-- a run that is not empty writes something: from depth `0` the first instruction pushes -/
theorem storedBytes_ne_nil {size : ℕ} (h : Within size 0 ops) (hne : ops ≠ []) :
    storedBytes ops s ≠ [] := by
  cases ops with
  | nil => exact absurd rfl hne
  | cons op ops =>
    have hd := h.2.2.depth
    cases op with
    | push v => simp [storedBytes, StackOp.stored]
    | call target => simp [storedBytes, StackOp.stored]
    | pop r hr => exact absurd hd.1 (by simp [StackOp.growth])
    | ret => exact absurd hd.1 (by simp [StackOp.growth])

end

/-! ## from `VMCS_GUEST_RSP` -/

/-- the address lies in the guest's stack, and in nothing of the hypervisor's -/
structure OnOwnStack (p x : ℕ) : Prop where
  inside : GuestState.stackTop (CpuData.guestCpuState p) ≤ x ∧
    x < GuestState.stackTop (CpuData.guestCpuState p) + 8 * pageFrameSize
  registers : x < CpuData.guestCpuState p ∨ GuestState.stackTop (CpuData.guestCpuState p) ≤ x
  bitmaps : x < CpuData.msrBitmaps p ∨ CpuData.msrBitmaps p + pageFrameSize ≤ x
  epts : x < CpuData.epts p ∨ CpuData.epts p + extendedPagingTablesT.size ≤ x

/-- the guest at `g` starts on the stack pointer of the VMCS, and a run of depth at most the size of
the array writes to the array only -/
def RunsOnOwnStack (p : ℕ) (vmcs : ℕ → BitVec 64) (ops : List StackOp) : Prop :=
  ∀ g : Machine, g.cpu.regs .rsp = vmcs vmcsGuestRsp → ∀ x ∈ storedBytes ops g, OnOwnStack p x

section
variable (img : Image) (p : ℕ) (s : Machine)

theorem configured_rsp (hp : CpuDataAt p) {s s' : Machine}
    (h : (configureVmcs img p).run s = .ret () s') :
    (s'.vmcs vmcsGuestRsp).toNat = GuestState.stackTop (CpuData.guestCpuState p) := by
  have hlt := hp.lt
  rw [configureVmcs_field img p h
    (v := BitVec.ofNat 64 (GuestState.stackTop (CpuData.guestCpuState p)))
    (by simp [configuredFields, guestRegFields]) (by decide), BitVec.toNat_ofNat, Nat.mod_eq_of_lt]
  rw [GuestState.stackTop_eq, CpuData.guestCpuState_eq]
  omega

/-- a guest on the stack pointer `rsp`, with zeros elsewhere -/
def guestAt (rsp : BitVec 64) : Machine :=
  { (default : Machine) with cpu := { (default : Cpu) with regs := fun _ => rsp } }

/-- whatever is pushed lands below the array -/
theorem not_runsOnOwnStack (hp : CpuDataAt p) {vmcs : ℕ → BitVec 64}
    (hrsp : (vmcs vmcsGuestRsp).toNat = GuestState.stackTop (CpuData.guestCpuState p))
    {ops : List StackOp} (hops : Within (8 * pageFrameSize) 0 ops) (hne : ops ≠ []) :
    ¬ RunsOnOwnStack p vmcs ops := by
  intro h
  obtain ⟨x, hx⟩ := List.exists_mem_of_ne_nil _
    (storedBytes_ne_nil ops (guestAt (vmcs vmcsGuestRsp)) hops hne)
  have hin := (h (guestAt (vmcs vmcsGuestRsp)) rfl x hx).inside.1
  have hlt := hp.lt
  have htop : GuestState.stackTop (CpuData.guestCpuState p) = p + 0x80A000 := rfl
  have hsize : 8 * pageFrameSize = 0x8000 := rfl
  have hg : (((guestAt (vmcs vmcsGuestRsp)).cpu.regs .rsp).toNat : ℤ)
      = (p + 0x80A000 : ℕ) - (0 : ℤ) := by
    rw [sub_zero, ← htop, ← hrsp]
    rfl
  have hbelow := storedBytes_below ops _ (by omega) (by omega) hg hops x hx
  omega

/-- **the guest runs on its own stack exactly as long as it does not use it**: from the
`VMCS_GUEST_RSP` that `configure_vmcs` writes, the only run that stays in the array is the empty one -/
theorem own_stack_iff (hp : CpuDataAt p) : ∃ s', (configureVmcs img p).run s = .ret () s' ∧
    ∀ ops, Within (8 * pageFrameSize) 0 ops → (RunsOnOwnStack p s'.vmcs ops ↔ ops = []) := by
  obtain ⟨log, hrun⟩ := configureVmcs_run img p s
  refine ⟨_, hrun, fun ops hops => ⟨fun h => ?_, ?_⟩⟩
  · by_contra hne
    exact not_runsOnOwnStack p hp (configured_rsp img p hp hrun) hops hne h
  · rintro rfl g - x hx
    cases hx

theorem own_stack_iff_fixed : ∃ s',
    (configureVmcs sampleImage cpuDataAddress).run readyMachine = .ret () s' ∧
    ∀ ops, Within (8 * pageFrameSize) 0 ops → (RunsOnOwnStack cpuDataAddress s'.vmcs ops ↔ ops = []) :=
  own_stack_iff sampleImage cpuDataAddress readyMachine cpuDataAt_fixed

/-- **the first `push` of the guest leaves its stack** -/
theorem first_push_escapes : ¬ ∀ (img : Image) (p : ℕ) (s : Machine), CpuDataAt p →
    ∃ s', (configureVmcs img p).run s = .ret () s' ∧
      ∀ ops, Within (8 * pageFrameSize) 0 ops → RunsOnOwnStack p s'.vmcs ops := by
  intro h
  obtain ⟨s', hrun, hall⟩ := h sampleImage cpuDataAddress readyMachine cpuDataAt_fixed
  have hwithin : Within (8 * pageFrameSize) 0 [.push 0#64] := by
    simp only [Within, StackOp.growth, pageFrameSize]
    decide
  exact not_runsOnOwnStack cpuDataAddress cpuDataAt_fixed
    (configured_rsp sampleImage cpuDataAddress cpuDataAt_fixed hrun) hwithin (by simp) (hall _ hwithin)

end

end HyperC
