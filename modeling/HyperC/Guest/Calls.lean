import HyperC.Guest.Mallware
import HyperC.Run.Audit

/-!
# System calls in a row

A program that makes system calls is left on `kernel_stack` by its first `__sysenter`, and calls on
from there.

* `SystemCall`, `Mallware.calls`   the calls of a program;
* `Place`, `Stands`      where its stack is: with the program, or below the end of `kernel_stack`;
* `call_syscall`, `call_sysenter`, `call_stray`   one call: a `__syscall` keeps the place, the first
                         `__sysenter` changes it, and from a second one control goes to the stack;
* `calls_return_iff`     so all calls come back exactly if at most one of them is a `__sysenter`;
* `protection_decides`   and whether the malware is in place is decided by the hypercall.
-/

namespace HyperC
open Code Msr Simulation

/-- a call of `__syscall` or `__sysenter` from C -/
structure SystemCall where
  gate : Gate
  number : BitVec 32
  /-- the return address -/
  next : BitVec 64

namespace Mallware
variable (k : Mallware)

def gate : Gate → Code Guest Unit
  | .syscall => k.syscall
  | .sysenter => k.sysenter

def call (c : SystemCall) : Code Guest Unit := do
  onMachine (setReg .rdi (c.number.setWidth 64))
  callFunction c.next (k.gate c.gate)

def calls (cs : List SystemCall) : Code Guest Unit := each k.call cs

end Mallware

/-! ## the stack of the caller -/

/-- the bytes of the table, with the qword behind it that the dispatcher reads too -/
def TableByte (x : ℕ) : Prop := ssdtAddress ≤ x ∧ x < ssdtAddress + 8 * ssdtSize + 8

/-- the data of the handlers is not the kernel's -/
def DataApart (k : Mallware) (own : ℕ → Prop) : Prop :=
  ∀ x, own x → ¬ TableByte x ∧ ¬ k.Cell x ∧ (x < k.gates.kernelStack ∨ k.gates.stackEnd ≤ x)

inductive Place where
  | caller | kernel
deriving DecidableEq

/-- how often `__sysenter` comes back from there -/
def Place.sysenters : Place → ℕ
  | .caller => 1
  | .kernel => 0

/-- the stack of a caller has room for a call, and is neither the kernel's nor the handlers' -/
structure OwnStack (k : Mallware) (own : ℕ → Prop) (s : Machine) : Prop where
  room : k.depth + 8 ≤ (s.cpu.regs .rsp).toNat
  own : ∀ x, (s.cpu.regs .rsp).toNat - (k.depth + 8) ≤ x → x < (s.cpu.regs .rsp).toNat → ¬ own x
  table : (s.cpu.regs .rsp).toNat ≤ ssdtAddress ∨
    ssdtAddress + 8 * ssdtSize + k.depth + 16 ≤ (s.cpu.regs .rsp).toNat
  kernel : (s.cpu.regs .rsp).toNat ≤ k.gates.kernelStack ∨
    k.gates.stackEnd + k.depth + 8 ≤ (s.cpu.regs .rsp).toNat
  cell : (s.cpu.regs .rsp).toNat ≤ k.gates.sysenterRsp ∨
    k.gates.sysenterRsp + k.depth + 16 ≤ (s.cpu.regs .rsp).toNat

/-- where the caller `s` stands -/
def Stands (k : Mallware) (infected : Bool) (own : ℕ → Prop) (s : Machine) : Place → Prop
  | .caller => OwnStack k own s
  | .kernel => (s.cpu.regs .rsp).toNat + k.frames infected = k.gates.stackEnd

/-- what the caller finds in `t` that was there in `s`, with the lines of the malware -/
structure After (lines : List LogLine) (s t : Machine) : Prop where
  table : s.mem.SameOn t.mem ssdtAddress (ssdtAddress + 8 * ssdtSize + 8)
  msr : t.cpu.msr = s.cpu.msr
  minLevel : t.minLevel = s.minLevel
  logs : infections t = infections s ++ lines

theorem After.refl (s : Machine) : After [] s s :=
  ⟨Mem.SameOn.refl _ _ _, rfl, rfl, (List.append_nil _).symm⟩

theorem After.trans {lines lines' : List LogLine} {s t u : Machine} (h : After lines s t)
    (h' : After lines' t u) : After (lines ++ lines') s u :=
  ⟨h.table.trans h'.table, h'.msr.trans h.msr, h'.minLevel.trans h.minLevel, by
    rw [h'.logs, h.logs, List.append_assoc]⟩

theorem Leaves.after {own : ℕ → Prop} {lo hi : ℕ} {lines : List LogLine} {s t : Machine}
    (h : Leaves own lo hi lines s t)
    (hout : ∀ x, TableByte x → ¬ own x ∧ (x < lo ∨ hi ≤ x)) : After lines s t :=
  ⟨h.sameOn fun x h1 h2 => hout x ⟨h1, h2⟩, h.msr, h.minLevel, h.logs⟩

/-! ## one call -/

section
variable {k : Mallware} {own : ℕ → Prop} {infected : Bool} {s : Machine} {rs : List ℕ}
  {is : List (BitVec 64)} {c : SystemCall}

/-- the machine when the gate is entered -/
def calling (c : SystemCall) (s : Machine) : Machine :=
  pushQword c.next (withRegs s (Function.update s.cpu.regs .rdi (c.number.setWidth 64)))

theorem calling_rsp : (calling c s).cpu.regs .rsp = s.cpu.regs .rsp - 8#64 := callWith_rsp

theorem calling_edi : edi (calling c s) = c.number := callWith_edi _

/-- a call is the run of the gate, and the test where that comes back -/
theorem run_call_gate : (k.call c).run ⟨s, rs, is⟩ = (do
    k.gate c.gate
    let rip ← onMachine (getReg .rip)
    if rip = c.next then pure () else leave id : Code Guest Unit).run ⟨calling c s, rs, is⟩ := by
  unfold Mallware.call callFunction
  rw [bind_of_ret (run_setArgument _ _), bind_of_ret (run_step _)]
  rfl

theorem calling_top : (calling c s).mem.load64 ((calling c s).cpu.regs .rsp).toNat = c.next :=
  pushQword_top _

/-- the call itself writes its return address -/
theorem leaves_calling (own : ℕ → Prop) (c : SystemCall) (h : 8 ≤ (s.cpu.regs .rsp).toNat) :
    Leaves own ((s.cpu.regs .rsp).toNat - 8) (s.cpu.regs .rsp).toNat [] s (calling c s) :=
  leaves_callWith own c.next _ h

/-- what `omega` has to know of where the caller stands -/
theorem stands_room {p : Place} (h : Stands k infected own s p) (hdata : DataApart k own) :
    k.depth + 8 ≤ (s.cpu.regs .rsp).toNat ∧
    (∀ x, (s.cpu.regs .rsp).toNat - (k.depth + 8) ≤ x → x < (s.cpu.regs .rsp).toNat → ¬ own x) ∧
    ((s.cpu.regs .rsp).toNat ≤ ssdtAddress ∨
      ssdtAddress + 8 * ssdtSize + k.depth + 16 ≤ (s.cpu.regs .rsp).toNat) := by
  obtain ⟨hend, hlt, hfits, -, -, htable⟩ := k.bounds infected
  cases p with
  | caller =>
    have hs : OwnStack k own s := h
    exact ⟨hs.room, hs.own, hs.table⟩
  | kernel =>
    rw [Stands] at h
    unfold Mallware.depth
    refine ⟨by omega, fun x h1 h2 ho => ?_, by omega⟩
    have hx := (hdata x ho).2.2
    omega

theorem Stands.congr {p : Place} {t : Machine} (h : Stands k infected own s p)
    (hrsp : t.cpu.regs .rsp = s.cpu.regs .rsp) : Stands k infected own t p := by
  cases p with
  | caller =>
    obtain ⟨h1, h2, h3, h4, h5⟩ : OwnStack k own s := h
    rw [← hrsp] at h1 h2 h3 h4 h5
    exact ⟨h1, h2, h3, h4, h5⟩
  | kernel =>
    rw [Stands, hrsp]
    exact h

/-- **`__syscall` returns, from either place** -/
theorem call_syscall {p : Place} (hc : c.gate = .syscall) (h : k.Installed infected s)
    (hkeeps : infected = true → k.KeepsRcx) (hlevel : s.minLevel.toNat ≤ LogLevel.info.toNat)
    (hdata : DataApart k own) (hp : Stands k infected own s p)
    (htidy : ∀ h ∈ dispatched s.mem c.number, TidyHandler k.gates own h) :
    ∃ g, (k.call c).run ⟨s, rs, is⟩ = .ret () g ∧ g.invoked = is ++ dispatched s.mem c.number ∧
      After (infection infected c.gate) s g.machine ∧ Stands k infected own g.machine p := by
  obtain ⟨hroom, hown, htable⟩ := stands_room hp hdata
  have hsub := toNat_sub_of_le (x := s.cpu.regs .rsp) (n := 8) (by omega)
  have hlt := (s.cpu.regs .rsp).isLt
  have hcalling : ∀ own, Leaves own ((s.cpu.regs .rsp).toNat - 8) (s.cpu.regs .rsp).toNat [] s
      (calling c s) := fun own => leaves_calling own c (by omega)
  have hsp := calling_rsp (c := c) (s := s)
  have hd : dispatched (calling c s).mem c.number = dispatched s.mem c.number :=
    dispatched_congr ((hcalling fun _ => False).sameOn fun x _ _ => ⟨id, by omega⟩)
  obtain ⟨g, hrun, hinv, hret, hleaves⟩ := @syscall_comes_back k own infected (calling c s) rs is
    (h.congr (hcalling own).msr) hkeeps (by rw [(hcalling own).minLevel]; exact hlevel)
    (by rw [hsp]; omega) (by rw [hsp]; omega) (by rw [hsp]; omega)
    (fun x h1 h2 => hown x (by rw [hsp] at h1; omega) (by rw [hsp] at h2; omega))
    (by rw [calling_edi, hd]; exact htidy)
  obtain ⟨hcall, hrsp, -, hrest⟩ := callFunction_returns (by omega) hrun hret hleaves
  rw [calling_edi, hd] at hinv
  rw [hc]
  refine ⟨g, ?_, hinv, hrest.after fun x hx => ⟨fun ho => (hdata x ho).1 hx, ?_⟩, hp.congr hrsp⟩
  · unfold Mallware.call
    rw [bind_of_ret (run_setArgument _ _), hc]
    exact hcall
  · rw [TableByte] at hx
    omega

/-- the run of `__sysenter`, from either place -/
theorem call_sysenter {p : Place} (hc : c.gate = .sysenter) (h : k.Installed infected s)
    (hlevel : s.minLevel.toNat ≤ LogLevel.info.toNat) (hdata : DataApart k own)
    (hp : Stands k infected own s p)
    (htidy : ∀ h ∈ dispatched s.mem c.number, TidyHandler k.gates own h) :
    ∃ g, (k.gate c.gate).run ⟨calling c s, rs, is⟩ = .ret () g ∧
      g.invoked = is ++ dispatched s.mem c.number ∧ After (infection infected c.gate) s g.machine ∧
      GoesOnBelow k infected own (calling c s) g.machine := by
  obtain ⟨hroom, hown, htable⟩ := stands_room hp hdata
  obtain ⟨hend, hlt, hfits, -, hcelltable, hstacktable⟩ := k.bounds infected
  have hsub := toNat_sub_of_le (x := s.cpu.regs .rsp) (n := 8) (by omega)
  have hcalling : ∀ own, Leaves own ((s.cpu.regs .rsp).toNat - 8) (s.cpu.regs .rsp).toNat [] s
      (calling c s) := fun own => leaves_calling own c (by omega)
  have hd : dispatched (calling c s).mem c.number = dispatched s.mem c.number :=
    dispatched_congr ((hcalling fun _ => False).sameOn fun x _ _ => ⟨id, by omega⟩)
  obtain ⟨g, hrun, hinv, hgoes, hleaves⟩ := @sysenter_goes_on k own infected (calling c s) rs is
    (h.congr (hcalling own).msr) (by rw [(hcalling own).minLevel]; exact hlevel)
    (fun x ho => (hdata x ho).2) (by rw [calling_edi, hd]; exact htidy)
  rw [calling_edi, hd] at hinv
  refine ⟨g, by rw [hc]; exact hrun, hinv, ?_, hgoes⟩
  rw [hc]
  have hcall : After [] s (calling c s) := (hcalling own).after fun x hx =>
    ⟨fun ho => (hdata x ho).1 hx, by rw [TableByte] at hx; omega⟩
  refine hcall.trans (hleaves.after fun x hx => ⟨fun ho => ?_, ?_⟩)
  · rcases ho with ho | ho
    · exact (hdata x ho).1 hx
    · rw [TableByte] at hx
      rw [Mallware.Cell] at ho
      omega
  · rw [TableByte] at hx
    omega

/-- **the first `__sysenter` comes back**, and leaves its caller on `kernel_stack` -/
theorem call_first (hc : c.gate = .sysenter) (h : k.Installed infected s)
    (hlevel : s.minLevel.toNat ≤ LogLevel.info.toNat) (hdata : DataApart k own)
    (hp : OwnStack k own s)
    (htidy : ∀ h ∈ dispatched s.mem c.number, TidyHandler k.gates own h) :
    ∃ g, (k.call c).run ⟨s, rs, is⟩ = .ret () g ∧ g.invoked = is ++ dispatched s.mem c.number ∧
      After (infection infected c.gate) s g.machine ∧ Stands k infected own g.machine .kernel := by
  have hstands : Stands k infected own s .caller := hp
  obtain ⟨g, hrun, hinv, hafter, hgoes⟩ := @call_sysenter k own infected s rs is c _ hc h hlevel hdata
    hstands htidy
  obtain ⟨hroom, hown, -, hkernel, hcell⟩ := hp
  have hsub := toNat_sub_of_le (x := s.cpu.regs .rsp) (n := 8) (by omega)
  have hsp : ((calling c s).cpu.regs .rsp).toNat + 8 = (s.cpu.regs .rsp).toNat := by
    rw [calling_rsp, hsub]
  have hrip : g.machine.cpu.regs .rip = c.next := by
    rw [hgoes.rip fun x h1 h2 => ⟨hown x (by omega) (by omega), by rw [Mallware.Cell]; omega, by omega⟩,
      calling_top]
  refine ⟨g, ?_, hinv, hafter, hgoes.rsp⟩
  rw [run_call_gate, bind_of_ret hrun, bind_of_ret (run_getReg .rip), if_pos hrip]
  rfl

/-- **a second one does not**: its frames are where the return address is -/
theorem call_stray (hc : c.gate = .sysenter) (h : k.Installed infected s)
    (hlevel : s.minLevel.toNat ≤ LogLevel.info.toNat) (hdata : DataApart k own)
    (hp : Stands k infected own s .kernel)
    (hnext : c.next.toNat < k.gates.kernelStack ∨ k.gates.stackEnd ≤ c.next.toNat)
    (htidy : ∀ h ∈ dispatched s.mem c.number, TidyHandler k.gates own h)
    (g : Guest) : (k.call c).run ⟨s, rs, is⟩ ≠ .ret () g := by
  obtain ⟨g', hrun, -, -, hgoes⟩ := @call_sysenter k own infected s rs is c _ hc h hlevel hdata hp
    htidy
  have hroom := (stands_room hp hdata).1
  have hkernel : (s.cpu.regs .rsp).toNat + k.frames infected = k.gates.stackEnd := hp
  have hsub := toNat_sub_of_le (x := s.cpu.regs .rsp) (n := 8) (by omega)
  have hrange := hgoes.ripFrame (by rw [calling_rsp]; omega)
  have hrip : g'.machine.cpu.regs .rip ≠ c.next := by
    intro heq
    rw [heq] at hrange
    omega
  rw [run_call_gate, bind_of_ret hrun, bind_of_ret (run_getReg .rip), if_neg hrip]
  intro hret
  cases hret

end

/-! ## the calls of a program -/

/-- how many calls are a `__sysenter` -/
def sysenters (cs : List SystemCall) : ℕ := cs.countP fun c => c.gate = .sysenter

theorem sysenters_cons (c : SystemCall) (cs : List SystemCall) :
    sysenters (c :: cs) = sysenters cs + sysenters [c] := by
  rw [sysenters, ← List.singleton_append, List.countP_append, Nat.add_comm]
  rfl

/-- the lines that the malware adds to the log -/
def infectionsOf (infected : Bool) (cs : List SystemCall) : List LogLine :=
  cs.flatMap fun c => infection infected c.gate

/-- all calls of a program come back to it: each has invoked the handler of its number, and is in the
log if the malware is in place -/
structure ComeBack (infected : Bool) (cs : List SystemCall) (s : Machine) (is : List (BitVec 64))
    (g : Guest) : Prop where
  invoked : g.invoked = is ++ cs.flatMap fun c => dispatched s.mem c.number
  after : After (infectionsOf infected cs) s g.machine

section
variable {k : Mallware} {own : ℕ → Prop} {infected : Bool}

/-- one more call in front -/
theorem ComeBack.cons {c : SystemCall} {cs : List SystemCall} {s : Machine} {is : List (BitVec 64)}
    {g g' : Guest} (hinv : g.invoked = is ++ dispatched s.mem c.number)
    (hafter : After (infection infected c.gate) s g.machine)
    (h : ComeBack infected cs g.machine g.invoked g') : ComeBack infected (c :: cs) s is g' := by
  have hd : ∀ n, dispatched g.machine.mem n = dispatched s.mem n := fun n => dispatched_congr hafter.table
  refine ⟨?_, hafter.trans h.after⟩
  rw [h.invoked, hinv, List.flatMap_cons, List.append_assoc]
  simp only [hd]

/-- a call from the place `p` comes back to another place, unless it is one `__sysenter` too many -/
theorem call_from {c : SystemCall} {s : Machine} {p : Place} {rs : List ℕ} {is : List (BitVec 64)}
    (hkeeps : infected = true → k.KeepsRcx) (hdata : DataApart k own) (h : k.Installed infected s)
    (hlevel : s.minLevel.toNat ≤ LogLevel.info.toNat) (hp : Stands k infected own s p)
    (hnext : c.next.toNat < k.gates.kernelStack ∨ k.gates.stackEnd ≤ c.next.toNat)
    (htidy : ∀ h ∈ dispatched s.mem c.number, TidyHandler k.gates own h) :
    (∃ g q, (k.call c).run ⟨s, rs, is⟩ = .ret () g ∧ g.invoked = is ++ dispatched s.mem c.number ∧
      After (infection infected c.gate) s g.machine ∧ Stands k infected own g.machine q ∧
      p.sysenters = q.sysenters + sysenters [c]) ∨
    (p.sysenters < sysenters [c] ∧ ∀ g, (k.call c).run ⟨s, rs, is⟩ ≠ .ret () g) := by
  cases hc : c.gate with
  | syscall =>
    have hcount : sysenters [c] = 0 := by simp [sysenters, hc]
    obtain ⟨g, hrun, hinv, hafter, hq⟩ := call_syscall hc h hkeeps hlevel hdata hp htidy
    rw [hc] at hafter
    exact .inl ⟨g, p, hrun, hinv, hafter, hq, by rw [hcount, Nat.add_zero]⟩
  | sysenter =>
    have hcount : sysenters [c] = 1 := by simp [sysenters, hc]
    cases p with
    | caller =>
      obtain ⟨g, hrun, hinv, hafter, hq⟩ := call_first hc h hlevel hdata hp htidy
      rw [hc] at hafter
      exact .inl ⟨g, .kernel, hrun, hinv, hafter, hq, by rw [hcount]; rfl⟩
    | kernel =>
      exact .inr ⟨by rw [hcount]; exact Nat.one_pos, call_stray hc h hlevel hdata hp hnext htidy⟩

/-- **the calls of a program come back exactly if there is no `__sysenter` too many among them**, by
induction on the calls, with the place as the invariant -/
theorem calls_from (hkeeps : infected = true → k.KeepsRcx) (hdata : DataApart k own)
    (cs : List SystemCall) {s : Machine} {p : Place} {rs : List ℕ} {is : List (BitVec 64)}
    (h : k.Installed infected s) (hlevel : s.minLevel.toNat ≤ LogLevel.info.toNat)
    (hp : Stands k infected own s p)
    (hnext : ∀ c ∈ cs, c.next.toNat < k.gates.kernelStack ∨ k.gates.stackEnd ≤ c.next.toNat)
    (htidy : ∀ c ∈ cs, ∀ h ∈ dispatched s.mem c.number, TidyHandler k.gates own h) :
    ((∃ g, (k.calls cs).run ⟨s, rs, is⟩ = .ret () g) ↔ sysenters cs ≤ p.sysenters) ∧
      ∀ g, (k.calls cs).run ⟨s, rs, is⟩ = .ret () g → ComeBack infected cs s is g := by
  induction cs generalizing s p rs is with
  | nil =>
    refine ⟨⟨fun _ => Nat.zero_le _, fun _ => ⟨_, rfl⟩⟩, fun g hg => ?_⟩
    cases hg
    exact ⟨(List.append_nil _).symm, After.refl s⟩
  | cons c cs ih =>
    have hcons : k.calls (c :: cs) = (k.call c >>= fun _ => k.calls cs) := rfl
    rw [sysenters_cons, hcons]
    rcases @call_from k own infected c s p rs is hkeeps hdata h hlevel hp (hnext c List.mem_cons_self)
      (htidy c List.mem_cons_self) with ⟨g, q, hrun, hinv, hafter, hq, hplace⟩ | ⟨hmany, hstray⟩
    · have hd : ∀ n, dispatched g.machine.mem n = dispatched s.mem n :=
        fun n => dispatched_congr hafter.table
      obtain ⟨hiff, hback⟩ := @ih g.machine q g.reads g.invoked (h.congr hafter.msr)
        (by rw [hafter.minLevel]; exact hlevel) hq (fun c' hc' => hnext c' (List.mem_cons_of_mem _ hc'))
        fun c' hc' => by rw [hd]; exact htidy c' (List.mem_cons_of_mem _ hc')
      rw [bind_of_ret hrun]
      refine ⟨hiff.trans (by omega), fun g' hg' => ComeBack.cons hinv hafter (hback g' hg')⟩
    · have hnever : ∀ g, ¬ (k.call c >>= fun _ => k.calls cs).run ⟨s, rs, is⟩ = .ret () g := by
        intro g hg
        obtain ⟨_, g₁, hrun, -⟩ := bind_eq_ret.mp hg
        exact hstray g₁ hrun
      exact ⟨⟨fun ⟨g, hg⟩ => (hnever g hg).elim, fun hle => by omega⟩, fun g hg => (hnever g hg).elim⟩

/-- **all system calls of a program come back to it exactly if at most one is a `__sysenter`**, with the
malware in place or without; and then each has invoked the handler of its number, and the malware, if it
is in place, has logged each once, in order -/
theorem calls_return_iff (k : Mallware) (own : ℕ → Prop) (infected : Bool) (s : Machine)
    (h : k.Installed infected s) (hkeeps : infected = true → k.KeepsRcx)
    (hlevel : s.minLevel.toNat ≤ LogLevel.info.toNat) (hdata : DataApart k own) (hstack : OwnStack k own s)
    (cs : List SystemCall)
    (hnext : ∀ c ∈ cs, c.next.toNat < k.gates.kernelStack ∨ k.gates.stackEnd ≤ c.next.toNat)
    (htidy : ∀ c ∈ cs, ∀ h ∈ dispatched s.mem c.number, TidyHandler k.gates own h) :
    ((∃ g, (k.calls cs).run (Guest.init s) = .ret () g) ↔ sysenters cs ≤ 1) ∧
      ∀ g, (k.calls cs).run (Guest.init s) = .ret () g →
        g.invoked = cs.flatMap (fun c => dispatched s.mem c.number) ∧
        infections g.machine = infections s ++ infectionsOf infected cs := by
  obtain ⟨hiff, hback⟩ := @calls_from k own infected hkeeps hdata cs s .caller [] [] h hlevel hstack hnext
    htidy
  exact ⟨hiff, fun g hg => ⟨(hback g hg).invoked, (hback g hg).after.logs⟩⟩

end

/-! ## the attack -/

/-- the kernel sets its gates up, may ask for protection, and is attacked -/
def Mallware.attackCode (k : Mallware) (protect : Bool) (cs : BitVec 16) : List GuestInstr :=
  initSyscallsCode k.gates cs ++ (if protect then vmcallCode protectNumber else []) ++ k.injectMallwares

section
variable {env : GuestEnv} {v v' : Vm} {s : Machine}

/-- **the hypercall decides what the attack installs** -/
theorem installed_of_run {k : Mallware} {protect : Bool} (hmsr : s.cpu.msr = v.msr)
    (hcs : s.cpu.cs &&& 0xFFFC#16 ≠ 0#16) (hfree : ∀ d msr, Covered msr → v.watched d msr = false)
    (h : runFrom (Vm.step env) v (k.attackCode protect s.cpu.cs) = some v') {t : Machine}
    (ht : t.cpu.msr = v'.msr) : k.Installed (!protect) t := by
  rw [Mallware.attackCode, runFrom_append, runFrom_append] at h
  obtain ⟨v₂, h, h₃⟩ := Option.bind_eq_some_iff.mp h
  obtain ⟨v₁, h₁, h₂⟩ := Option.bind_eq_some_iff.mp h
  obtain ⟨s₁, hinit, hm₁, hw₁⟩ := initSyscalls_of_run hmsr hfree h₁
  have hgates : GateMsrs k.gates s₁ := gateMsrs_init hinit hcs rfl
  -- the hypercall changes none of these MSRs
  obtain ⟨hm₂, hw₂⟩ : (∀ msr, msr ≠ msrIa32Debugctl → v₂.msr msr = v₁.msr msr) ∧
      ∀ msr, msr = msrIa32SysenterEip ∨ msr = msrIa32Lstar → v₂.watched .write msr = protect := by
    cases protect with
    | true =>
      obtain ⟨v₂', h₂', hm₂, hw₂⟩ := run_vmcallCode env (v := v₁)
      cases h₂.symm.trans h₂'
      refine ⟨hm₂, fun msr hm => ?_⟩
      rw [hw₂]
      simp only [Vm.protect, hm, and_self, decide_true, Bool.or_true]
    | false =>
      cases h₂
      refine ⟨fun _ _ => rfl, fun msr hm => ?_⟩
      rw [hw₁]
      exact hfree _ _ (by rcases hm with rfl | rfl <;> decide)
  have hinjected : Injected k.toKernel v₂ v' := injected_of_run h₃
  have hkept : ∀ msr, msr ≠ msrIa32Debugctl → msr ≠ msrIa32SysenterEip → msr ≠ msrIa32Lstar →
      t.cpu.msr msr = s₁.cpu.msr msr := by
    intro msr hne h1 h2
    rw [ht, hinjected.others msr hne h1 h2, hm₂ msr hne, hm₁]
  have hlstar := hinjected.lstar
  have heip := hinjected.eip
  rw [hw₂ _ (.inr rfl), hm₂ _ (by decide), hm₁, hgates.lstar, ← ht] at hlstar
  rw [hw₂ _ (.inl rfl), hm₂ _ (by decide), hm₁, hgates.eip, ← ht] at heip
  refine ⟨?_, ?_, ?_, ?_, ?_⟩
  · rw [hkept _ (by decide) (by decide) (by decide)]
    exact hgates.selector
  · rw [heip]
    cases protect <;> rfl
  · rw [hkept _ (by decide) (by decide) (by decide)]
    exact hgates.esp
  · rw [hlstar]
    cases protect <;> rfl
  · rw [hkept _ (by decide) (by decide) (by decide)]
    exact hgates.efer

/-- the attack runs through where the processor takes the values -/
theorem run_attackCode (k : Mallware) (protect : Bool) {cs : BitVec 16}
    (hfree : ∀ d msr, Covered msr → v.watched d msr = false)
    (hgates : AcceptsGates env k.gates cs (v.msr msrIa32Efer)) (hmallware : AcceptsMallware env k.toKernel) :
    ∃ v', runFrom (Vm.step env) v (k.attackCode protect cs) = some v' := by
  obtain ⟨v₁, h₁⟩ := run_initSyscallsCode hfree hgates
  obtain ⟨v₂, h₂⟩ : ∃ v₂,
      runFrom (Vm.step env) v₁ (if protect then vmcallCode protectNumber else []) = some v₂ := by
    cases protect with
    | true =>
      obtain ⟨v₂, h₂, -⟩ := run_vmcallCode env (v := v₁)
      exact ⟨v₂, h₂⟩
    | false => exact ⟨v₁, rfl⟩
  obtain ⟨v₃, h₃⟩ := run_injectMallwares env (v := v₂) k.toKernel
    (by rw [passes, hmallware.eip, Bool.or_true]) (by rw [passes, hmallware.lstar, Bool.or_true])
  refine ⟨v₃, ?_⟩
  rw [Mallware.attackCode, runFrom_append, runFrom_append, h₁, Option.bind_some, h₂, Option.bind_some, h₃]

theorem fair_attackCode {img : Image} (k : Mallware) (protect : Bool) (cs : BitVec 16) :
    ∀ i ∈ k.attackCode protect cs, i.Fair img := by
  intro i hi
  rw [Mallware.attackCode] at hi
  rcases List.mem_append.mp hi with hi | hi
  · rcases List.mem_append.mp hi with hi | hi
    · exact fair_initSyscallsCode k.gates cs i hi
    · cases protect with
      | true => exact fair_vmcallCode _ i hi
      | false => cases hi
  · exact fair_injectMallwares k.toKernel i hi

end

/-- **the hypercall decides whose system calls the guest has**: the attack runs through either way, and
afterwards the malware is in place if the guest has not asked for protection, and the handlers are if it
has -/
theorem protection_decides (u : VmxUnit) (env : GuestEnv) (k : Mallware) (protect : Bool) (s s₀ : Machine)
    (hz : s.mem.ZeroOn (CpuData.epts cpuDataAddress) extendedPagingTablesT.size)
    (hclean : s.mem.ZeroOn (CpuData.msrBitmaps cpuDataAddress) pageFrameSize)
    (hcs : s.cpu.cs &&& 0xFFFC#16 ≠ 0#16) (hboot : Boots u env.img s s₀)
    (hgates : AcceptsGates env k.gates s.cpu.cs (s₀.cpu.msr msrIa32Efer))
    (hmallware : AcceptsMallware env k.toKernel) :
    ∃ s₁, (guestRuns env (k.attackCode protect s.cpu.cs)).run s₀ = .ret () s₁ ∧
      k.Installed (!protect) s₁ := by
  have hcs₀ : s₀.cpu.cs = s.cpu.cs := congrArg Prod.snd (boots_view u env.img hboot)
  have hfree := unwatched_boots hclean hboot
  obtain ⟨v', hr⟩ := run_attackCode (v := vmOf s₀) k protect hfree hgates hmallware
  obtain ⟨s₁, hrun, hv⟩ := (vm_simulates env).returns_run (hosts_boots env hz hboot)
    (fair_attackCode k protect s.cpu.cs) hr
  rw [← hcs₀] at hr hcs
  exact ⟨s₁, hrun, installed_of_run rfl hcs hfree hr hv.msr⟩

/-! ## a kernel with a crab -/

theorem stackOnly_tidy (own : ℕ → Prop) (img img' : Gates) {locals : ℕ} {s : Machine}
    (hs : Callable img own s) (h : 8 + locals + img'.callDepth ≤ img.callDepth) :
    Tidy img own s (img'.stackOnly locals s) := by
  have hroom := hs.room
  have hfits : 8 + locals + img'.callDepth ≤ (s.cpu.regs .rsp).toNat := by omega
  have hentry := leaves_entered own img' hfits
  have hback : Leaves own ((s.cpu.regs .rsp).toNat - img.callDepth) (s.cpu.regs .rsp).toNat []
      (img'.clobber locals (prologue locals s)) (img'.stackOnly locals s) := Leaves.of_eq rfl rfl rfl rfl
  exact ⟨stackOnly_returned img' hfits, (hentry.mono (by omega) le_rfl).trans hback⟩

/-- the handlers of `sampleGates` keep to their stack -/
theorem tidy_sampleGates (own : ℕ → Prop) (h : BitVec 64) : TidyHandler sampleGates own h :=
  fun _ hs => stackOnly_tidy own sampleGates sampleCode hs (by decide)

/-- the malware next to the kernel -/
def sampleMallware : Mallware where
  gates := sampleGates
  syscallMallware := 0x10A100#64
  sysenterMallware := 0x10A200#64
  behindSyscallHandler := 0x10A120#64
  behindSysenterHandler := 0x10A230#64
  syscallLocals := 16
  sysenterLocals := 16
  arguments := id
  entries_nodup := by decide
  fits := by decide

/-- the calls of `kmain`, with the number `42` -/
def kmainCalls : List SystemCall := [⟨.syscall, 42#32, 0x10A300#64⟩, ⟨.sysenter, 42#32, 0x10A310#64⟩]

theorem kmain_stack (msr : BitVec 32 → BitVec 64) :
    OwnStack sampleMallware (fun _ => False) (kmainCall msr) := by
  have hrsp : ((kmainCall msr).cpu.regs .rsp).toNat = 0x200000 := rfl
  refine ⟨?_, fun _ _ _ => id, .inl ?_, .inr ?_, .inr ?_⟩
  all_goals
    rw [hrsp]
    decide

/-- the MSRs after the attack -/
def attackedMsrs (msr : BitVec 32) : BitVec 64 :=
  if msr = msrIa32SysenterCs then 8#64
  else if msr = msrIa32SysenterEip then sampleMallware.sysenterMallware
  else if msr = msrIa32SysenterEsp then BitVec.ofNat 64 sampleMallware.gates.stackEnd
  else if msr = msrIa32Lstar then sampleMallware.syscallMallware
  else if msr = msrIa32Efer then eferSyscallEnable
  else 0#64

theorem calls_return_iff_kmain :
    ((∃ g, (sampleMallware.calls kmainCalls).run (Guest.init (kmainCall attackedMsrs)) = .ret () g) ↔
      sysenters kmainCalls ≤ 1) ∧
      ∀ g, (sampleMallware.calls kmainCalls).run (Guest.init (kmainCall attackedMsrs)) = .ret () g →
        g.invoked = kmainCalls.flatMap
          (fun c => dispatched (kmainCall attackedMsrs).mem c.number) ∧
        infections g.machine
          = infections (kmainCall attackedMsrs) ++ infectionsOf true kmainCalls :=
  calls_return_iff sampleMallware (fun _ => False) true (kmainCall attackedMsrs)
    ⟨by decide, by decide, by decide, by decide, by decide⟩ (fun _ _ => rfl) (by decide)
    (fun _ h => h.elim) (kmain_stack _) kmainCalls (by decide) fun _ _ h _ => tidy_sampleGates _ h

theorem protection_decides_kmain : ∃ s₀ s₁, Boots plainUnit sampleImage flatMachine s₀ ∧
    (guestRuns plainEnv (sampleMallware.attackCode true flatMachine.cpu.cs)).run s₀ = .ret () s₁ ∧
    sampleMallware.Installed (!true) s₁ := by
  obtain ⟨s₂, hs₂⟩ : ∃ s', (hostSetup plainUnit sampleImage).run flatMachine = .ret () s' :=
    hostSetup_returns _ plainUnit_succeeds (freeMachine_fixed 0#64) fun hlock => absurd hlock (by decide)
  obtain ⟨log, hleave⟩ := launchVm_leaves (u := plainUnit) (s := s₂) fun _ => rfl
  have hboot : Boots plainUnit sampleImage flatMachine _ := ⟨s₂, hs₂, hleave⟩
  obtain ⟨s₁, hrun, hinstalled⟩ := protection_decides plainUnit plainEnv sampleMallware true flatMachine _
    (fun _ _ _ => rfl) (fun _ _ _ => rfl) (by decide) hboot (acceptsGates_plain _ _) ⟨by decide, by decide⟩
  exact ⟨_, s₁, hboot, hrun, hinstalled⟩

end HyperC
