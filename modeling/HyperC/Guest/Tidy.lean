import HyperC.Guest.Sysenter

/-!
# What a system call leaves alone

`Returned` says where a call comes back.  A caller that makes several calls also has to know what is
still there after the first one.

* `infections`     the lines of the log that the two malware functions of `kmain.c` write;
* `Leaves`         memory outside a stretch of the stack, the MSRs and the log are as they were;
* `TidyHandler`    what a handler keeps to, on a stack with room that is apart from its data;
* `dispatch_leaves`   what `dispatch_handler` therefore leaves alone;
* `syscallHandler_comes_back`, `sysenterHandler_goes_on`   the two handlers, from any state: where
                   control goes on, and what they leave alone.
-/

namespace HyperC
open Code

/-- the two ways into the kernel -/
inductive Gate where
  | syscall | sysenter
deriving DecidableEq

/-- what `syscall_mallware` and `sysenter_mallware` log -/
def mallwareText : Gate → String
  | .syscall => "MALLWARE infected syscall :)"
  | .sysenter => "MALLWARE infected sysenter :)"

def mallwareLine (gate : Gate) : LogLine := ⟨.info, mallwareText gate, []⟩

/-- the lines of the malware in the log -/
def infections (s : Machine) : List LogLine :=
  s.log.filter fun line => line = mallwareLine .syscall ∨ line = mallwareLine .sysenter

/-- from `s` to `t` nothing changes in memory but the bytes `own` and those from `lo` to `hi`, no MSR
does, and the malware logs `lines` -/
structure Leaves (own : ℕ → Prop) (lo hi : ℕ) (lines : List LogLine) (s t : Machine) : Prop where
  mem : ∀ x, ¬ own x → (x < lo ∨ hi ≤ x) → t.mem x = s.mem x
  msr : t.cpu.msr = s.cpu.msr
  minLevel : t.minLevel = s.minLevel
  logs : infections t = infections s ++ lines

/-- a handler can be called: in `s`, its first state, the stack has room and is apart from the bytes
`own`, where the handlers have their data -/
structure Callable (img : Gates) (own : ℕ → Prop) (s : Machine) : Prop where
  room : img.callDepth ≤ (s.cpu.regs .rsp).toNat
  apart : ∀ x, (s.cpu.regs .rsp).toNat ≤ x + img.callDepth → x < (s.cpu.regs .rsp).toNat + 8 → ¬ own x

/-- the run of a handler from `s` to `s'` returns, and keeps to its stack and to the bytes `own` -/
structure Tidy (img : Gates) (own : ℕ → Prop) (s s' : Machine) : Prop where
  returned : Returned s s'
  leaves : Leaves own ((s.cpu.regs .rsp).toNat - img.callDepth) (s.cpu.regs .rsp).toNat [] s s'

/-- the handler does so wherever it can be called -/
def TidyHandler (img : Gates) (own : ℕ → Prop) (h : BitVec 64) : Prop :=
  ∀ s, Callable img own s → Tidy img own s (img.handler h s)

section
variable {own : ℕ → Prop} {lo hi lo' hi' : ℕ} {lines lines' : List LogLine} {s t u : Machine}

theorem Leaves.of_eq (hmem : t.mem = s.mem) (hmsr : t.cpu.msr = s.cpu.msr)
    (hlevel : t.minLevel = s.minLevel) (hlog : infections t = infections s) : Leaves own lo hi [] s t :=
  ⟨fun x _ _ => by rw [hmem], hmsr, hlevel, by rw [hlog, List.append_nil]⟩

theorem Leaves.refl : Leaves own lo hi [] s s := Leaves.of_eq rfl rfl rfl rfl

theorem Leaves.trans (h : Leaves own lo hi lines s t) (h' : Leaves own lo hi lines' t u) :
    Leaves own lo hi (lines ++ lines') s u :=
  ⟨fun x hx hout => (h'.mem x hx hout).trans (h.mem x hx hout), h'.msr.trans h.msr,
    h'.minLevel.trans h.minLevel, by rw [h'.logs, h.logs, List.append_assoc]⟩

theorem Leaves.mono (h : Leaves own lo hi lines s t) (hlo : lo' ≤ lo) (hhi : hi ≤ hi') :
    Leaves own lo' hi' lines s t :=
  ⟨fun x hx hout => h.mem x hx (by omega), h.msr, h.minLevel, h.logs⟩

/-- a stretch of memory that is left alone -/
theorem Leaves.sameOn (h : Leaves own lo hi lines s t) {a b : ℕ}
    (hab : ∀ x, a ≤ x → x < b → ¬ own x ∧ (x < lo ∨ hi ≤ x)) : s.mem.SameOn t.mem a b :=
  fun x ha hb => h.mem x (hab x ha hb).1 (hab x ha hb).2

/-- an error of the dispatcher is none of the malware's lines -/
theorem infections_error (s : Machine) (fmt : String) (args : List LogArg) :
    infections { s with log := logged s .error fmt args } = infections s := by
  show List.filter _ (logged s .error fmt args) = List.filter _ s.log
  rw [logged]
  split
  · rfl
  · rw [List.filter_append]
    simp [mallwareLine]

theorem leaves_pushQword (own : ℕ → Prop) (v : BitVec 64) (h : 8 ≤ (s.cpu.regs .rsp).toNat) :
    Leaves own ((s.cpu.regs .rsp).toNat - 8) (s.cpu.regs .rsp).toNat [] s (pushQword v s) := by
  have hsub := toNat_sub_of_le (x := s.cpu.regs .rsp) (n := 8) h
  refine ⟨fun x _ hx => Mem.store64_outside _ _ _ _ ?_, rfl, rfl, (List.append_nil _).symm⟩
  omega

/-- the entry of a function, up to its body -/
theorem leaves_entered (own : ℕ → Prop) (img : Gates) {locals : ℕ}
    (h : 8 + locals + img.callDepth ≤ (s.cpu.regs .rsp).toNat) :
    Leaves own ((s.cpu.regs .rsp).toNat - (8 + locals + img.callDepth)) (s.cpu.regs .rsp).toNat []
      s (img.clobber locals (prologue locals s)) := by
  have he := entered (s := s) img h
  exact ⟨fun x _ hx => he.mem x (x + 1) (by omega) x le_rfl (by omega), he.msr, rfl,
    (List.append_nil _).symm⟩

end

/-! ## the dispatcher -/

section
variable {img : Gates} {own : ℕ → Prop} {s : Machine} {g g' : Guest} {n : BitVec 32}

/-- a call that comes back -/
theorem callFunction_inv {next : BitVec 64} {f : Code Guest Unit}
    (h : (callFunction next f).run g = .ret () g') :
    f.run { g with machine := pushQword next g.machine } = .ret () g' ∧
      g'.machine.cpu.regs .rip = next := by
  unfold callFunction at h
  rw [bind_of_ret (run_step _)] at h
  obtain ⟨_, g₁, hf, h⟩ := bind_eq_ret.mp h
  rw [bind_of_ret (run_getReg .rip)] at h
  split_ifs at h with hrip
  · cases h
    exact ⟨hf, hrip⟩
  · cases h

/-- the body of `dispatch_handler` logs an error, or calls the handler of the number -/
theorem dispatchBody_leaves (hroom : 8 + img.callDepth ≤ (g.machine.cpu.regs .rsp).toNat)
    (hown : ∀ x, (g.machine.cpu.regs .rsp).toNat ≤ x + 8 + img.callDepth →
      x < (g.machine.cpu.regs .rsp).toNat → ¬ own x)
    (htidy : ∀ h ∈ dispatched g.machine.mem n, TidyHandler img own h)
    (hrun : (img.dispatchBody n).run g = .ret () g') :
    Leaves own ((g.machine.cpu.regs .rsp).toNat - (8 + img.callDepth)) (g.machine.cpu.regs .rsp).toNat
      [] g.machine g'.machine := by
  unfold Gates.dispatchBody at hrun
  by_cases hbound : n > BitVec.ofNat 32 ssdtSize
  · rw [if_pos hbound, run_onMachine (run_logError _ _ _)] at hrun
    cases hrun
    exact Leaves.of_eq rfl rfl rfl (infections_error _ _ _)
  rw [if_neg hbound, bind_of_ret (run_readEntry n)] at hrun
  by_cases hnull : tableEntry g.machine.mem n = 0#64
  · rw [if_pos hnull, run_onMachine (run_logError _ _ _)] at hrun
    cases hrun
    exact Leaves.of_eq rfl rfl rfl (infections_error _ _ _)
  have hd : dispatched g.machine.mem n = [tableEntry g.machine.mem n] := by
    rw [dispatched, if_neg hbound, if_neg hnull]
  have h8 : 8 ≤ (g.machine.cpu.regs .rsp).toNat := by omega
  have hsub := toNat_sub_of_le h8
  have hcallable : Callable img own (pushQword img.behindHandler g.machine) := by
    refine ⟨?_, fun x h1 h2 => ?_⟩
    · rw [pushQword_rsp]
      omega
    · rw [pushQword_rsp] at h1 h2
      exact hown x (by omega) (by omega)
  have hhandler := htidy _ (by rw [hd]; exact List.mem_singleton.mpr rfl) _ hcallable
  rw [if_neg hnull, bind_of_ret (run_readEntry n)] at hrun
  obtain ⟨hcall, -⟩ := callFunction_inv hrun
  cases hcall
  have hleaves := hhandler.leaves
  rw [pushQword_rsp] at hleaves
  exact ((leaves_pushQword own _ h8).mono (by omega) le_rfl).trans (hleaves.mono (by omega) (by omega))

/-- **what `dispatch_handler` leaves alone** -/
theorem dispatch_leaves {rs : List ℕ} {is : List (BitVec 64)}
    (hroom : 16 + img.dispatchLocals + img.callDepth ≤ (s.cpu.regs .rsp).toNat)
    (htable : ssdtAddress + 8 * ssdtSize + 16 + img.dispatchLocals + img.callDepth
      ≤ (s.cpu.regs .rsp).toNat ∨ (s.cpu.regs .rsp).toNat ≤ ssdtAddress)
    (hown : ∀ x, (s.cpu.regs .rsp).toNat ≤ x + 16 + img.dispatchLocals + img.callDepth →
      x < (s.cpu.regs .rsp).toNat + 8 → ¬ own x)
    (htidy : ∀ h ∈ dispatched s.mem (edi s), TidyHandler img own h)
    (hrun : img.dispatchHandler.run ⟨s, rs, is⟩ = .ret () g') :
    Leaves own ((s.cpu.regs .rsp).toNat - (16 + img.dispatchLocals + img.callDepth))
      (s.cpu.regs .rsp).toNat [] s g'.machine := by
  have hroom' : 8 + img.dispatchLocals + img.callDepth ≤ (s.cpu.regs .rsp).toNat := by omega
  have he : Entered img img.dispatchLocals s
      (img.clobber img.dispatchLocals (prologue img.dispatchLocals s)) := entered img hroom'
  have hentry := leaves_entered own img hroom'
  unfold Gates.dispatchHandler at hrun
  rw [bind_of_ret (run_onMachine (run_gets _ _)), bind_of_ret (run_step _),
    bind_of_ret (run_step _)] at hrun
  generalize img.clobber img.dispatchLocals (prologue img.dispatchLocals s) = t at he hentry hrun
  have hd : dispatched t.mem (edi s) = dispatched s.mem (edi s) :=
    dispatched_congr (he.mem _ _ (by omega))
  have hrsp := he.rsp
  obtain ⟨_, g₁, hbody, hepilogue⟩ := bind_eq_ret.mp hrun
  rw [run_step] at hepilogue
  cases hepilogue
  have hbody' : (img.dispatchBody (edi s)).run ⟨t, rs, is⟩ = .ret () g₁ := hbody
  have hleaves : Leaves own ((t.cpu.regs .rsp).toNat - (8 + img.callDepth)) (t.cpu.regs .rsp).toNat []
      t g₁.machine := dispatchBody_leaves (g := ⟨t, rs, is⟩)
    (show 8 + img.callDepth ≤ (t.cpu.regs .rsp).toNat by omega)
    (fun x (h1 : (t.cpu.regs .rsp).toNat ≤ _) (h2 : x < (t.cpu.regs .rsp).toNat) =>
      hown x (by omega) (by omega)) (by rw [hd]; exact htidy) hbody'
  have hback : Leaves own ((s.cpu.regs .rsp).toNat - (16 + img.dispatchLocals + img.callDepth))
      (s.cpu.regs .rsp).toNat [] g₁.machine (epilogue g₁.machine) := Leaves.of_eq rfl rfl rfl rfl
  exact ((hentry.mono (by omega) le_rfl).trans (hleaves.mono (by omega) (by omega))).trans hback

/-- `dispatch_handler` returns, and leaves the rest alone -/
theorem dispatch_comes_back (rs : List ℕ) (is : List (BitVec 64))
    (hroom : 16 + img.dispatchLocals + img.callDepth ≤ (s.cpu.regs .rsp).toNat)
    (hend : (s.cpu.regs .rsp).toNat + 8 ≤ 2 ^ 64)
    (htable : ssdtAddress + 8 * ssdtSize + 16 + img.dispatchLocals + img.callDepth
      ≤ (s.cpu.regs .rsp).toNat ∨ (s.cpu.regs .rsp).toNat ≤ ssdtAddress)
    (hown : ∀ x, (s.cpu.regs .rsp).toNat ≤ x + 16 + img.dispatchLocals + img.callDepth →
      x < (s.cpu.regs .rsp).toNat + 8 → ¬ own x)
    (htidy : ∀ h ∈ dispatched s.mem (edi s), TidyHandler img own h) :
    ∃ g', img.dispatchHandler.run ⟨s, rs, is⟩ = .ret () g' ∧
      g'.invoked = is ++ dispatched s.mem (edi s) ∧ Returned s g'.machine ∧
      g'.machine.mem.load64 ((s.cpu.regs .rsp).toNat - 8) = s.cpu.regs .rbp ∧
      Leaves own ((s.cpu.regs .rsp).toNat - (16 + img.dispatchLocals + img.callDepth))
        (s.cpu.regs .rsp).toNat [] s g'.machine := by
  -- the frame of the dispatcher is apart from the data of the handlers, so they leave it alone
  obtain ⟨g', hrun, hinv, hkeep⟩ := @dispatch_returns img
    (fun x => ¬ own x ∧ (s.cpu.regs .rsp).toNat ≤ x + 16 + img.dispatchLocals) s rs is hroom hend htable
    (fun x h1 h2 => ⟨hown x (by omega) h2, by omega⟩) fun h hh t ht => by
      have hsp := ht.rsp
      have hrun := htidy h hh t
        ⟨by omega, fun x h1 h2 => hown x (by omega) (by omega)⟩
      exact ⟨hrun.returned, fun x hx => hrun.leaves.mem x hx.1 (by omega)⟩
  exact ⟨g', hrun, hinv, hkeep.returned, hkeep.savedRbp, dispatch_leaves hroom htable hown htidy hrun⟩

end

/-! ## the two handlers -/

/-- from `s`, control goes on at `rip` in `t`, on the stack `rsp` -/
structure GoesOn (rip rsp : BitVec 64) (s t : Machine) : Prop where
  rip : t.cpu.regs .rip = rip
  rsp : t.cpu.regs .rsp = rsp
  saved : ∀ r, calleeSaved r → r ≠ .rsp → t.cpu.regs r = s.cpu.regs r

section
variable {img : Gates} {own : ℕ → Prop} {s : Machine}

/-- `__syscall_handler` when it enters `dispatch_handler` -/
def syscallFrame (img : Gates) (s : Machine) : Machine :=
  pushQword img.behindDispatch (pushQword (s.cpu.regs .r11) (pushQword (s.cpu.regs .rcx) s))

theorem syscallFrame_rsp :
    (syscallFrame img s).cpu.regs .rsp = s.cpu.regs .rsp - 8#64 - 8#64 - 8#64 := by
  rw [syscallFrame, pushQword_rsp, pushQword_rsp, pushQword_rsp]

theorem syscallFrame_reg {r : Reg} (hr : r ≠ .rsp) :
    (syscallFrame img s).cpu.regs r = s.cpu.regs r := by
  rw [syscallFrame, pushQword_reg _ hr, pushQword_reg _ hr, pushQword_reg _ hr]

/-- the pushes write nowhere else; the second and the third leave the first -/
theorem syscallFrame_leaves (own : ℕ → Prop) (img : Gates) (h : 24 ≤ (s.cpu.regs .rsp).toNat) :
    Leaves own ((s.cpu.regs .rsp).toNat - 24) (s.cpu.regs .rsp).toNat [] s (syscallFrame img s) ∧
    Leaves own ((s.cpu.regs .rsp).toNat - 24) ((s.cpu.regs .rsp).toNat - 8) []
      (pushQword (s.cpu.regs .rcx) s) (syscallFrame img s) := by
  have h1 := toNat_sub_of_le (x := s.cpu.regs .rsp) (n := 8) (by omega)
  have h2 := toNat_sub_of_le (x := s.cpu.regs .rsp - 8#64) (n := 8) (by omega)
  have hl₁ := leaves_pushQword (s := s) own (s.cpu.regs .rcx) (by omega)
  have hl₂ := leaves_pushQword (s := pushQword (s.cpu.regs .rcx) s) own (s.cpu.regs .r11)
    (by rw [pushQword_rsp]; omega)
  have hl₃ := leaves_pushQword
    (s := pushQword (s.cpu.regs .r11) (pushQword (s.cpu.regs .rcx) s)) own img.behindDispatch
    (by rw [pushQword_rsp, pushQword_rsp]; omega)
  rw [pushQword_rsp] at hl₂
  rw [pushQword_rsp, pushQword_rsp] at hl₃
  have htwo : Leaves own ((s.cpu.regs .rsp).toNat - 24) ((s.cpu.regs .rsp).toNat - 8) []
      (pushQword (s.cpu.regs .rcx) s) (syscallFrame img s) :=
    (hl₂.mono (by omega) (by omega)).trans (hl₃.mono (by omega) (by omega))
  exact ⟨(hl₁.mono (by omega) le_rfl).trans (htwo.mono le_rfl (by omega)), htwo⟩

theorem syscallFrame_rcx (h : 24 ≤ (s.cpu.regs .rsp).toNat) :
    (syscallFrame img s).mem.load64 (s.cpu.regs .rsp - 8#64).toNat = s.cpu.regs .rcx := by
  have h1 := toNat_sub_of_le (x := s.cpu.regs .rsp) (n := 8) (by omega)
  have hsame : (pushQword (s.cpu.regs .rcx) s).mem.SameOn (syscallFrame img s).mem
      (s.cpu.regs .rsp - 8#64).toNat ((s.cpu.regs .rsp - 8#64).toNat + 8) :=
    (syscallFrame_leaves (fun _ => False) img h).2.sameOn fun x ha _ => ⟨id, by omega⟩
  have htop := pushQword_top (s := s) (s.cpu.regs .rcx)
  rw [pushQword_rsp] at htop
  rw [hsame.load64 le_rfl le_rfl, htop]

/-- **`__syscall_handler` goes on where `rcx` points**, on the stack it was entered on -/
theorem syscallHandler_comes_back (rs : List ℕ) (is : List (BitVec 64))
    (hroom : 40 + img.dispatchLocals + img.callDepth ≤ (s.cpu.regs .rsp).toNat)
    (hend : (s.cpu.regs .rsp).toNat + 8 ≤ 2 ^ 64)
    (htable : ssdtAddress + 8 * ssdtSize + 40 + img.dispatchLocals + img.callDepth
      ≤ (s.cpu.regs .rsp).toNat ∨ (s.cpu.regs .rsp).toNat ≤ ssdtAddress)
    (hown : ∀ x, (s.cpu.regs .rsp).toNat ≤ x + 40 + img.dispatchLocals + img.callDepth →
      x < (s.cpu.regs .rsp).toNat → ¬ own x)
    (htidy : ∀ h ∈ dispatched s.mem (edi s), TidyHandler img own h) :
    ∃ g, img.syscallHandler.run ⟨s, rs, is⟩ = .ret () g ∧
      g.invoked = is ++ dispatched s.mem (edi s) ∧
      GoesOn (s.cpu.regs .rcx) (s.cpu.regs .rsp) s g.machine ∧
      Leaves own ((s.cpu.regs .rsp).toNat - (40 + img.dispatchLocals + img.callDepth))
        (s.cpu.regs .rsp).toNat [] s g.machine := by
  have h1 := toNat_sub_of_le (x := s.cpu.regs .rsp) (n := 8) (by omega)
  have h2 := toNat_sub_of_le (x := s.cpu.regs .rsp - 8#64) (n := 8) (by omega)
  have h3 := toNat_sub_of_le (x := s.cpu.regs .rsp - 8#64 - 8#64) (n := 8) (by omega)
  have hsp : (syscallFrame img s).cpu.regs .rsp = s.cpu.regs .rsp - 8#64 - 8#64 - 8#64 :=
    syscallFrame_rsp
  have hedi : edi (syscallFrame img s) = edi s := by rw [edi, edi, syscallFrame_reg (by decide)]
  have hd : dispatched (syscallFrame img s).mem (edi s) = dispatched s.mem (edi s) :=
    dispatched_congr ((syscallFrame_leaves (fun _ => False) img (by omega)).1.sameOn
      fun x _ _ => ⟨id, by omega⟩)
  obtain ⟨g, hrun, hinv, hreturned, -, hleaves⟩ := @dispatch_comes_back img own
    (syscallFrame img s) rs is (by rw [hsp]; omega) (by rw [hsp]; omega) (by rw [hsp]; omega)
    (fun x h1 h2 => hown x (by rw [hsp] at h1; omega) (by rw [hsp] at h2; omega))
    (by rw [hedi, hd]; exact htidy)
  have hcall : (callFunction img.behindDispatch img.dispatchHandler).run
      ⟨pushQword (s.cpu.regs .r11) (pushQword (s.cpu.regs .rcx) s), rs, is⟩ = .ret () g :=
    run_callFunction hrun hreturned
  rw [hsp] at hleaves
  -- `pop rcx` finds what `push rcx` left
  have hrsp : g.machine.cpu.regs .rsp = s.cpu.regs .rsp - 8#64 - 8#64 := by
    rw [hreturned.rsp, hsp, BitVec.sub_add_cancel]
  have hkept : g.machine.mem.load64 (s.cpu.regs .rsp - 8#64).toNat
      = (syscallFrame img s).mem.load64 (s.cpu.regs .rsp - 8#64).toNat :=
    (hleaves.sameOn fun x h1 h2 => ⟨hown x (by omega) (by omega), by omega⟩).load64 le_rfl le_rfl
  have hcx : (popQword .rcx (popf g.machine)).cpu.regs .rcx = s.cpu.regs .rcx := by
    rw [popf_pop_rcx, hrsp, BitVec.sub_add_cancel, hkept, syscallFrame_rcx (by omega)]
  have hpopped : (popQword .rcx (popf g.machine)).cpu.regs .rsp = s.cpu.regs .rsp := by
    rw [popf_pop_rsp, hrsp, BitVec.sub_add_cancel, BitVec.sub_add_cancel]
  refine ⟨{ g with machine := setRip (s.cpu.regs .rcx) (popQword .rcx (popf g.machine)) }, ?_, ?_,
    ⟨?_, ?_, fun r hr hne => ?_⟩, ?_⟩
  · unfold Gates.syscallHandler
    rw [bind_of_ret (run_step _), bind_of_ret (run_step _)]
    simp only [pushQword_reg _ (show Reg.r11 ≠ .rsp by decide)]
    rw [bind_of_ret hcall, bind_of_ret (run_step _), bind_of_ret (run_step _), run_step]
    simp only [hcx]
  · rw [← hd, ← hedi]
    exact hinv
  · simp [setRip]
  · rw [← hpopped]
    simp [setRip]
  · have hrip : r ≠ .rip := ne_of_calleeSaved hr rfl
    have hrcx : r ≠ .rcx := ne_of_calleeSaved hr rfl
    have hreg : (popQword .rcx (popf g.machine)).cpu.regs r = s.cpu.regs r := by
      rw [popf_pop_reg _ hne hrcx, hreturned.saved r hr hne, syscallFrame_reg hne]
    rw [← hreg]
    simp [setRip, hrip]
  · have hback : Leaves own ((s.cpu.regs .rsp).toNat - (40 + img.dispatchLocals + img.callDepth))
        (s.cpu.regs .rsp).toNat [] g.machine
        (setRip (s.cpu.regs .rcx) (popQword .rcx (popf g.machine))) := Leaves.of_eq rfl rfl rfl rfl
    exact (((syscallFrame_leaves own img (by omega)).1.mono (by omega) le_rfl).trans
      (hleaves.mono (by omega) (by omega))).trans hback

/-- a call with an argument writes its return address only -/
theorem leaves_callWith (own : ℕ → Prop) (next v : BitVec 64) (h : 8 ≤ (s.cpu.regs .rsp).toNat) :
    Leaves own ((s.cpu.regs .rsp).toNat - 8) (s.cpu.regs .rsp).toNat [] s (callWith next v s) :=
  ⟨fun x _ hx => (callWith_sameOn (a := x) (b := x + 1) h (by omega)) x le_rfl (Nat.lt_succ_self x),
    rfl, rfl, (List.append_nil _).symm⟩

/-- what a function that makes a call in `s` finds behind it in `t`, with `d` bytes of stack used -/
structure Behind (own : ℕ → Prop) (d : ℕ) (lines : List LogLine) (s t : Machine) : Prop where
  rsp : t.cpu.regs .rsp = s.cpu.regs .rsp
  saved : ∀ r, calleeSaved r → r ≠ .rsp → t.cpu.regs r = s.cpu.regs r
  leaves : Leaves own ((s.cpu.regs .rsp).toNat - d) (s.cpu.regs .rsp).toNat lines s t

/-- a call with an argument, of a function that returns -/
theorem callFunction_returns {f : Code Guest Unit} {next v : BitVec 64} {d : ℕ} {lines : List LogLine}
    {rs : List ℕ} {is : List (BitVec 64)} {g : Guest} (h8 : 8 ≤ (s.cpu.regs .rsp).toNat)
    (hrun : f.run ⟨callWith next v s, rs, is⟩ = .ret () g)
    (hret : Returned (callWith next v s) g.machine)
    (hleaves : Leaves own (((callWith next v s).cpu.regs .rsp).toNat - d)
      ((callWith next v s).cpu.regs .rsp).toNat lines (callWith next v s) g.machine) :
    (callFunction next f).run ⟨withRegs s (Function.update s.cpu.regs .rdi v), rs, is⟩ = .ret () g ∧
      Behind own (d + 8) lines s g.machine := by
  have hsub := toNat_sub_of_le (x := s.cpu.regs .rsp) (n := 8) h8
  refine ⟨run_callFunction hrun hret, ?_, fun r hr hne => ?_, ?_⟩
  · rw [hret.rsp, callWith_rsp, BitVec.sub_add_cancel]
  · rw [hret.saved r hr hne, callWith_reg hne (ne_of_calleeSaved hr rfl)]
  · rw [callWith_rsp] at hleaves
    exact ((leaves_callWith own next v h8).mono (by omega) le_rfl).trans
      (hleaves.mono (by omega) (by omega))

/-- what `__sysenter_handler`, entered in `s`, leaves in `t` when it calls the address that it finds:
its frame is still there, and the address is the one that `sysenter_rsp` points to, unless that points
to where `dispatch_handler` has saved the frame pointer -/
structure SysenterGoesOn (img : Gates) (own : ℕ → Prop) (s t : Machine) : Prop where
  rsp : (t.cpu.regs .rsp).toNat + img.sysenterLocals + 16 = (s.cpu.regs .rsp).toNat
  rbp : (t.cpu.regs .rbp).toNat + 8 = (s.cpu.regs .rsp).toNat
  saved : ∀ r, calleeSaved r → r ≠ .rsp → r ≠ .rbp → t.cpu.regs r = s.cpu.regs r
  rip : ∀ p, s.mem.load64 img.sysenterRsp = p →
    (∀ x, p.toNat ≤ x → x < p.toNat + 8 → ¬ own x ∧
      (x + 32 + img.sysenterLocals + img.dispatchLocals + img.callDepth < (s.cpu.regs .rsp).toNat ∨
        (s.cpu.regs .rsp).toNat ≤ x)) → t.cpu.regs .rip = s.mem.load64 p.toNat
  ripFrame : (s.mem.load64 img.sysenterRsp).toNat + img.sysenterLocals + 24 = (s.cpu.regs .rsp).toNat →
    (t.cpu.regs .rip).toNat + 8 = (s.cpu.regs .rsp).toNat

/-- **`__sysenter_handler` goes on where `sysenter_rsp` points**, with its own frame -/
theorem sysenterHandler_goes_on (rs : List ℕ) (is : List (BitVec 64))
    (hroom : 32 + img.sysenterLocals + img.dispatchLocals + img.callDepth ≤ (s.cpu.regs .rsp).toNat)
    (htable : ssdtAddress + 8 * ssdtSize + 32 + img.sysenterLocals + img.dispatchLocals + img.callDepth
      ≤ (s.cpu.regs .rsp).toNat ∨ (s.cpu.regs .rsp).toNat ≤ ssdtAddress)
    (hcell : ∀ x, img.sysenterRsp ≤ x → x < img.sysenterRsp + 8 → ¬ own x ∧
      (x + 32 + img.sysenterLocals + img.dispatchLocals + img.callDepth < (s.cpu.regs .rsp).toNat ∨
        (s.cpu.regs .rsp).toNat ≤ x))
    (hown : ∀ x, (s.cpu.regs .rsp).toNat ≤ x + 32 + img.sysenterLocals + img.dispatchLocals +
      img.callDepth → x < (s.cpu.regs .rsp).toNat → ¬ own x)
    (htidy : ∀ h ∈ dispatched s.mem (edi s), TidyHandler img own h) :
    ∃ g, img.sysenterHandler.run ⟨s, rs, is⟩ = .ret () g ∧
      g.invoked = is ++ dispatched s.mem (edi s) ∧ SysenterGoesOn img own s g.machine ∧
      Leaves own ((s.cpu.regs .rsp).toNat - (32 + img.sysenterLocals + img.dispatchLocals +
        img.callDepth)) (s.cpu.regs .rsp).toNat [] s g.machine := by
  have hroom' : 8 + img.sysenterLocals + img.callDepth ≤ (s.cpu.regs .rsp).toNat := by omega
  have he : Entered img img.sysenterLocals s
      (img.clobber img.sysenterLocals (prologue img.sysenterLocals s)) := entered img hroom'
  have hentry := leaves_entered own img hroom'
  unfold Gates.sysenterHandler
  rw [bind_of_ret (run_onMachine (run_gets _ _)), bind_of_ret (run_step _), bind_of_ret (run_step _)]
  generalize img.clobber img.sysenterLocals (prologue img.sysenterLocals s) = t at he hentry ⊢
  have hrsp := he.rsp
  have hrbp := he.rbp
  have hpush := toNat_sub_of_le (x := t.cpu.regs .rsp) (n := 8) (by omega)
  have hsp : (sysenterStack img (edi s) t).cpu.regs .rsp = t.cpu.regs .rsp - 8#64 :=
    sysenterStack_rsp (edi s)
  have hd : dispatched (sysenterStack img (edi s) t).mem (edi s) = dispatched s.mem (edi s) :=
    dispatched_congr ((he.mem _ _ (by omega)).trans (sysenterStack_sameOn _ (by omega) (by omega)))
  obtain ⟨g, hrun, hinv, hreturned, hsaved, hleaves⟩ := @dispatch_comes_back img own
    (sysenterStack img (edi s) t) rs is (by rw [hsp]; omega) (by rw [hsp]; omega) (by rw [hsp]; omega)
    (fun x h1 h2 => hown x (by rw [hsp] at h1; omega) (by rw [hsp] at h2; omega))
    (by rw [sysenterStack_edi, hd]; exact htidy)
  obtain ⟨hcall, hbehind⟩ := callFunction_returns (by omega) hrun hreturned hleaves
  rw [sysenterStack_edi, hd] at hinv
  have hback := hbehind.rsp
  have hall : Leaves own ((s.cpu.regs .rsp).toNat - (32 + img.sysenterLocals + img.dispatchLocals +
      img.callDepth)) (s.cpu.regs .rsp).toNat [] s g.machine :=
    (hentry.mono (by omega) le_rfl).trans (hbehind.leaves.mono (by omega) (by omega))
  -- the cell is still what the gate has stored there
  have hp : g.machine.mem.load64 img.sysenterRsp = s.mem.load64 img.sysenterRsp :=
    (hall.sameOn fun x ha hb => ⟨(hcell x ha hb).1, by have := (hcell x ha hb).2; omega⟩).load64 le_rfl
      le_rfl
  have hrip : (onMachine (loadQword img.sysenterRsp)).run g = .ret (s.mem.load64 img.sysenterRsp) g := by
    rw [← hp]
    exact run_onMachine (run_loadQword _ _)
  simp only
  rw [bind_of_ret (run_setArgument _ _), bind_of_ret hcall, bind_of_ret hrip,
    bind_of_ret (run_onMachine (run_loadQword _ _)), bind_of_ret (run_step _)]
  have hgoes : ∀ r, r ≠ .rip → (setRip (g.machine.mem.load64 (s.mem.load64 img.sysenterRsp).toNat)
      (pushQword img.behindRet g.machine)).cpu.regs r
      = (pushQword img.behindRet g.machine).cpu.regs r := fun r hr => by simp [setRip, hr]
  refine ⟨_, run_step _, hinv, ⟨?_, ?_, fun r hr h1 h2 => ?_, fun p hload hout => ?_, fun hframe => ?_⟩, ?_⟩
  · rw [hgoes _ (by decide), pushQword_rsp, hback]
    omega
  · rw [hgoes _ (by decide), pushQword_reg _ (by decide), hbehind.saved _ rfl (by decide)]
    exact hrbp
  · have hne : r ≠ .rip := ne_of_calleeSaved hr rfl
    rw [hgoes _ hne, pushQword_reg _ h1, hbehind.saved r hr h1, he.saved r hr h1 h2]
  · have hword : g.machine.mem.load64 p.toNat = s.mem.load64 p.toNat :=
      (hall.sameOn fun x ha hb => ⟨(hout x ha hb).1, by have := (hout x ha hb).2; omega⟩).load64 le_rfl
        le_rfl
    rw [hload, ← hword]
    simp [setRip]
  · -- the return address lies where `dispatch_handler` has saved the frame pointer
    have hslot : (t.cpu.regs .rsp - 8#64).toNat - 8 = (s.mem.load64 img.sysenterRsp).toNat := by omega
    rw [hsp, hslot, sysenterStack_reg _ (by decide) (by decide)] at hsaved
    rw [hsaved]
    simpa [setRip] using hrbp
  · have hlast := leaves_pushQword (s := g.machine) own img.behindRet (by rw [hback]; omega)
    rw [hback] at hlast
    have hjump : Leaves own ((s.cpu.regs .rsp).toNat - (32 + img.sysenterLocals + img.dispatchLocals +
        img.callDepth)) (s.cpu.regs .rsp).toNat [] (pushQword img.behindRet g.machine)
        (setRip (g.machine.mem.load64 (s.mem.load64 img.sysenterRsp).toNat)
          (pushQword img.behindRet g.machine)) := Leaves.of_eq rfl rfl rfl rfl
    exact (hall.trans (hlast.mono (by omega) (by omega))).trans hjump

end

end HyperC
