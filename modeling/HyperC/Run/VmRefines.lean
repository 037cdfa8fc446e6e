import HyperC.Run.Protect
import HyperC.Run.Vm

/-!
# The machine runs the virtual machine

* `hosts_exit`        what an exit leaves of the virtual machine: all but its registers, and at a
                      `VMCALL` the accesses it swallows;
* `Follows`, `follows_load` .. `follows_compute`   one instruction each;
* `vm_simulates`      the machine under the hypervisor simulates the virtual machine.
-/

namespace HyperC
open Code Msr Ept Walk

/-! ## exits and the bitmaps -/

section
variable {img : Image} {c : Compiled} {p : ℕ} {e : ExitInfo} {s s' : Machine}

theorem consulted_congr {m m' : Mem} {a : ℕ} (d : MsrAccess) (msr : BitVec 32)
    (h : ∀ x, a ≤ x → x < a + 4096 → m' x = m x) : consulted m' a d msr = consulted m a d msr := by
  have hlt := bitIndex_lt d msr
  rw [consulted_eq, consulted_eq, Bitmap.test, Bitmap.test, h _ (by omega) (by omega)]

theorem consulted_advanceRip (hp : CpuDataAt p) (d : MsrAccess) (msr : BitVec 32) :
    consulted (advanceRip (CpuData.guestCpuState p) e.len (exitMem p e s)) (CpuData.msrBitmaps p) d msr
      = consulted s.mem (CpuData.msrBitmaps p) d msr := by
  refine consulted_congr d msr fun x hlo hhi => ?_
  obtain ⟨-, himage⟩ := bitmaps_apart hp hlo hhi
  rw [advanceRip_outside _ _ (Or.inl himage), exitMem_outside x (Or.inl himage)]

/-- **only a `VMCALL` touches the bitmaps** -/
theorem exit_consulted (hp : CpuDataAt p) (h : HostFs p s) (hx : Exit img c e s s')
    (hr : e.reason ≠ exitReasonVmcall) (d : MsrAccess) (msr : BitVec 32) :
    consulted s'.mem (CpuData.msrBitmaps p) d msr = consulted s.mem (CpuData.msrBitmaps p) d msr := by
  obtain ⟨m, hm, hres⟩ := exit_inv hp h hx
  rw [consulted_congr d msr fun x hlo hhi => hres.mem x (bitmaps_apart hp hlo hhi).1]
  rcases handled_cases _ hm with ⟨-, rfl⟩ | ⟨-, -, rfl⟩ | ⟨-, -, rfl⟩ | ⟨hr', -, -⟩
  · exact consulted_advanceRip hp d msr
  · rw [consulted_congr d msr fun x hlo hhi =>
      hookRegs_outside e.gpa x (Or.inl (bitmaps_apart hp hlo hhi).2)]
    exact consulted_advanceRip hp d msr
  · exact consulted_advanceRip hp d msr
  · exact absurd hr' hr

/-- **and it adds the writes of the two MSRs, no other access** -/
theorem vmcall_consulted (hp : CpuDataAt p) (h : HostReady p s) (hx : Exit img c e s s')
    (hr : e.reason = exitReasonVmcall) {d : MsrAccess} {msr : BitVec 32} (hc : Covered msr) :
    consulted s'.mem (CpuData.msrBitmaps p) d msr = (consulted s.mem (CpuData.msrBitmaps p) d msr ||
      decide (d = .write ∧ (msr = msrIa32SysenterEip ∨ msr = msrIa32Lstar))) := by
  obtain ⟨m, hm, hres⟩ := exit_inv hp h.fsBase hx
  have hm' := handled_vmcall _ hr hm
  rw [protect_eq hp (backPointer_advanceRip (backPointer_exitMem h.backPointer) _)] at hm'
  have hold := consulted_advanceRip (e := e) (s := s) hp d msr
  rw [consulted_eq] at hold
  rw [consulted_congr d msr fun x hlo hhi => hres.mem x (bitmaps_apart hp hlo hhi).1, hm', consulted_eq,
    Bool.eq_iff_iff, Bitmap.test_insert, Bitmap.test_insert, hold, bitIndex_inj hc (by decide),
    bitIndex_inj hc (by decide), Bool.or_eq_true, decide_eq_true_eq, and_or_left]
  constructor
  · rintro (hl | he | ho)
    · exact Or.inr (Or.inr hl)
    · exact Or.inr (Or.inl he)
    · exact Or.inl ho
  · rintro (ho | he | hl)
    · exact Or.inr (Or.inr ho)
    · exact Or.inr (Or.inl he)
    · exact Or.inl hl

end

section
variable {env : GuestEnv} {s s' : Machine} {v v' : Vm} {e : ExitInfo}

theorem Hosts.ready (h : Hosts env s v) : HostReady cpuDataAddress s := ⟨h.view.fsBase, h.backPointer⟩

theorem Hosts.load64 (h : Hosts env s v) {a : ℕ} (ha : ∀ k < 8, ¬ Owned env.img (a + k)) :
    s.mem.load64 a = v.mem.load64 a :=
  Mem.load64_congr fun k hk => h.mem _ (ha k hk)

/-! ## exits -/

theorem exit_tables (h : Hosts env s v) (hx : Exit env.img env.compiled e s s') :
    GuestTables env.caps hookedSlots s' := by
  have e1 : CpuData.msrBitmaps cpuDataAddress = 0x1808000 := rfl
  have e2 : CpuData.guestCpuState cpuDataAddress = 0x1809000 := rfl
  refine guestTables_congr h.tables ?_ fun x hx' => ?_
  · exact exit_field cpuDataAt_fixed h.view.fsBase hx
      (by simp only [exitFields, List.map_cons, List.map_nil]; decide)
  · obtain ⟨hlo, hhi⟩ := tables_range hx'
    refine exit_outside cpuDataAt_fixed h.ready hx x ?_ (Or.inl ?_) (Or.inl ?_)
    · simp only [stackTop]
      omega
    · omega
    · omega

theorem exit_not_owned (h : Hosts env s v) (hx : Exit env.img env.compiled e s s') {x : ℕ}
    (ho : ¬ Owned env.img x) : s'.mem x = v.mem x := by
  have e1 : CpuData.msrBitmaps cpuDataAddress = 0x1808000 := rfl
  have e2 : CpuData.guestCpuState cpuDataAddress = 0x1809000 := rfl
  obtain ⟨h1, h2, -⟩ := not_owned_iff.mp ho
  rw [exit_outside cpuDataAt_fixed h.ready hx x (by simpa only [stackTop] using h1) (by omega) (by omega)]
  exact h.mem x ho

/-- **an exit keeps the virtual machine**, up to its registers, what it swallows and `IA32_DEBUGCTL` -/
theorem hosts_exit (h : Hosts env s v) (hx : Exit env.img env.compiled e s s')
    (hregs : s'.cpu.regs = v'.regs) (hdebugctl : v'.debugctl = v.debugctl)
    (hmsr : v'.msr = v.exited.msr) (hmem : v'.mem = v.mem)
    (hw : ∀ d msr, Covered msr →
      consulted s'.mem (CpuData.msrBitmaps cpuDataAddress) d msr = v'.watched d msr) :
    Hosts env s' v' where
  view := hostView_exit cpuDataAt_fixed h.view hx
  backPointer := (hostReady_exit cpuDataAt_fixed h.ready hx).backPointer
  hlt := by
    rw [HltExits, exit_field cpuDataAt_fixed h.view.fsBase hx
      (by simp only [exitFields, List.map_cons, List.map_nil]; decide)]
    exact h.hlt
  tables := exit_tables h hx
  debugctl := by rw [exit_exitDebugctl cpuDataAt_fixed h.view.fsBase hx, h.debugctl, hdebugctl]
  regs := hregs
  msr := by
    rw [exit_msr cpuDataAt_fixed h.view.fsBase hx, h.msr, h.debugctl, hmsr]
    rfl
  watched := hw
  mem := fun x hx' => by rw [exit_not_owned h hx hx', hmem]

/-- an exit at an instruction that is stepped over -/
theorem hosts_skip (h : Hosts env s v) (hx : Exit env.img env.compiled e s s')
    (hm : e.reason ≠ exitReasonEptMisconfig) (hr : e.reason ≠ exitReasonVmcall) :
    Hosts env s' (v.exited.skip e.len) := by
  have ht := transparent_exit cpuDataAt_fixed h.ready hx
  refine hosts_exit h hx (funext fun r => ?_) rfl rfl rfl fun d msr hc => ?_
  · by_cases hrip : r = .rip
    · rw [hrip, ht.rip, h.regs]
      exact (Function.update_self Reg.rip _ v.regs).symm
    · rw [ht.kept (fun ha => hm ha.1) r hrip, h.regs]
      exact (Function.update_of_ne hrip _ v.regs).symm
  · rw [exit_consulted cpuDataAt_fixed h.view.fsBase hx hr]
    exact h.watched d msr hc

/-- an exit that is not served stops the machine -/
theorem serveExit_halts (h : HostFs cpuDataAddress s) (hs : ¬ Served e s.cpu.regs) :
    ∃ t, (serveExit env e).run s = .halt t := by
  have hnone : handled env.img (CpuData.guestCpuState cpuDataAddress) e (exitMem cpuDataAddress e s)
      = none := Option.eq_none_iff_forall_ne_some.mpr fun m hm =>
        hs (handled_exitMem_iff.mp ⟨m, hm⟩)
  rw [← exitInfo_vmExit e s] at hnone
  obtain ⟨t, ht⟩ := wrapper_halts env.img env.compiled cpuDataAt_fixed (vmExit_fs h) (vmExit_fsBase h)
    (by rw [exitInfo_vmExit] at hnone ⊢; exact hnone)
  refine ⟨t, ?_⟩
  show ((vmexitWrapper env.img env.compiled).run (vmExit e s)).resumed = _
  rw [ht]
  rfl

theorem serve_skip (h : Hosts env s v) (hs : Served e s.cpu.regs)
    (hm : e.reason ≠ exitReasonEptMisconfig) (hr : e.reason ≠ exitReasonVmcall) :
    ∃ s', (serveExit env e).run s = .ret () s' ∧ Hosts env s' (v.exited.skip e.len) := by
  obtain ⟨s', hx⟩ : ∃ s', Exit env.img env.compiled e s s' :=
    (exit_iff cpuDataAt_fixed h.view.fsBase).mpr hs
  exact ⟨s', serveExit_of_exit hx, hosts_skip h hx hm hr⟩

/-- an access to the page of the syscall table -/
theorem serve_hooked (h : Hosts env s v) {a : ℕ} (hp : a / 4096 = ssdtPage)
    (ha : ∀ k < 8, ¬ Owned env.img (a + k)) :
    ∃ s', (serveExit env (faultExit env exitReasonEptMisconfig a)).run s = .ret () s' ∧
      Hosts env s' (v.exited.hooked env a) := by
  have hreason := faultExit_reason env (a := a)
  obtain ⟨s', hx⟩ : ∃ s', Exit env.img env.compiled (faultExit env exitReasonEptMisconfig a) s s' :=
    (exit_iff cpuDataAt_fixed h.view.fsBase).mpr
      (Or.inr (Or.inr (Or.inr (Or.inr (Or.inl hreason)))))
  have ht := transparent_exit cpuDataAt_fixed h.ready hx
  obtain ⟨hrax, hrdi, hrsi, hkept⟩ := ht.hooked (ssdtAccess_faultExit env hp)
  rw [faultExit_gpa env hp] at hrdi hrsi
  have hrip := ht.rip
  rw [h.regs] at hrip
  refine ⟨s', serveExit_of_exit hx, hosts_exit h hx (funext fun r => ?_) rfl rfl rfl fun d msr hc => ?_⟩
  · cases r with
    | rax => exact hrax
    | rdi => exact hrdi
    | rsi => exact hrsi.trans (h.load64 ha)
    | rip => exact hrip
    | _ => exact (hkept _ (by decide)).trans (congrFun h.regs _)
  · rw [exit_consulted cpuDataAt_fixed h.view.fsBase hx (by rw [hreason]; decide)]
    exact h.watched d msr hc

/-! ## instructions -/

theorem run_id {β : Type} (f : Machine → Host β) : (gets id >>= f).run s = (f s).run s := rfl

theorem hosts_regs (h : Hosts env s v) {regs : Regs} : Hosts env (withRegs s regs) { v with regs := regs } where
  view := h.view.congr rfl
  backPointer := h.backPointer
  hlt := h.hlt
  tables := guestTables_congr h.tables rfl fun _ _ => rfl
  debugctl := h.debugctl
  regs := rfl
  msr := h.msr
  watched := h.watched
  mem := h.mem

theorem hosts_retired (h : Hosts env s v) (x : BitVec 64) :
    Hosts env (retired env x s) ((v.loaded x).skip env.len) := by
  have hregs : (retired env x s) = withRegs s ((v.loaded x).skip env.len).regs := by
    unfold retired Vm.loaded Vm.skip
    rw [h.regs]
    rfl
  rw [hregs]
  exact hosts_regs h

/-- **other memory is not the hypervisor's business** -/
theorem hosts_mem (h : Hosts env s v) {m m' : Mem} (ho : ∀ x, Owned env.img x → m x = s.mem x)
    (hn : ∀ x, ¬ Owned env.img x → m x = m' x) : Hosts env { s with mem := m } { v with mem := m' } where
  view := h.view.congr rfl
  backPointer := by
    have hb : BackPointer cpuDataAddress s.mem := h.backPointer
    rw [BackPointer] at hb ⊢
    rw [← hb]
    exact Mem.load64_congr fun k hk =>
      ho _ (Or.inr (Or.inr (Or.inl ⟨Nat.le_add_right _ _, Nat.add_lt_add_left hk _⟩)))
  hlt := h.hlt
  tables := guestTables_congr h.tables rfl fun x hx => ho x (Or.inr (Or.inl (Or.inr (Or.inr (Or.inl hx)))))
  debugctl := h.debugctl
  regs := h.regs
  msr := h.msr
  watched := fun d msr hc => by
    rw [← h.watched d msr hc]
    exact consulted_congr d msr fun x hlo hhi =>
      ho x (Or.inr (Or.inl (Or.inr (Or.inr (Or.inr (Or.inl ⟨hlo, hhi⟩))))))
  mem := hn

/-- **a store of the guest reaches its own memory only** -/
theorem hosts_stored (h : Hosts env s v) {a : ℕ} (x : BitVec 64)
    (ha : ∀ k < 8, ¬ Owned env.img (a + k)) :
    Hosts env { s with mem := s.mem.store64 a x } { v with mem := v.mem.store64 a x } := by
  refine hosts_mem h (fun y hy => ?_) fun y hy => ?_
  · refine Mem.store64_outside _ _ _ _ ?_
    by_contra hc
    obtain ⟨k, rfl⟩ := Nat.exists_eq_add_of_le (show a ≤ y by omega)
    exact ha k (by omega) hy
  · show (if _ then _ else s.mem y) = if _ then _ else v.mem y
    rw [h.mem y hy]

/-! ## instructions, one by one -/

section
variable (env)

/-- the machine does what the virtual machine does -/
def Follows (i : GuestInstr) (s : Machine) (v : Vm) : Prop :=
  (∃ v' s', v.step env i = some v' ∧ (i.exec env).run s = .ret () s' ∧ Hosts env s' v') ∨
    (v.step env i = none ∧ ∃ s', (i.exec env).run s = .halt s')

theorem guestLoad_host {a b : ℕ} (hq : eptAccess env.caps Attrs.read s a = .host b) :
    ((GuestInstr.load a).exec env).run s = .ret () (retired env (s.mem.load64 b) s) := by
  unfold GuestInstr.exec guestLoad
  simp only [run_bind, run_gets, id, hq]
  rfl

theorem guestLoad_fault {a reason : ℕ} (hq : eptAccess env.caps Attrs.read s a = .fault reason)
    (hrun : (serveExit env (faultExit env reason a)).run s = .ret () s') :
    ((GuestInstr.load a).exec env).run s = .ret () s' := by
  unfold GuestInstr.exec guestLoad
  simp only [run_bind, run_gets, id, hq, hrun]
  rfl

theorem guestStore_host {a b : ℕ} {x : BitVec 64} (hq : eptAccess env.caps Attrs.write s a = .host b) :
    ((GuestInstr.store a x).exec env).run s
      = .ret () { retired env (s.cpu.regs .rax) s with mem := s.mem.store64 b x } := by
  unfold GuestInstr.exec guestStore
  simp only [run_bind, run_gets, id, hq]
  rfl

theorem guestStore_fault {a reason : ℕ} {x : BitVec 64}
    (hq : eptAccess env.caps Attrs.write s a = .fault reason)
    (hrun : (serveExit env (faultExit env reason a)).run s = .ret () s') :
    ((GuestInstr.store a x).exec env).run s = .ret () s' := by
  unfold GuestInstr.exec guestStore
  simp only [run_bind, run_gets, id, hq, hrun]
  rfl

end

theorem follows_load (h : Hosts env s v) {a : ℕ} (hf : (GuestInstr.load a).Fair env.img) :
    Follows env (.load a) s v := by
  obtain ⟨-, hlt, hfree⟩ := hf
  have hright : Attrs.read identityAttrs = true := rfl
  have hq := eptAccess_eq (hookedMap_of_tables h.tables) hright (hlt.trans (by norm_num))
  refine Or.inl ?_
  by_cases hp : a / 4096 = ssdtPage
  · rw [if_pos hp] at hq
    obtain ⟨s', hrun, hv⟩ := serve_hooked h hp hfree
    exact ⟨_, s', if_pos hp, guestLoad_fault env hq hrun, hv⟩
  · rw [if_neg hp, if_pos hlt] at hq
    refine ⟨_, _, if_neg hp, guestLoad_host env hq, ?_⟩
    rw [h.load64 hfree]
    exact hosts_retired h _

theorem follows_store (h : Hosts env s v) {a : ℕ} {x : BitVec 64}
    (hf : (GuestInstr.store a x).Fair env.img) : Follows env (.store a x) s v := by
  obtain ⟨-, hlt, hfree⟩ := hf
  have hright : Attrs.write identityAttrs = true := rfl
  have hq := eptAccess_eq (hookedMap_of_tables h.tables) hright (hlt.trans (by norm_num))
  refine Or.inl ?_
  by_cases hp : a / 4096 = ssdtPage
  · rw [if_pos hp] at hq
    obtain ⟨s', hrun, hv⟩ := serve_hooked h hp hfree
    exact ⟨_, s', if_pos hp, guestStore_fault env hq hrun, hv⟩
  · rw [if_neg hp, if_pos hlt] at hq
    refine ⟨_, _, if_neg hp, guestStore_host env hq, ?_⟩
    have hr := hosts_retired h (s.cpu.regs .rax)
    have hrax : v.loaded (s.cpu.regs .rax) = v := by
      rw [h.regs, Vm.loaded, Function.update_eq_self]
    rw [hrax] at hr
    exact hosts_stored hr x hfree

/-- **the bitmaps of the machine decide as the virtual machine does** -/
theorem msrExits_iff (h : Hosts env s v) (d : MsrAccess) : MsrExits d s ↔ v.swallows d = true := by
  have hecx : ecx s = v.ecx := by rw [ecx, h.regs, Vm.ecx]
  rw [MsrExits, msrBitmap_toNat cpuDataAt_fixed h.view, hecx, Vm.swallows, Bool.or_eq_true,
    Bool.not_eq_true', decide_eq_false_iff_not]
  by_cases hc : Covered v.ecx
  · rw [h.watched d _ hc]
  · simp only [hc, not_false_eq_true, true_or]

theorem instrExit_reason {reason : ℕ} {len : BitVec 64} (hr : reason < 65536) :
    (instrExit reason len s).reason = reason := by
  show ((BitVec.ofNat 64 reason).extractLsb' 0 16).toNat = reason
  rw [BitVec.extractLsb'_toNat, BitVec.toNat_ofNat, Nat.shiftRight_zero]
  omega

theorem serve_instr (h : Hosts env s v) {reason : ℕ} (len : BitVec 64)
    (hr : reason = exitReasonHlt ∨ reason = exitReasonMsrRead ∨ reason = exitReasonMsrWrite) :
    ∃ s', (serveExit env (instrExit reason len s)).run s = .ret () s' ∧
      Hosts env s' (v.exited.skip len) := by
  have hreason : (instrExit reason len s).reason = reason := by
    refine instrExit_reason ?_
    rcases hr with rfl | rfl | rfl
    all_goals decide
  refine serve_skip h ?_ ?_ ?_
  · rw [Served, hreason]
    tauto
  · rw [hreason]
    rcases hr with rfl | rfl | rfl
    all_goals decide
  · rw [hreason]
    rcases hr with rfl | rfl | rfl
    all_goals decide

/-- **a fault stops the machine**: the host does not know the exit -/
theorem tripleFault_halts (h : Hosts env s v) : ∃ t, (tripleFault env).run s = .halt t := by
  have hreason : (instrExit exitReasonTripleFault 0#64 s).reason = exitReasonTripleFault :=
    instrExit_reason (by decide)
  unfold tripleFault
  rw [run_id]
  refine serveExit_halts h.view.fsBase ?_
  rw [Served, hreason]
  rintro (h1 | h1 | h1 | h1 | h1 | ⟨h1, -⟩)
  all_goals exact absurd h1 (by decide)

/-- the processor's `rdmsr` -/
theorem hosts_readMsr (h : Hosts env s v) : Hosts env (nativeRdmsr s) v.readMsr := by
  have hs : nativeRdmsr s = withRegs s v.readMsr.regs := by
    unfold nativeRdmsr Vm.readMsr
    rw [ecx, h.regs, h.msr]
    rfl
  rw [hs]
  exact hosts_regs h

/-- the processor's `wrmsr` -/
theorem hosts_writeMsr (h : Hosts env s v) : Hosts env (nativeWrmsr s) v.writeMsr where
  view := h.view.congr rfl
  backPointer := h.backPointer
  hlt := h.hlt
  tables := guestTables_congr h.tables rfl fun _ _ => rfl
  debugctl := h.debugctl
  regs := by
    show Function.update s.cpu.regs .rip _ = Function.update v.regs .rip _
    rw [h.regs]
  msr := by
    show Function.update s.cpu.msr (ecx s) _ = Function.update v.msr v.ecx _
    rw [ecx, h.regs, h.msr]
    rfl
  watched := h.watched
  mem := h.mem

/-- an access to an MSR: it exits, or the processor does it, or it refuses it -/
theorem follows_msr (h : Hosts env s v) {i : GuestInstr} {d : MsrAccess} {reason : ℕ} {accepted : Bool}
    {f : Machine → Machine} {v₁ : Vm} (hr : reason = exitReasonMsrRead ∨ reason = exitReasonMsrWrite)
    (hstep : v.step env i = if v.swallows d then some (v.exited.skip 2#64)
      else if accepted then some v₁ else none)
    (hexec : (i.exec env).run s = (if MsrExits d s then serveExit env (instrExit reason 2#64 s)
      else if accepted then modify f else tripleFault env).run s)
    (hdone : Hosts env (f s) v₁) : Follows env i s v := by
  have hiff := msrExits_iff h d
  by_cases he : MsrExits d s
  · rw [if_pos he] at hexec
    rw [if_pos (hiff.mp he)] at hstep
    obtain ⟨s', hrun, hv⟩ := serve_instr h 2#64 (Or.inr hr)
    exact Or.inl ⟨_, s', hstep, hexec.trans hrun, hv⟩
  rw [if_neg he] at hexec
  rw [if_neg (hiff.not.mp he)] at hstep
  cases accepted with
  | true => exact Or.inl ⟨v₁, f s, hstep, hexec, hdone⟩
  | false =>
    obtain ⟨t, ht⟩ := tripleFault_halts h
    exact Or.inr ⟨hstep, t, hexec.trans ht⟩

theorem follows_rdmsr (h : Hosts env s v) : Follows env .rdmsr s v := by
  have hecx : ecx s = v.ecx := by rw [ecx, h.regs, Vm.ecx]
  refine follows_msr h (Or.inl rfl) rfl ?_ (hosts_readMsr h)
  unfold GuestInstr.exec
  rw [run_id, hecx]

theorem follows_wrmsr (h : Hosts env s v) : Follows env .wrmsr s v := by
  have hecx : ecx s = v.ecx := by rw [ecx, h.regs, Vm.ecx]
  refine follows_msr h (Or.inr rfl) rfl ?_ (hosts_writeMsr h)
  unfold GuestInstr.exec
  rw [run_id, hecx, h.regs]

theorem follows_hlt (h : Hosts env s v) : Follows env .hlt s v := by
  obtain ⟨s', hrun, hv⟩ := serve_instr h 1#64 (Or.inl rfl)
  refine Or.inl ⟨_, s', rfl, ?_, hv⟩
  unfold GuestInstr.exec
  rw [run_id, if_pos h.hlt]
  exact hrun

/-- **the call adds the two writes to those that are swallowed** -/
theorem hosts_vmcall (h : Hosts env s v) (hx : Exit env.img env.compiled e s s')
    (hr : e.reason = exitReasonVmcall) : Hosts env s' (v.protect.exited.skip e.len) := by
  have ht := transparent_exit cpuDataAt_fixed h.ready hx
  have hm : e.reason ≠ exitReasonEptMisconfig := by
    rw [hr]
    decide
  refine hosts_exit h hx (funext fun r => ?_) rfl rfl rfl fun d msr hc => ?_
  · by_cases hrip : r = .rip
    · rw [hrip, ht.rip, h.regs]
      exact (Function.update_self Reg.rip _ v.regs).symm
    · rw [ht.kept (fun ha => hm ha.1) r hrip, h.regs]
      exact (Function.update_of_ne hrip _ v.regs).symm
  · rw [vmcall_consulted cpuDataAt_fixed h.ready hx hr hc, h.watched d msr hc]
    rfl

theorem follows_vmcall (h : Hosts env s v) : Follows env .vmcall s v := by
  have hreason : (instrExit exitReasonVmcall 3#64 s).reason = exitReasonVmcall :=
    instrExit_reason (by decide)
  have hrdi : s.cpu.regs .rdi = v.regs .rdi := congrFun h.regs _
  have hserved : Served (instrExit exitReasonVmcall 3#64 s) s.cpu.regs ↔
      v.regs .rdi = protecetSyscall := by
    rw [Served, hreason, hrdi]
    refine ⟨?_, fun hcall => Or.inr (Or.inr (Or.inr (Or.inr (Or.inr ⟨rfl, hcall⟩))))⟩
    rintro (h1 | h1 | h1 | h1 | h1 | ⟨-, hcall⟩)
    all_goals first | exact absurd h1 (by decide) | exact hcall
  have hexec : (GuestInstr.vmcall.exec env).run s
      = (serveExit env (instrExit exitReasonVmcall 3#64 s)).run s := by
    unfold GuestInstr.exec
    rw [run_id]
  by_cases hcall : v.regs .rdi = protecetSyscall
  · obtain ⟨s', hx⟩ : ∃ s', Exit env.img env.compiled (instrExit exitReasonVmcall 3#64 s) s s' :=
      (exit_iff cpuDataAt_fixed h.view.fsBase).mpr (hserved.mpr hcall)
    exact Or.inl ⟨v.protect.exited.skip 3#64, s', if_pos hcall, hexec.trans (serveExit_of_exit hx),
      hosts_vmcall h hx hreason⟩
  · obtain ⟨t, ht⟩ := serveExit_halts h.view.fsBase (hserved.not.mpr hcall)
    exact Or.inr ⟨if_neg hcall, t, hexec.trans ht⟩

theorem follows_compute (h : Hosts env s v) (f : Regs → Regs) : Follows env (.compute f) s v := by
  refine Or.inl ⟨_, _, rfl, rfl, ?_⟩
  show Hosts env (withRegs s (f s.cpu.regs)) _
  rw [h.regs]
  exact hosts_regs h

/-- **the machine simulates the virtual machine** -/
theorem vm_simulates (env : GuestEnv) :
    Simulation.Simulates (Hosts env) (GuestInstr.Fair env.img) (Vm.step env) (GuestInstr.exec env) := by
  refine Simulation.simulates_of_cases fun s v i h hf => ?_
  show Follows env i s v
  cases i with
  | compute f => exact follows_compute h f
  | load a => exact follows_load h hf
  | store a x => exact follows_store h hf
  | rdmsr => exact follows_rdmsr h
  | wrmsr => exact follows_wrmsr h
  | hlt => exact follows_hlt h
  | vmcall => exact follows_vmcall h

end

end HyperC
