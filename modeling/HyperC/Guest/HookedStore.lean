import HyperC.Guest.ReadHook

/-!
# The read hook and the guest's stores

A leaf with write but no read access is a misconfiguration for every access, so a store to the page
of the table ends in `ept_misconfig_handler` like a load, and the handler does not ask which it was.

* `TableOp`           the guest's loads and stores of the table;
* `TableOp.Right`     what the guest expects of one, against the table `t` it has built up;
* `TableOp.Harmless`  the stores that change nothing;
* `stores_kept_iff`   a run goes as the guest expects exactly if all its stores are harmless.
-/

namespace HyperC
open Code Ept Walk

/-- `set_syscall_handler` in the guest, its store being a guest's store -/
def guestSetHandler (env : GuestEnv) (number : BitVec 32) (handler : BitVec 64) : Host Unit :=
  if number > BitVec.ofNat 32 ssdtSize then pure ()
  else do
    let _ ← guestStore env (Ssdt.entries ssdtAddress number.toNat) handler

inductive TableOp where
  | load (number : BitVec 32)
  | store (number : BitVec 32) (handler : BitVec 64)

namespace TableOp

def number : TableOp → BitVec 32
  | load n => n
  | store n _ => n

def exec (env : GuestEnv) : TableOp → Host Unit
  | load n => do
    let _ ← guestLoad env (Ssdt.entries ssdtAddress n.toNat)
  | store n h => guestSetHandler env n h

/-- the table after the operation, for the guest -/
def apply (t : BitVec 32 → BitVec 64) : TableOp → BitVec 32 → BitVec 64
  | load _ => t
  | store n h => Function.update t n h

/-- the operation from `s` to `s'` is right: a load hands the entry of `t` to the hook, a store sets
the entry and leaves the three registers alone -/
def Right (t : BitVec 32 → BitVec 64) (s s' : Machine) : TableOp → Prop
  | load n => s'.cpu.regs .rsi = t n
  | store n h => tableEntry s'.mem n = h ∧
      ∀ r ∈ [Reg.rax, Reg.rdi, Reg.rsi], s'.cpu.regs r = s.cpu.regs r

/-- the store finds its handler in the entry, and in the registers what the handler puts there -/
def Harmless (env : GuestEnv) (s : Machine) : TableOp → Prop
  | load _ => True
  | store n h => tableEntry s.mem n = h ∧ s.cpu.regs .rax = BitVec.ofNat 64 env.img.ssdtHook ∧
      s.cpu.regs .rdi = BitVec.ofNat 64 n.toNat ∧ s.cpu.regs .rsi = h

end TableOp

/-- every operation of the run is right -/
def RunRight (env : GuestEnv) : List TableOp → (BitVec 32 → BitVec 64) → Machine → Prop
  | [], _, _ => True
  | op :: ops, t, s => ∃ s', (op.exec env).run s = .ret () s' ∧ op.Right t s s' ∧
      RunRight env ops (op.apply t) s'

/-- every store of the run is harmless, in the state it is made in -/
def RunHarmless (env : GuestEnv) : List TableOp → Machine → Prop
  | [], _ => True
  | op :: ops, s => op.Harmless env s ∧
      ∃ s', (op.exec env).run s = .ret () s' ∧ RunHarmless env ops s'

/-! ## one operation -/

section
variable {env : GuestEnv} {m : Mem} {s s' : Machine}

/-- **load or store, the handler does the same** -/
theorem exec_hooked (h : HookedWorld env m s) (op : TableOp) (hn : op.number.toNat < ssdtSize) :
    ∃ s', (op.exec env).run s = .ret () s' ∧
      SsdtServed env (Ssdt.entries ssdtAddress op.number.toNat) s s' := by
  have ha := inSsdtPage_entries hn
  cases op with
  | load n =>
    obtain ⟨s', hrun, hs⟩ := load_hooked env h.ready (hookedPage_of_tables h.tables) ha
    exact ⟨s', bind_of_ret hrun _, hs⟩
  | store n handler =>
    obtain ⟨s', hrun, hs⟩ := store_hooked env handler h.ready (hookedPage_of_tables h.tables) ha
    have hle : n.toNat ≤ ssdtSize := hn.le
    refine ⟨s', ?_, hs⟩
    show (guestSetHandler env n handler).run s = _
    unfold guestSetHandler
    rw [if_neg (not_gt_ssdtSize hle)]
    exact bind_of_ret hrun _

theorem served_rdi {n : BitVec 32} (hn : n.toNat < ssdtSize)
    (hs : SsdtServed env (Ssdt.entries ssdtAddress n.toNat) s s') :
    s'.cpu.regs .rdi = BitVec.ofNat 64 n.toNat := by
  have h1 : ssdtAddress = 0x1812000 := rfl
  have h2 : ssdtSize = 512 := rfl
  have hi : Ssdt.entries ssdtAddress n.toNat % 4096 / 8 = n.toNat := by
    rw [Ssdt.entries_eq, h1]
    omega
  rw [hs.rdi, hi]

/-- **an operation is right exactly if it is a load or a harmless store** -/
theorem right_iff {op : TableOp} (h : HookedWorld env m s) (hn : op.number.toNat < ssdtSize)
    (hs : SsdtServed env (Ssdt.entries ssdtAddress op.number.toNat) s s') :
    op.Right (tableEntry m) s s' ↔ op.Harmless env s := by
  have hw := hookedWorld_served h hs
  have hentry : ∀ n : BitVec 32, tableEntry s.mem n = tableEntry m n := fun _ => hookedWorld_entry h
  have hentry' : ∀ n : BitVec 32, tableEntry s'.mem n = tableEntry m n := fun _ => hookedWorld_entry hw
  have hrdi := served_rdi hn hs
  cases op with
  | load n => exact iff_of_true (hs.rsi.trans (hentry n)) trivial
  | store n handler =>
    have hrsi : s'.cpu.regs .rsi = tableEntry m n := hs.rsi.trans (hentry n)
    change s'.cpu.regs .rdi = BitVec.ofNat 64 n.toNat at hrdi
    simp only [TableOp.Right, TableOp.Harmless, hentry, hentry', List.forall_mem_cons, hs.rax, hrdi,
      hrsi, List.not_mem_nil, false_implies, implies_true, and_true]
    constructor
    · rintro ⟨he, hax, hdi, hsi⟩
      exact ⟨he, hax.symm, hdi.symm, hsi.symm.trans he⟩
    · rintro ⟨he, hax, hdi, hsi⟩
      exact ⟨he, hax.symm, hdi.symm, he.trans hsi.symm⟩

theorem apply_of_harmless {op : TableOp} (h : HookedWorld env m s) (hop : op.Harmless env s) :
    op.apply (tableEntry m) = tableEntry m := by
  cases op with
  | load n => rfl
  | store n handler =>
    have hentry : tableEntry m n = handler := (hookedWorld_entry h).symm.trans hop.1
    show Function.update (tableEntry m) n handler = _
    rw [← hentry, Function.update_eq_self]

end

/-! ## a run -/

section
variable {env : GuestEnv} {m : Mem} {ops : List TableOp}

theorem execAll_hooked (hops : ∀ op ∈ ops, op.number.toNat < ssdtSize) (s : Machine)
    (h : HookedWorld env m s) : ∃ s', (each (TableOp.exec env) ops).run s = .ret () s' ∧
      HookedWorld env m s' := by
  induction ops generalizing s with
  | nil => exact ⟨s, rfl, h⟩
  | cons op ops ih =>
    obtain ⟨s₁, h₁, hs₁⟩ := exec_hooked h op (hops op List.mem_cons_self)
    obtain ⟨s₂, h₂, hs₂⟩ := ih (fun o ho => hops o (List.mem_cons_of_mem _ ho)) s₁
      (hookedWorld_served h hs₁)
    rw [each_cons]
    exact ⟨s₂, (bind_of_ret h₁ _).trans h₂, hs₂⟩

theorem runRight_iff (hops : ∀ op ∈ ops, op.number.toNat < ssdtSize) (s : Machine)
    (h : HookedWorld env m s) : RunRight env ops (tableEntry m) s ↔ RunHarmless env ops s := by
  induction ops generalizing s with
  | nil => exact Iff.rfl
  | cons op ops ih =>
    have hop := hops op List.mem_cons_self
    have ih' := ih fun o ho => hops o (List.mem_cons_of_mem _ ho)
    obtain ⟨s₁, h₁, hs₁⟩ := exec_hooked h op hop
    have hw₁ := hookedWorld_served h hs₁
    constructor
    · rintro ⟨s', hrun, hright, hrest⟩
      cases h₁.symm.trans hrun
      have hharmless := (right_iff h hop hs₁).mp hright
      rw [apply_of_harmless h hharmless] at hrest
      exact ⟨hharmless, s₁, h₁, (ih' s₁ hw₁).mp hrest⟩
    · rintro ⟨hharmless, s', hrun, hrest⟩
      cases h₁.symm.trans hrun
      refine ⟨s₁, h₁, (right_iff h hop hs₁).mpr hharmless, ?_⟩
      rw [apply_of_harmless h hharmless]
      exact (ih' s₁ hw₁).mpr hrest

end

/-- **after `initialize_read_hook` every run of loads and stores gets through, and it goes as the
guest expects exactly if its stores change nothing** -/
theorem stores_kept_iff (env : GuestEnv) (s : Machine) (ops : List TableOp)
    (hready : HostReady cpuDataAddress s) (ht : SsdtTables env.caps mappedSlot s)
    (hops : ∀ op ∈ ops, op.number.toNat < ssdtSize) :
    ∃ s' s'', (initializeReadHook (CpuData.epts cpuDataAddress)
        (GuestState.ssdt (CpuData.guestCpuState cpuDataAddress))).run s = .ret () s' ∧
      (each (TableOp.exec env) ops).run s' = .ret () s'' ∧
      (RunRight env ops (tableEntry s'.mem) s' ↔ RunHarmless env ops s') := by
  have hw := hookedWorld_hooked hready ht
  obtain ⟨s'', hrun, -⟩ := execAll_hooked hops (hooked s) hw
  exact ⟨hooked s, s'', initializeReadHook_hooked s, hrun, runRight_iff hops _ hw⟩

theorem stores_kept_iff_configured :
    ∃ s, (configureVmcs sampleImage cpuDataAddress).run readyMachine = .ret () s ∧
      ∃ s' s'', (initializeReadHook (CpuData.epts cpuDataAddress)
          (GuestState.ssdt (CpuData.guestCpuState cpuDataAddress))).run s = .ret () s' ∧
        (each (TableOp.exec plainEnv) [.store 7#32 0x100000#64, .load 7#32]).run s' = .ret () s'' ∧
        (RunRight plainEnv [.store 7#32 0x100000#64, .load 7#32] (tableEntry s'.mem) s' ↔
          RunHarmless plainEnv [.store 7#32 0x100000#64, .load 7#32] s') := by
  obtain ⟨s, hrun, hready, ht, -⟩ := configured_zero
  exact ⟨s, hrun, stores_kept_iff plainEnv s _ hready ht (by simp [TableOp.number, ssdtSize])⟩

/-- **a store to the hooked page is lost** -/
theorem hooked_store_lost : ¬ ∀ (env : GuestEnv) (s : Machine) (ops : List TableOp),
    HostReady cpuDataAddress s → SsdtTables env.caps mappedSlot s →
    (∀ op ∈ ops, op.number.toNat < ssdtSize) →
    ∃ s', (initializeReadHook (CpuData.epts cpuDataAddress)
        (GuestState.ssdt (CpuData.guestCpuState cpuDataAddress))).run s = .ret () s' ∧
      RunRight env ops (tableEntry s'.mem) s' := by
  intro h
  obtain ⟨s, -, hready, ht, hempty⟩ := configured_zero
  have hops : ∀ op ∈ [TableOp.store 0#32 0x100000#64], op.number.toNat < ssdtSize := by
    simp [TableOp.number, ssdtSize]
  obtain ⟨s', h₀, hright⟩ := h plainEnv s [.store 0#32 0x100000#64] hready ht hops
  cases (initializeReadHook_hooked s).symm.trans h₀
  have hharmless := ((runRight_iff hops _ (hookedWorld_hooked hready ht)).mp hright).1.1
  have hentry : tableEntry (hooked s).mem 0#32 = 0#64 :=
    (hooked_entry s 0).trans (hempty 0 (by decide))
  exact absurd (hentry.symm.trans hharmless) (by decide)

end HyperC
