import HyperC.Guest.Dispatch

/-!
# The read hook, from the guest's side

* `ready_configure`, `mapped_configure`   what the hook finds: the host is ready for exits and the
                              page of the table is mapped;
* `dispatchAll_mapped`, `dispatchAll_hooked`   a run of dispatches without the hook, and with it;
* `hook_transparent_iff`      the two invoke the same handlers exactly if no dispatched entry is `NULL`.
-/

namespace HyperC
open Code Ept Walk

/-! ## the state before the hook -/

section
variable {img : Image} {caps : Caps} {s s' : Machine}

theorem ready_configure (hb : BackPointer cpuDataAddress s.mem)
    (h : (configureVmcs img cpuDataAddress).run s = .ret () s') : HostReady cpuDataAddress s' := by
  refine ⟨configureVmcs_field img _ h (by simp [configuredFields, hostFields]) (by decide), ?_⟩
  have hpointer : s'.mem.load64 (GuestState.cpuData guestState)
      = s.mem.load64 (GuestState.cpuData guestState) := Mem.load64_congr fun k hk =>
    (keeps_configureVmcs img _ cpuDataAddress (setupKeeps_pointer hk).epts).of_ret h
  exact hpointer.trans hb

theorem mapped_configure
    (hz : s.mem.ZeroOn (CpuData.epts cpuDataAddress) extendedPagingTablesT.size)
    (h : (configureVmcs img cpuDataAddress).run s = .ret () s') : SsdtTables caps mappedSlot s' := by
  refine ⟨configureVmcs_field img _ h (by simp [configuredFields]) (by decide), ?_⟩
  rw [(configureVmcs_inv img _ h).2.1]
  exact pageSlot_build (cleanTables_of_zero hz) (by decide) (by decide) (by decide)

theorem hooked_outside (s : Machine) (x : ℕ) (h : CpuData.msrBitmaps cpuDataAddress ≤ x) :
    (hooked s).mem x = s.mem x := by
  have h1 : Epts.pts (CpuData.epts cpuDataAddress) 0x1812 = 0x1014090 := rfl
  have h2 : CpuData.msrBitmaps cpuDataAddress = 0x1808000 := rfl
  refine updateLeaf_outside _ hookUpdate s.mem x (Or.inr ?_)
  rw [hookUpdate_page, ssdtPage, h1]
  omega

theorem hooked_entry (s : Machine) (n : ℕ) :
    (hooked s).mem.load64 (Ssdt.entries ssdtAddress n) = s.mem.load64 (Ssdt.entries ssdtAddress n) := by
  have h1 : ssdtAddress = 0x1812000 := rfl
  have h2 : CpuData.msrBitmaps cpuDataAddress = 0x1808000 := rfl
  refine Mem.load64_congr fun k _ => hooked_outside s _ ?_
  rw [Ssdt.entries_eq, h1, h2]
  omega

theorem ready_hooked (h : HostReady cpuDataAddress s) : HostReady cpuDataAddress (hooked s) := by
  have h1 : GuestState.cpuData (CpuData.guestCpuState cpuDataAddress) = 0x1813000 := rfl
  have h2 : CpuData.msrBitmaps cpuDataAddress = 0x1808000 := rfl
  refine ⟨h.fsBase, ?_⟩
  rw [BackPointer, Mem.load64_congr fun k _ => hooked_outside s _ (by rw [h1, h2]; omega)]
  exact h.backPointer

theorem hookedWorld_hooked {env : GuestEnv} (h : HostReady cpuDataAddress s)
    (ht : SsdtTables env.caps mappedSlot s) : HookedWorld env (hooked s).mem (hooked s) :=
  ⟨ready_hooked h, ssdtTables_hook ht, fun _ _ _ _ => rfl⟩

end

/-! ## runs of dispatches -/

/-- the handler in the entry of a number -/
def tableEntry (m : Mem) (n : BitVec 32) : BitVec 64 := m.load64 (Ssdt.entries ssdtAddress n.toNat)

section
variable {env : GuestEnv} {ns : List (BitVec 32)}

/-- **without the hook a run invokes the entries that are not `NULL`** -/
theorem dispatchAll_mapped (hns : ∀ n ∈ ns, n.toNat < ssdtSize) (g : Guest)
    (ht : SsdtTables env.caps mappedSlot g.machine) :
    ∃ g', (dispatchAll env ns).run g = .ret () g' ∧
      g'.invoked = g.invoked ++ (ns.map (tableEntry g.machine.mem)).filter (· ≠ 0#64) := by
  induction ns generalizing g with
  | nil => exact ⟨g, rfl, (List.append_nil _).symm⟩
  | cons n ns ih =>
    have hn := hns n List.mem_cons_self
    have hns' : ∀ n ∈ ns, n.toNat < ssdtSize := fun n' h' => hns n' (List.mem_cons_of_mem _ h')
    unfold dispatchAll
    rw [each_cons]
    by_cases he : tableEntry g.machine.mem n = 0#64
    · obtain ⟨g₁, h₁, ht₁, hm₁, hi₁, -⟩ := dispatch_mapped_null ht hn he
      obtain ⟨g₂, h₂, hi₂⟩ := ih hns' g₁ ht₁
      refine ⟨g₂, (bind_of_ret h₁ _).trans h₂, ?_⟩
      rw [hi₂, hi₁, hm₁, List.map_cons, List.filter_cons_of_neg (by simpa using he)]
    · obtain ⟨g₁, h₁, ht₁, hm₁, hi₁, -⟩ := dispatch_mapped ht hn he
      obtain ⟨g₂, h₂, hi₂⟩ := ih hns' g₁ ht₁
      refine ⟨g₂, (bind_of_ret h₁ _).trans h₂, ?_⟩
      rw [hi₂, hi₁, hm₁, List.map_cons, List.filter_cons_of_pos (by simpa using he),
        List.append_assoc, List.singleton_append]
      rfl

/-- **with the hook it invokes all of them** -/
theorem dispatchAll_hooked {m : Mem} (hns : ∀ n ∈ ns, n.toNat < ssdtSize) (g : Guest)
    (h : HookedWorld env m g.machine) :
    ∃ g', (dispatchAll env ns).run g = .ret () g' ∧ HookedWorld env m g'.machine ∧
      g'.invoked = g.invoked ++ ns.map (tableEntry m) := by
  induction ns generalizing g with
  | nil => exact ⟨g, rfl, h, (List.append_nil _).symm⟩
  | cons n ns ih =>
    obtain ⟨g₁, h₁, hw₁, hi₁⟩ := dispatch_hooked h (hns n List.mem_cons_self)
    obtain ⟨g₂, h₂, hw₂, hi₂⟩ := ih (fun n' h' => hns n' (List.mem_cons_of_mem _ h')) g₁ hw₁
    unfold dispatchAll
    rw [each_cons]
    refine ⟨g₂, (bind_of_ret h₁ _).trans h₂, hw₂, ?_⟩
    rw [hi₂, hi₁, List.map_cons, List.append_assoc, List.singleton_append]
    rfl

end

/-- the same dispatches before and after `initialize_read_hook`: all return, the hooked ones leave
memory alone outside the host's own bytes, and both worlds invoke the same handlers -/
def HookTransparent (env : GuestEnv) (s : Machine) (ns : List (BitVec 32)) : Prop :=
  ∃ s' g g', (initializeReadHook (CpuData.epts cpuDataAddress)
      (GuestState.ssdt (CpuData.guestCpuState cpuDataAddress))).run s = .ret () s' ∧
    (dispatchAll env ns).run (Guest.init s) = .ret () g ∧
    (dispatchAll env ns).run (Guest.init s') = .ret () g' ∧
    HookedWorld env s'.mem g'.machine ∧ g'.invoked = g.invoked

/-- **the hook is transparent exactly to runs that find no `NULL` entry** -/
theorem hook_transparent_iff (env : GuestEnv) (s : Machine) (ns : List (BitVec 32))
    (hready : HostReady cpuDataAddress s) (ht : SsdtTables env.caps mappedSlot s)
    (hns : ∀ n ∈ ns, n.toNat < ssdtSize) :
    HookTransparent env s ns ↔
      ∀ n ∈ ns, s.mem.load64 (Ssdt.entries ssdtAddress n.toNat) ≠ 0#64 := by
  obtain ⟨g, hg, hi⟩ := dispatchAll_mapped hns (Guest.init s) ht
  obtain ⟨g', hg', hw', hi'⟩ := dispatchAll_hooked hns (Guest.init (hooked s))
    (hookedWorld_hooked hready ht)
  have hentries : ns.map (tableEntry (hooked s).mem) = ns.map (tableEntry s.mem) :=
    List.map_congr_left fun n _ => hooked_entry s n.toNat
  have hiff : g'.invoked = g.invoked ↔
      ∀ n ∈ ns, s.mem.load64 (Ssdt.entries ssdtAddress n.toNat) ≠ 0#64 := by
    have hfilter := List.filter_eq_self (p := fun v : BitVec 64 => v ≠ 0#64)
      (l := ns.map (tableEntry s.mem))
    rw [hi, hi', hentries]
    show [] ++ _ = [] ++ _ ↔ _
    rw [List.nil_append, List.nil_append, eq_comm]
    refine hfilter.trans ?_
    simp [tableEntry]
  rw [← hiff]
  constructor
  · rintro ⟨s₁, g₁, g₂, h₀, h₁, h₂, -, h⟩
    cases (initializeReadHook_hooked s).symm.trans h₀
    cases hg.symm.trans h₁
    cases hg'.symm.trans h₂
    exact h
  · intro h
    exact ⟨_, g, g', initializeReadHook_hooked s, hg, hg', hw', h⟩

/-- some MSRs that every processor has -/
def plainMsrs : List (BitVec 32) :=
  [0#32, msrIa32SysenterCs, msrIa32SysenterEsp, msrIa32SysenterEip, msrIa32Debugctl, msrIa32Efer,
    msrIa32Star, msrIa32Lstar]

/-- those of them that hold an address -/
def addressMsrs : List (BitVec 32) := [msrIa32SysenterEsp, msrIa32SysenterEip, msrIa32Lstar]

/-- a guest on a processor that reports instructions of three bytes -/
def plainEnv : GuestEnv where
  img := sampleImage
  compiled := plainCompiled
  caps := ⟨true, true, true⟩
  len := 3#64
  readable msr := decide (msr ∈ plainMsrs)
  writable msr x := decide (msr ∈ plainMsrs ∧ (msr ∈ addressMsrs → (x.setWidth 48).signExtend 64 = x))

/-- `configure_vmcs` on zeroed memory gives the state the hook is made for, with an empty table -/
theorem configured_zero : ∃ s, (configureVmcs sampleImage cpuDataAddress).run readyMachine = .ret () s ∧
    HostReady cpuDataAddress s ∧ SsdtTables plainEnv.caps mappedSlot s ∧
    ∀ n < ssdtSize, s.mem.load64 (Ssdt.entries ssdtAddress n) = 0#64 := by
  have h1 : GuestState.cpuData guestState = 0x1813000 := rfl
  have h2 : CpuData.epts cpuDataAddress = 0x1002000 := rfl
  have h3 : ssdtAddress = 0x1812000 := rfl
  have h4 : ssdtSize = 512 := rfl
  obtain ⟨log, hrun⟩ := configureVmcs_run sampleImage cpuDataAddress readyMachine
  have hzero : ∀ x < GuestState.cpuData guestState, readyMachine.mem x = 0#8 := fun x hx =>
    Mem.store64_outside _ _ _ x (Or.inl hx)
  have htables : readyMachine.mem.ZeroOn (CpuData.epts cpuDataAddress) extendedPagingTablesT.size := by
    intro x _ hx
    rw [h2, Epts.size_eq] at hx
    exact hzero x (by rw [h1]; omega)
  refine ⟨_, hrun, ready_configure readyMachine_ready.backPointer hrun,
    mapped_configure htables hrun, fun n hn => ?_⟩
  refine Mem.load64_eq_zero fun k hk => ?_
  rw [Ssdt.entries_eq, h3]
  have hkept := (keeps_configureVmcs sampleImage (0x1812000 + 8 * n + k) cpuDataAddress (Or.inr (by
    rw [h2, Epts.size_eq]
    omega))).of_ret hrun
  exact hkept.trans (hzero _ (by rw [h1]; omega))

theorem hook_transparent_iff_configured :
    ∃ s, (configureVmcs sampleImage cpuDataAddress).run readyMachine = .ret () s ∧
      (HookTransparent plainEnv s [7#32, 511#32] ↔
        ∀ n ∈ [7#32, 511#32], s.mem.load64 (Ssdt.entries ssdtAddress n.toNat) ≠ 0#64) := by
  obtain ⟨s, hrun, hready, ht, -⟩ := configured_zero
  exact ⟨s, hrun, hook_transparent_iff plainEnv s [7#32, 511#32] hready ht (by simp [ssdtSize])⟩

/-- **a dispatch of an empty entry calls `NULL` through the hook** -/
theorem hook_calls_null : ¬ ∀ (env : GuestEnv) (s : Machine) (ns : List (BitVec 32)),
    HostReady cpuDataAddress s → SsdtTables env.caps mappedSlot s →
    (∀ n ∈ ns, n.toNat < ssdtSize) → HookTransparent env s ns := by
  intro h
  obtain ⟨s, -, hready, ht, hempty⟩ := configured_zero
  have h0 : ∀ n ∈ [0#32], n.toNat < ssdtSize := by simp [ssdtSize]
  obtain ⟨s', g, g', h₀, h₁, h₂, -, heq⟩ := h plainEnv s [0#32] hready ht h0
  obtain ⟨g₁, hg₁, hi₁⟩ := dispatchAll_mapped h0 (Guest.init s) ht
  obtain ⟨g₂, hg₂, -, hi₂⟩ := dispatchAll_hooked h0 (Guest.init (hooked s))
    (hookedWorld_hooked hready ht)
  cases (initializeReadHook_hooked s).symm.trans h₀
  cases hg₁.symm.trans h₁
  cases hg₂.symm.trans h₂
  have hentry : tableEntry s.mem 0#32 = 0#64 := hempty 0 (by decide)
  have hlen := congrArg List.length (hi₂.symm.trans (heq.trans hi₁))
  change ([] ++ [tableEntry (hooked s).mem 0#32]).length
    = ([] ++ ([tableEntry s.mem 0#32]).filter (· ≠ 0#64)).length at hlen
  rw [hentry] at hlen
  simp at hlen

end HyperC
