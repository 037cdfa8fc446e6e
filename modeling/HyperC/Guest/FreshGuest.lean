import HyperC.Guest.ReadHook

/-!
# A fresh guest

What `initialize_host` hands to `launch_vm`, over whatever was in memory before.

* `FreshMemory`, `freshMemory_iff`   no MSR is monitored and no entry but the registered one is set,
                        exactly if memory was clean where the setup does not write;
* `hookedPage_setup`    the read hook is there over any memory;
* `FreshGuest`, `fresh_guest_never`   so a number without a handler still has its entry called;
* `launch_depends_on_prior`   and stale memory shows.
-/

namespace HyperC
open Code Msr Bits Epts Ept Walk

/-- no access to an MSR is monitored, and no entry but the registered one is set -/
structure FreshMemory (m : Mem) : Prop where
  unmonitored : ∀ msr, Covered msr → ∀ d,
    consulted m (CpuData.msrBitmaps cpuDataAddress) d msr = false
  unregistered : ∀ n < ssdtSize, n ≠ 42 → m.load64 (Ssdt.entries ssdtAddress n) = 0#64

/-- memory before the boot is zero where the setup reads nothing and writes nothing -/
structure CleanBoot (m : Mem) : Prop where
  bitmaps : m.ZeroOn (CpuData.msrBitmaps cpuDataAddress) pageFrameSize
  entries : ∀ n < ssdtSize, n ≠ 42 → m.load64 (Ssdt.entries ssdtAddress n) = 0#64

/-- the guest sees only what the host set up: memory is fresh, and a dispatch of a number that was
never registered calls nothing -/
structure FreshGuest (env : GuestEnv) (s : Machine) : Prop where
  memory : FreshMemory s.mem
  unreached : ∀ n : BitVec 32, n ≠ 42#32 → ∀ g,
    (dispatchHandler env n).run (Guest.init s) = .ret () g → g.invoked = []

section
variable {u : VmxUnit} {img : Image} {caps : Caps} {s s' : Machine}

/-- **the memory of the launch is fresh exactly if the boot was clean** -/
theorem freshMemory_iff (h : (hostSetup u img).run s = .ret () s') :
    FreshMemory s'.mem ↔ CleanBoot s.mem := by
  have hbits : ∀ x, CpuData.msrBitmaps cpuDataAddress ≤ x →
      x < CpuData.msrBitmaps cpuDataAddress + pageFrameSize → s'.mem x = s.mem x :=
    fun x hlo hhi => (keeps_hostSetup u img x (untouched_bitmaps hlo hhi)).of_ret h
  have hentries : ∀ n < ssdtSize, n ≠ 42 →
      s'.mem.load64 (Ssdt.entries ssdtAddress n) = s.mem.load64 (Ssdt.entries ssdtAddress n) :=
    fun n hn h42 => Mem.load64_congr fun k hk =>
      (keeps_hostSetup u img _ (untouched_entry hn h42 hk)).of_ret h
  constructor
  · rintro ⟨hmsr, htable⟩
    refine ⟨fun x hlo hhi => ?_, fun n hn h42 => ?_⟩
    · rw [← hbits x hlo hhi]
      exact (unmonitored_iff _ _).mp hmsr x hlo hhi
    · rw [← hentries n hn h42]
      exact htable n hn h42
  · rintro ⟨hzero, htable⟩
    refine ⟨(unmonitored_iff _ _).mpr fun x hlo hhi => ?_, fun n hn h42 => ?_⟩
    · rw [hbits x hlo hhi]
      exact hzero x hlo hhi
    · rw [hentries n hn h42]
      exact htable n hn h42

/-! ## the hook -/

theorem load_inTables {m m' : Mem} (hm : ∀ x, CpuData.epts cpuDataAddress ≤ x →
    x < CpuData.epts cpuDataAddress + extendedPagingTablesT.size → m x = m' x) {w : ℕ}
    (hlo : 0x1002000 ≤ w) (hhi : w + 8 ≤ 0x1808000) : m.load64 w = m'.load64 w := by
  have e : CpuData.epts cpuDataAddress = 0x1002000 := rfl
  rw [e, Epts.size_eq] at hm
  exact Mem.load64_congr fun k hk => hm _ (by omega) (by omega)

theorem load_hooked_upper {w : ℕ} (h : w + 8 ≤ pts (CpuData.epts cpuDataAddress) 0) :
    (hooked s).mem.load64 w = s.mem.load64 w :=
  load_updateLeaf_upper _ hookUpdate s.mem w h

theorem load_hooked_leaf : (hooked s).mem.load64 (pts (CpuData.epts cpuDataAddress) ssdtPage)
    = merge copyMask (s.mem.load64 (pts (CpuData.epts cpuDataAddress) ssdtPage)) ssdtPageFlags := by
  have hload := load_updateLeaf (CpuData.epts cpuDataAddress) hookUpdate s.mem ssdtPage
  rw [if_pos (beq_iff_eq.mpr hookUpdate_page)] at hload
  exact hload

/-- **the hook is on the page, whatever the tables were built over**: a stale bit makes an entry above
the leaf a misconfiguration too -/
theorem hookedPage_build {m₀ : Mem}
    (hp : s.vmcs vmcsEptPointer = eptpOf (CpuData.epts cpuDataAddress))
    (hm : ∀ x, CpuData.epts cpuDataAddress ≤ x →
      x < CpuData.epts cpuDataAddress + extendedPagingTablesT.size →
      s.mem x = buildTables (CpuData.epts cpuDataAddress) m₀ x) :
    HookedPage caps (hooked s) := by
  refine ⟨hp, fun m hm' a ha => ?_⟩
  -- the words of the path: one in each of the three upper tables, and the leaf
  have h4 : pml4 (CpuData.epts cpuDataAddress) 0 = 0x1002000 := rfl
  have h3 : pdpt (CpuData.epts cpuDataAddress) 0 = 0x1003000 := rfl
  have h2 : pds (CpuData.epts cpuDataAddress) 12 = 0x1004060 := rfl
  have h1 : pts (CpuData.epts cpuDataAddress) ssdtPage = 0x1014090 := rfl
  have h0 : pts (CpuData.epts cpuDataAddress) 0 = 0x1008000 := rfl
  have hupper : ∀ w, 0x1002000 ≤ w → w + 8 ≤ 0x1008000 →
      m.load64 w = (buildTables (CpuData.epts cpuDataAddress) m₀).load64 w := fun w hlo hhi => by
    rw [load_inTables hm' hlo (by omega), load_hooked_upper (by rw [h0]; exact hhi),
      load_inTables hm hlo (by omega)]
  have hpage : a / 4096 = 0x1812 := ha
  have hpt : a / 2 ^ 21 = 12 := by omega
  have hpd : index 2 a = 0 := by
    simp only [index, span]
    omega
  refine eptWalk_stops (by decide) (by decide) (by omega) ?_ ?_ ?_ ?_
  · rw [hupper _ (by rw [h4]) (by rw [h4]; omega), load_pml4]
    exact decode_upper_or (by omega) (by decide) (by decide) (by decide)
  · rw [hpd, hupper _ (by rw [h3]; omega) (by rw [h3]; omega), load_pdpt _ _ 0 (by omega)]
    exact decode_upper_or (by omega) (by decide) (by decide) (by decide)
  · rw [hpt, hupper _ (by rw [h2]; omega) (by rw [h2]; omega), load_pds _ _ 12 (by omega)]
    exact decode_upper_or (by omega) (by decide) (by decide) (by decide)
  · rw [show a / 4096 = ssdtPage from ha, load_inTables hm' (by rw [h1]; omega) (by rw [h1]; omega),
      load_hooked_leaf]
    exact decode_ssdtPageFlags caps _

/-- **the guest is launched under the hook**, over any memory -/
theorem hookedPage_setup (h : (hostSetup u img).run s = .ret () s') : HookedPage caps s' := by
  unfold hostSetup at h
  obtain ⟨⟨⟩, s₁, -, h⟩ := bind_eq_ret.mp h
  unfold vmSetup at h
  obtain ⟨⟨⟩, s₂, -, h⟩ := bind_eq_ret.mp h
  obtain ⟨⟨⟩, s₃, h₃, h⟩ := bind_eq_ret.mp h
  obtain ⟨⟨⟩, s₄, h₄, h₅⟩ := bind_eq_ret.mp h
  have hs₄ := (Outcome.ret.inj ((initializeSsdt_run _ s₃).symm.trans h₄)).2
  have hs' := (Outcome.ret.inj ((initializeReadHook_hooked s₄).symm.trans h₅)).2
  rw [← hs']
  refine @hookedPage_build caps s₄ s₂.mem ?_ fun x hlo hhi => ?_
  · rw [← hs₄]
    exact configureVmcs_field img _ h₃ (by simp [configuredFields]) (by decide)
  · -- the entry of number 42 lies behind the tables
    have e1 : CpuData.epts cpuDataAddress = 0x1002000 := rfl
    have e2 : crabEntry = 0x1812150 := rfl
    rw [e1, Epts.size_eq] at hhi
    rw [← hs₄, ← (configureVmcs_inv img _ h₃).2.1]
    exact Mem.store64_outside _ _ _ _ (by rw [e2]; omega)

end

/-! ## a fresh guest -/

/-- **no guest is launched fresh**: its memory is, exactly if the boot was clean, but the hook has the
`NULL` of a number that was never registered called -/
theorem fresh_guest_never (u : VmxUnit) (env : GuestEnv) (s s' : Machine)
    (h : (hostSetup u env.img).run s = .ret () s') :
    (FreshMemory s'.mem ↔ CleanBoot s.mem) ∧ ¬ FreshGuest env s' := by
  refine ⟨freshMemory_iff h, fun hfresh => ?_⟩
  obtain ⟨s₁, s₂, g, -, -, hrun, -, hinvoked⟩ := @dispatch_served env (Guest.init s') 0#32
    (launched_of_ret h).ready (hookedPage_setup h) (by decide)
  have hnone := hfresh.unreached 0#32 (by decide) g hrun
  rw [hinvoked] at hnone
  exact List.append_ne_nil_of_right_ne_nil _ (List.cons_ne_nil _ _) hnone

theorem fresh_guest_never_boot : ∃ s',
    (hostSetup plainUnit sampleImage).run (bootMachine fun _ => 0#8) = .ret () s' ∧
      (FreshMemory s'.mem ↔ CleanBoot fun _ => 0#8) ∧
      ¬ FreshGuest plainEnv s' := by
  obtain ⟨s', hs'⟩ := hostSetup_boot fun _ => 0#8
  exact ⟨s', hs', fresh_guest_never plainUnit plainEnv (bootMachine fun _ => 0#8) s' hs'⟩

/-- **what the guest sees depends on the memory before the boot** -/
theorem launch_depends_on_prior : ¬ ∀ (u : VmxUnit) (env : GuestEnv) (s s' : Machine),
    (hostSetup u env.img).run s = .ret () s' → FreshGuest env s' := by
  intro h
  obtain ⟨s', hs'⟩ := hostSetup_boot fun _ => 1#8
  have hfresh := (h plainUnit plainEnv (bootMachine fun _ => 1#8) s' hs').memory
  have hbit := hfresh.unmonitored 0#32 (by decide) .read
  have hbyte : s'.mem (CpuData.msrBitmaps cpuDataAddress) = 1#8 :=
    (keeps_hostSetup _ _ _ (untouched_bitmaps le_rfl (by decide))).of_ret hs'
  rw [consulted_eq] at hbit
  have hzero : bitIndex .read 0#32 = 0 := by decide
  rw [hzero, Bitmap.test] at hbit
  simp only [Nat.zero_div, Nat.add_zero, hbyte, Nat.zero_mod] at hbit
  exact absurd hbit (by decide)

end HyperC
