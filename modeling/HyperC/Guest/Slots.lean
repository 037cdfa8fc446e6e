import HyperC.Guest.ReadHook

/-!
# The syscall table as a finite map

With the page of the table mapped, `set_syscall_handler` and `dispatch_handler` are the update and
the lookup of a map with the keys below `SSDT_SIZE`, but for the number `SSDT_SIZE` itself: the two
bounds are `number > SSDT_SIZE`, so a dispatch of it reads the qword behind the table.

* `lastHandler`, `load_storeEntries`   the entry of a number is the last handler stored for it;
* `DispatchesSlot`    what the lookup of a slot does;
* `reads_dispatch`    a number that passes the bound has its entry read;
* `dispatch_map_iff`  a dispatch is the lookup exactly if the number is not `SSDT_SIZE`.
-/

namespace HyperC
open Code Ept Walk

/-- the last handler of a run for a number, `NULL` without one -/
def lastHandler (cs : List SetCall) (n : BitVec 32) : BitVec 64 :=
  ((LastWrite.last (fun c => c.number == n) cs).map SetCall.handler).getD 0#64

/-- the error that a dispatch without a handler reports -/
def dispatchError (n : BitVec 32) : String :=
  if n.toNat < ssdtSize then "syscall %d doesn't have a handler"
  else "out of bounds syscall number: %d"

/-- the number has a slot, and the slot a handler -/
def HasHandler (n : BitVec 32) (h : BitVec 64) : Prop := n.toNat < ssdtSize ∧ h ≠ 0#64

instance (n : BitVec 32) (h : BitVec 64) : Decidable (HasHandler n h) :=
  inferInstanceAs (Decidable (_ ∧ _))

/-- the dispatch of `n` from `g` to `g'`, where `h` is registered for `n` -/
structure DispatchesSlot (n : BitVec 32) (h : BitVec 64) (g g' : Guest) : Prop where
  invoked : g'.invoked = g.invoked ++ if HasHandler n h then [h] else []
  reported : ¬ HasHandler n h →
    g'.machine.log = logged g.machine .error (dispatchError n) [.int (n.setWidth 64)]
  inside : ∀ a ∈ g'.reads, a ∈ g.reads ∨ ∃ k < ssdtSize, a = Ssdt.entries ssdtAddress k

/-! ## registrations -/

section
variable (cs : List SetCall) (m : Mem) {caps : Caps} {s : Machine}

/-- **the entry of a number is the last handler stored for it** -/
theorem load_storeEntries (n : BitVec 32) (hn : n.toNat < ssdtSize) :
    tableEntry (cs.foldl storeEntry m) n
      = ((LastWrite.last (fun c => c.number == n) cs).map SetCall.handler).getD (tableEntry m n) := by
  refine LastWrite.foldl_view (fun m : Mem => tableEntry m n) cs (fun c _ m => ?_) m
  unfold storeEntry tableEntry
  by_cases h : c.number = n
  · have hle : c.number.toNat ≤ ssdtSize := by rw [h]; exact hn.le
    rw [if_pos (beq_iff_eq.mpr h), if_pos hle, h, Mem.load64_store64_same]
  · have hne : c.number.toNat ≠ n.toNat := fun e => h (BitVec.eq_of_toNat_eq e)
    have hmiss : ¬ (c.number == n) = true := fun e => h (beq_iff_eq.mp e)
    rw [if_neg hmiss]
    split
    · exact Mem.load64_store64_disjoint _ _ _ _ (by simp only [Ssdt.entries_eq]; omega)
    · rfl

theorem ssdtTables_setAll (ht : SsdtTables caps mappedSlot s) :
    SsdtTables caps mappedSlot { s with mem := cs.foldl storeEntry s.mem } := by
  have h1 : CpuData.epts cpuDataAddress = 0x1002000 := rfl
  have h2 : ssdtAddress = 0x1812000 := rfl
  refine ssdtTables_congr ht rfl fun x _ hx => storeEntries_outside cs s.mem x (Or.inl ?_)
  rw [h1, Epts.size_eq] at hx
  omega

end

/-! ## reads -/

section
variable {env : GuestEnv} (a : ℕ)

theorem reads_onMachine {α : Type} (x : Host α) :
    Preserves (fun g : Guest => a ∈ g.reads) (onMachine x) := by
  intro g hg
  unfold onMachine Code.run
  beta_reduce
  split
  · exact hg
  · exact hg
  · exact hg

theorem reads_readQword (b : ℕ) : Preserves (fun g : Guest => a ∈ g.reads) (readQword env b) := by
  have hmodify : Preserves (fun g : Guest => a ∈ g.reads)
      (modify fun g : Guest => { g with reads := g.reads ++ [b] }) :=
    fun g hg => List.mem_append_left _ hg
  exact hmodify.bind fun _ => reads_onMachine a _

theorem reads_invoke (handler : BitVec 64) :
    Preserves (fun g : Guest => a ∈ g.reads) (invoke handler) := fun _ hg => hg

theorem reads_callHandler (access : Access) (handler : BitVec 64) :
    Preserves (fun g : Guest => a ∈ g.reads) (callHandler env access handler) := by
  unfold callHandler
  refine Preserves.ite ?_ (reads_invoke a handler)
  refine (reads_onMachine a _).bind fun rdi => (reads_onMachine a _).bind fun rsi => ?_
  exact (reads_onMachine a _).bind fun _ => reads_invoke a _

/-- **a number that passes the bound has its entry read** -/
theorem reads_dispatch {n : BitVec 32} {g g' : Guest} (hn : n.toNat ≤ ssdtSize)
    (h : (dispatchHandler env n).run g = .ret () g') :
    Ssdt.entries ssdtAddress n.toNat ∈ g'.reads := by
  unfold dispatchHandler at h
  rw [if_neg (not_gt_ssdtSize hn)] at h
  obtain ⟨access, g₁, h₁, h⟩ := bind_eq_ret.mp h
  have hread : Ssdt.entries ssdtAddress n.toNat ∈ g₁.reads := by
    unfold readQword at h₁
    rw [bind_of_ret (run_modify _ _)] at h₁
    exact (reads_onMachine _ _).of_ret (List.mem_append_right _ List.mem_cons_self) h₁
  refine Preserves.of_ret (P := fun g : Guest => Ssdt.entries ssdtAddress n.toNat ∈ g.reads) ?_ hread h
  refine (reads_onMachine _ _).bind fun entry => Preserves.ite (reads_onMachine _ _) ?_
  refine (reads_readQword _ _).bind fun access => (reads_onMachine _ _).bind fun handler => ?_
  exact reads_callHandler _ _ _

end

/-! ## the lookup -/

section
variable {env : GuestEnv} {g : Guest} {n : BitVec 32}

theorem dispatch_run_outside (hn : ssdtSize < n.toNat) : (dispatchHandler env n).run g
    = (onMachine (logError "out of bounds syscall number: %d" [.int (n.setWidth 64)])).run g := by
  have hgt : n > BitVec.ofNat 32 ssdtSize := by
    rw [gt_iff_lt, BitVec.lt_def]
    exact hn
  unfold dispatchHandler
  rw [if_pos hgt]

/-- **a dispatch is the lookup of the table's entry**, but for the number `SSDT_SIZE` -/
theorem dispatchesSlot (ht : SsdtTables env.caps mappedSlot g.machine) (hn : n.toNat ≠ ssdtSize) :
    ∃ g', (dispatchHandler env n).run g = .ret () g' ∧
      DispatchesSlot n (tableEntry g.machine.mem n) g g' := by
  rcases Nat.lt_or_gt_of_ne hn with hlt | hgt
  · have hinside : ∀ a ∈ g.reads ++ [Ssdt.entries ssdtAddress n.toNat], a ∈ g.reads ∨
        ∃ k < ssdtSize, a = Ssdt.entries ssdtAddress k := by
      intro a ha
      rcases List.mem_append.mp ha with ha | ha
      · exact Or.inl ha
      · exact Or.inr ⟨n.toNat, hlt, List.mem_singleton.mp ha⟩
    by_cases he : tableEntry g.machine.mem n = 0#64
    · have hno : ¬ HasHandler n (tableEntry g.machine.mem n) := fun h => h.2 he
      obtain ⟨g', hrun, -, -, hi, hr, hlog⟩ := dispatch_mapped_null ht hlt he
      refine ⟨g', hrun, ?_, fun _ => ?_, ?_⟩
      · rw [if_neg hno, hi, List.append_nil]
      · rw [hlog, dispatchError, if_pos hlt]
      · rw [hr]
        exact hinside
    · have hyes : HasHandler n (tableEntry g.machine.mem n) := ⟨hlt, he⟩
      obtain ⟨g', hrun, -, -, hi, hr⟩ := dispatch_mapped ht hlt he
      refine ⟨g', hrun, ?_, fun h => absurd hyes h, ?_⟩
      · rw [if_pos hyes, hi]
        rfl
      · rw [hr]
        intro a ha
        rcases List.mem_append.mp ha with ha | ha
        · exact hinside a ha
        · exact Or.inr ⟨n.toNat, hlt, List.mem_singleton.mp ha⟩
  · have hno : ¬ HasHandler n (tableEntry g.machine.mem n) := fun h => absurd h.1 (by omega)
    refine ⟨_, (dispatch_run_outside hgt).trans (run_onMachine (run_logError _ _ _)), ?_, fun _ => ?_,
      fun a ha => Or.inl ha⟩
    · rw [if_neg hno, List.append_nil]
    · rw [dispatchError, if_neg (by omega)]

end

/-- after the calls `cs`, the dispatch of `n` is the lookup in the map they make -/
def DispatchesMap (env : GuestEnv) (s : Machine) (cs : List SetCall) (n : BitVec 32) : Prop :=
  ∃ s₁ g', (setAll cs).run s = .ret () s₁ ∧
    (dispatchHandler env n).run (Guest.init s₁) = .ret () g' ∧
    DispatchesSlot n (lastHandler cs n) (Guest.init s₁) g'

/-- **`dispatch_handler` looks a number up exactly if it is not `SSDT_SIZE`** -/
theorem dispatch_map_iff (env : GuestEnv) (s : Machine) (cs : List SetCall) (n : BitVec 32)
    (ht : SsdtTables env.caps mappedSlot s)
    (hempty : ∀ k < ssdtSize, s.mem.load64 (Ssdt.entries ssdtAddress k) = 0#64) :
    DispatchesMap env s cs n ↔ n.toNat ≠ ssdtSize := by
  constructor
  · rintro ⟨s₁, g', -, hrun, hslot⟩ hn
    have hread := reads_dispatch hn.le hrun
    rw [hn] at hread
    rcases hslot.inside _ hread with h | ⟨k, hk, h⟩
    · cases h
    · rw [Ssdt.entries_eq, Ssdt.entries_eq] at h
      omega
  · intro hn
    have ht₁ := ssdtTables_setAll cs ht
    obtain ⟨g', hrun, hslot⟩ := @dispatchesSlot env
      (Guest.init { s with mem := cs.foldl storeEntry s.mem }) n ht₁ hn
    refine ⟨_, g', setAll_eq cs s, hrun, ?_⟩
    by_cases hlt : n.toNat < ssdtSize
    · have hentry : tableEntry (cs.foldl storeEntry s.mem) n = lastHandler cs n := by
        rw [load_storeEntries cs s.mem n hlt, tableEntry, hempty _ hlt]
        rfl
      rw [← hentry]
      exact hslot
    · -- without a slot it does not matter what is registered
      have hno : ∀ h, ¬ HasHandler n h := fun h hh => hlt hh.1
      refine ⟨?_, fun _ => hslot.reported (hno _), hslot.inside⟩
      rw [if_neg (hno _)]
      have hi := hslot.invoked
      rwa [if_neg (hno _)] at hi

theorem dispatch_map_iff_configured :
    ∃ s, (configureVmcs sampleImage cpuDataAddress).run readyMachine = .ret () s ∧
      (DispatchesMap plainEnv s [⟨7#32, 0x100000#64⟩, ⟨512#32, 0x200000#64⟩] 7#32 ↔
        (7#32).toNat ≠ ssdtSize) := by
  obtain ⟨s, hrun, -, ht, hempty⟩ := configured_zero
  exact ⟨s, hrun, dispatch_map_iff plainEnv s _ 7#32 ht hempty⟩

/-- **number `SSDT_SIZE` is looked up behind the table** -/
theorem dispatch_reads_behind : ¬ ∀ (env : GuestEnv) (s : Machine) (cs : List SetCall) (n : BitVec 32),
    SsdtTables env.caps mappedSlot s →
    (∀ k < ssdtSize, s.mem.load64 (Ssdt.entries ssdtAddress k) = 0#64) → DispatchesMap env s cs n := by
  intro h
  obtain ⟨s, -, -, ht, hempty⟩ := configured_zero
  obtain ⟨s₁, g', -, hrun, hslot⟩ := h plainEnv s [] 512#32 ht hempty
  rcases hslot.inside _ (reads_dispatch le_rfl hrun) with hread | ⟨k, hk, hread⟩
  · cases hread
  · have hn : (512#32).toNat = ssdtSize := rfl
    rw [hn, Ssdt.entries_eq, Ssdt.entries_eq] at hread
    omega

end HyperC
