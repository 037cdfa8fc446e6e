import HyperC.Vmm.EptIdentity

/-!
# What the tables depend on besides the code

The memory that holds the tables is never cleared, and the builder sets only some entries of the
two top tables and only the named fields of an entry.  A walk therefore sees bits from before.

* `cleanWalk`, `walkAfter`   the translation the code means to build, and the one it builds on a
                             given machine;
* `NoStale`                  the prior memory has no bit that a walk can tell: the entries that are
                             set were clean, and nothing resolves below the others (`Walk.Dead`);
* `walk_inside`              the pages of the structure all lead somewhere, so an old entry that
                             points back into the structure is never dead;
* `build_clean_iff`          the built tables translate as meant exactly if `NoStale` holds, and
* `build_prior_iff`          a set of prior memories with a zeroed one gives one translation exactly
                             if `NoStale` holds of all of them;
* `build_depends_on_prior`   it does not hold of all memories.
-/

namespace HyperC
open Bits Epts Ept Walk

/-- the first 4 GiB mapped to themselves, and nothing above -/
def cleanWalk (gpa : ℕ) : Result Attrs Fault :=
  if gpa < 2 ^ 32 then .mapped gpa identityAttrs else .fault .notPresent

/-- the translation of `gpa` on the machine that `initialize_extended_page_tables` leaves -/
def walkAfter (caps : Caps) (epts : ℕ) (s : Machine) (gpa : ℕ) : Option (Result Attrs Fault) :=
  match (initializeExtendedPageTables epts).run s with
  | .ret eptp s' => some (eptWalk caps s'.mem eptp gpa)
  | .halt _ => none
  | .leave _ => none

theorem walkAfter_eq (caps : Caps) (epts : ℕ) (s : Machine) (gpa : ℕ) :
    walkAfter caps epts s gpa = some (eptWalk caps (buildTables epts s.mem) (eptpOf epts) gpa) := by
  rw [walkAfter, initializeExtendedPageTables_eq]

/-- a table that shares no byte with the structure -/
def Outside (epts b : ℕ) : Prop := b + 4096 ≤ epts ∨ epts + extendedPagingTablesT.size ≤ b

/-- prior memory without a bit that shows after the build -/
structure NoStale (caps : Caps) (epts : ℕ) (m : Mem) : Prop where
  clean : CleanTables epts m
  pml4 : ∀ i, 1 ≤ i → i < 512 →
    Dead (format caps) .notPresent (Outside epts) m.load64 3 (m.load64 (Epts.pml4 epts i))
  pdpt : ∀ i, 4 ≤ i → i < 512 →
    Dead (format caps) .notPresent (Outside epts) m.load64 2 (m.load64 (Epts.pdpt epts i))

section
variable {caps : Caps} {epts : ℕ} {m : Mem}

/-! ## tables inside the structure -/

theorem entry_inside (epts : ℕ) (m : Mem) (k : ℕ) (hk : k < 0x806) : ∃ flags addr e,
    (buildTables epts m).load64 (epts + 4096 * k) = built flags addr e ∧
      (flags = leafFlags ∨ flags = defaultFlags ∧ ∃ j < 0x806, addr = epts + 4096 * j) := by
  have e : tableSize = 512 := rfl
  by_cases h0 : k = 0
  · have ha : epts + 4096 * k = pml4 epts 0 := by simp only [pml4_eq]; omega
    rw [ha, load_pml4]
    exact ⟨_, _, _, rfl, Or.inr ⟨rfl, 1, by norm_num, rfl⟩⟩
  by_cases h1 : k = 1
  · have ha : epts + 4096 * k = pdpt epts 0 := by simp only [pdpt_eq]; omega
    rw [ha, load_pdpt _ _ 0 (by norm_num)]
    exact ⟨_, _, _, rfl, Or.inr ⟨rfl, 2, by norm_num, by simp only [pds_eq]; omega⟩⟩
  by_cases h6 : k < 6
  · have ha : epts + 4096 * k = pds epts ((k - 2) * 512) := by simp only [pds_eq]; omega
    rw [ha, load_pds _ _ _ (by omega)]
    exact ⟨_, _, _, rfl, Or.inr ⟨rfl, 6 + (k - 2) * 512, by omega, by simp only [pts_eq, e]; omega⟩⟩
  · have ha : epts + 4096 * k = pts epts ((k - 6) * 512) := by simp only [pts_eq]; omega
    rw [ha, load_pts _ _ _ (by omega)]
    exact ⟨_, _, _, rfl, Or.inl rfl⟩

/-- a walk through a present entry ends at more than nothing if the tables it points to do -/
private theorem walk_ne_notPresent {n b : ℕ} (hp : present (m.load64 b) = true)
    (ht : ∀ n' b' q, n = n' + 1 → decode caps n (m.load64 b) = .table b' q →
      ∀ p, walk (format caps) (reads m) n' b' p 0 ≠ .fault .notPresent) (p : Attrs) :
    walk (format caps) (reads m) n b p 0 ≠ .fault .notPresent := by
  have hs : slotAddr n b 0 = b := by
    rw [slotAddr, index, Nat.zero_div, Nat.zero_mod, Nat.mul_zero, Nat.add_zero]
  rw [walk_of_ok rfl, hs]
  intro hw
  cases hd : decode caps n (m.load64 b) with
  | stop f =>
    rw [resolve_stop hd, Result.fault.injEq] at hw
    exact decode_present hp (hw ▸ hd)
  | page b' q => cases (resolve_page hd).symm.trans hw
  | table b' q =>
    cases n with
    | zero => cases (decode_table_inv hd).1
    | succ n =>
      rw [resolve_table hd] at hw
      exact ht n b' q rfl hd _ hw

/-- **through a page of the structure the walk of address `0` ends at more than nothing** -/
theorem walk_inside (hal : epts % 4096 = 0) (hend : epts + extendedPagingTablesT.size ≤ 2 ^ 48)
    (n k : ℕ) (hk : k < 0x806) (p : Attrs) :
    walk (format caps) (reads (buildTables epts m)) n (epts + 4096 * k) p 0 ≠ .fault .notPresent := by
  have hsize := Epts.size_eq
  induction n generalizing k p with
  | zero =>
    obtain ⟨flags, addr, e, hload, hflags⟩ := entry_inside epts m k hk
    refine walk_ne_notPresent ?_ (fun n' b' q hn _ => by cases hn) p
    rw [hload]
    rcases hflags with rfl | ⟨rfl, -⟩
    · exact present_of_read read_built_leaf
    · exact present_of_read read_built_upper
  | succ n ih =>
    obtain ⟨flags, addr, e, hload, hflags⟩ := entry_inside epts m k hk
    rcases hflags with rfl | ⟨rfl, j, hj, rfl⟩
    · refine walk_ne_notPresent ?_ (fun n' b' q _ hd => ?_) p
      · rw [hload]
        exact present_of_read read_built_leaf
      · rw [hload] at hd
        exact absurd hd decode_leaf_ne_table
    · refine walk_ne_notPresent ?_ (fun n' b' q hn hd p' => ?_) p
      · rw [hload]
        exact present_of_read read_built_upper
      · -- the entry points to another page of the structure
        rw [hload] at hd
        obtain ⟨-, -, hb⟩ := decode_table_inv hd
        rw [frame_built _ _ _ (by omega) (by omega)] at hb
        cases hn
        rw [hb]
        exact ih j hj p'

theorem dead_build (hal : epts % 4096 = 0) (hend : epts + extendedPagingTablesT.size ≤ 2 ^ 48)
    (n : ℕ) (e : BitVec 64) : Dead (format caps) .notPresent (Outside epts) m.load64 n e ↔
      ∀ p gpa, resolve (format caps) (reads (buildTables epts m)) n e p gpa = .fault .notPresent := by
  have : Nonempty Attrs := ⟨allRights⟩
  refine dead_iff (fun n e b q _ hb i hi => ?_) (fun n e b q hd hb p => ?_) n e
  · show Except.ok _ = Except.ok _
    rw [Mem.load64_congr fun k hk => buildTables_outside epts m _ ?_]
    unfold Outside at hb
    omega
  · have hsize := Epts.size_eq
    have hfr := frame_mod e
    rw [← (decode_table_inv hd).2.2] at hfr
    simp only [Outside, not_or, Nat.not_le] at hb
    have hk : b = epts + 4096 * ((b - epts) / 4096) := by omega
    refine ⟨0, ?_⟩
    rw [hk]
    exact walk_inside hal hend n _ (by omega) p

/-! ## walks of built tables -/

/-- **without stale bits the tables translate as meant** -/
theorem build_clean (hs : NoStale caps epts m) (hal : epts % 4096 = 0)
    (hend : epts + extendedPagingTablesT.size ≤ 2 ^ 48) {gpa : ℕ} (h : gpa < 2 ^ 48) :
    eptWalk caps (buildTables epts m) (eptpOf epts) gpa = cleanWalk gpa := by
  have hlt : epts < 2 ^ 48 := by rw [Epts.size_eq] at hend; omega
  unfold cleanWalk
  by_cases h32 : gpa < 2 ^ 32
  · rw [if_pos h32, eptWalk_identity hs.clean hal hend h32]
  rw [if_neg h32]
  by_cases h39 : gpa < 2 ^ 39
  · have hi : 4 ≤ index 2 gpa := by
      simp only [index, span]
      omega
    have hdead := hs.pdpt _ hi (index_lt 2 gpa)
    rw [eptWalk_pdpt hal hlt (decode_pml4_build hal hend hs.clean.pml4) h39,
      load_pdpt_stale _ _ _ hi (index_lt 2 gpa)]
    exact (dead_build hal hend 2 _).mp hdead _ _
  · have hi : 1 ≤ index 3 gpa := by
      simp only [index, span]
      omega
    have hdead := hs.pml4 _ hi (index_lt 3 gpa)
    rw [eptWalk_pml4 hal hlt, load_pml4_stale _ _ _ hi (index_lt 3 gpa)]
    exact (dead_build hal hend 3 _).mp hdead _ _

/-- tables that translate as meant were built over clean entries, one level after the other -/
theorem cleanTables_of_walks (hal : epts % 4096 = 0)
    (hend : epts + extendedPagingTablesT.size ≤ 2 ^ 48)
    (h : ∀ gpa < 2 ^ 48, eptWalk caps (buildTables epts m) (eptpOf epts) gpa = cleanWalk gpa) :
    CleanTables epts m := by
  have hlt : epts < 2 ^ 48 := by rw [Epts.size_eq] at hend; omega
  have hid : ∀ gpa < 2 ^ 32, eptWalk caps (buildTables epts m) (eptpOf epts) gpa
      = .mapped gpa identityAttrs := fun gpa hg => by
    rw [h gpa (by omega), cleanWalk, if_pos hg]
  have hpml4 : CleanUpper (m.load64 (pml4 epts 0)) := by
    by_contra hc
    have hw := hid 0 (by norm_num)
    rw [eptWalk_pml4 hal hlt, show index 3 0 = 0 from rfl, load_pml4] at hw
    exact resolve_upper_dirty hc (by norm_num) _ _ _ hw
  have h3 : decode caps 3 ((buildTables epts m).load64 (pml4 epts 0))
      = .table (pdpt epts 0) upperAttrs := decode_pml4_build hal hend hpml4
  have hpdpt : ∀ i < 4, CleanUpper (m.load64 (pdpt epts i)) := by
    intro i hi
    by_contra hc
    have hw := hid (2 ^ 30 * i) (by omega)
    have hidx : index 2 (2 ^ 30 * i) = i := by
      simp only [index, span]
      omega
    rw [eptWalk_pdpt hal hlt h3 (by omega), hidx, load_pdpt _ _ i hi] at hw
    exact resolve_upper_dirty hc (by norm_num) _ _ _ hw
  have h2 : ∀ i < 4, decode caps 2 ((buildTables epts m).load64 (pdpt epts i))
      = .table (pds epts (i * 512)) upperAttrs :=
    fun i hi => decode_pdpt_build hal hend hi (hpdpt i hi)
  have hpds : ∀ i < 2048, CleanUpper (m.load64 (pds epts i)) := by
    intro i hi
    by_contra hc
    have hw := hid (2 ^ 21 * i) (by omega)
    rw [eptWalk_pds hal hlt h3 h2 (by omega), Nat.mul_div_cancel_left _ (by norm_num),
      load_pds _ _ i hi] at hw
    exact resolve_upper_dirty hc (by norm_num) _ _ _ hw
  have hu : UpperTables caps epts (buildTables epts m) :=
    ⟨h3, h2, fun i hi => decode_pds_build hal hend hi (hpds i hi)⟩
  refine ⟨hpml4, hpdpt, hpds, fun i hi => ?_⟩
  by_contra hc
  have hw := hid (4096 * i) (by omega)
  rw [eptWalk_leaf hu hal hlt (by omega), Nat.mul_div_cancel_left _ (by norm_num),
    load_pts _ _ i hi] at hw
  exact resolve_pts_dirty hc _ _ _ hw

/-- **the tables translate as meant exactly if no stale bit shows** -/
theorem build_clean_iff (hal : epts % 4096 = 0)
    (hend : epts + extendedPagingTablesT.size ≤ 2 ^ 48) :
    (∀ gpa < 2 ^ 48, eptWalk caps (buildTables epts m) (eptpOf epts) gpa = cleanWalk gpa) ↔
      NoStale caps epts m := by
  have hlt : epts < 2 ^ 48 := by rw [Epts.size_eq] at hend; omega
  refine ⟨fun h => ?_, fun hs gpa hg => build_clean hs hal hend hg⟩
  have hc := cleanTables_of_walks hal hend h
  refine ⟨hc, fun i h1 h2 => (dead_build hal hend 3 _).mpr fun p gpa => ?_,
    fun i h1 h2 => (dead_build hal hend 2 _).mpr fun p gpa => ?_⟩
  · -- the address below entry `i` of the top table with the low bits of `gpa`
    obtain ⟨gpa', hidx, hlow⟩ := exists_addr 3 i gpa h2
    have hidx' : index 3 (gpa' % 2 ^ 48) = i := by
      rw [← hidx]
      exact index_mod 3 gpa'
    have hlow' : gpa' % 2 ^ 48 % span 3 = gpa % span 3 := by
      rw [← hlow]
      simp only [span]
      omega
    have hge : ¬ gpa' % 2 ^ 48 < 2 ^ 32 := by
      simp only [index, span] at hidx'
      omega
    have hw := h (gpa' % 2 ^ 48) (Nat.mod_lt _ (by norm_num))
    rw [eptWalk_pml4 hal hlt, hidx', load_pml4_stale _ _ _ h1 h2, cleanWalk, if_neg hge,
      resolve_congr hlow'] at hw
    exact resolve_fault p hw
  · obtain ⟨gpa', hidx, hlow⟩ := exists_addr 2 i gpa h2
    have hidx' : index 2 (gpa' % 2 ^ 39) = i := by
      rw [← hidx]
      exact index_mod 2 gpa'
    have hlow' : gpa' % 2 ^ 39 % span 2 = gpa % span 2 := by
      rw [← hlow]
      simp only [span]
      omega
    have hlt39 : gpa' % 2 ^ 39 < 2 ^ 39 := Nat.mod_lt _ (by norm_num)
    have hge : ¬ gpa' % 2 ^ 39 < 2 ^ 32 := by
      simp only [index, span] at hidx'
      omega
    have hw := h (gpa' % 2 ^ 39) (by omega)
    rw [eptWalk_pdpt hal hlt (decode_pml4_build hal hend hc.pml4) hlt39, hidx',
      load_pdpt_stale _ _ _ h1 h2, cleanWalk, if_neg hge, resolve_congr hlow'] at hw
    exact resolve_fault p hw

end

/-! ## many prior memories -/

theorem noStale_of_zero {caps : Caps} {epts : ℕ} {m : Mem} (hal : epts % 4096 = 0)
    (hend : epts + extendedPagingTablesT.size ≤ 2 ^ 48)
    (hz : m.ZeroOn epts extendedPagingTablesT.size) : NoStale caps epts m := by
  refine (build_clean_iff hal hend).mp fun gpa hg => ?_
  unfold cleanWalk
  split
  · exact eptWalk_identity (cleanTables_of_zero hz) hal hend ‹_›
  · exact (eptWalk_above (cleanTables_of_zero hz) (emptyAbove_of_zero hz) hal hend (by omega) hg).1

/-- **the translation is the same whatever the memory held, for prior memories among which one was
zeroed, exactly if none of them has a stale bit that shows** -/
theorem build_prior_iff (caps : Caps) (epts : ℕ) (S : Set Machine) (z : Machine) (hz : z ∈ S)
    (hzero : z.mem.ZeroOn epts extendedPagingTablesT.size) (hal : epts % 4096 = 0)
    (hend : epts + extendedPagingTablesT.size ≤ 2 ^ 48) :
    (∀ s₁ ∈ S, ∀ s₂ ∈ S, ∀ gpa < 2 ^ 48,
        walkAfter caps epts s₁ gpa = walkAfter caps epts s₂ gpa) ↔
      ∀ s ∈ S, NoStale caps epts s.mem := by
  simp only [walkAfter_eq, Option.some.injEq]
  constructor
  · intro h s hs
    refine (build_clean_iff hal hend).mp fun gpa hg => ?_
    rw [h s hs z hz gpa hg]
    exact build_clean (noStale_of_zero hal hend hzero) hal hend hg
  · intro h s₁ h₁ s₂ h₂ gpa hg
    rw [build_clean (h s₁ h₁) hal hend hg, build_clean (h s₂ h₂) hal hend hg]

theorem build_prior_iff_boot :
    (∀ s₁ ∈ (Set.univ : Set Machine), ∀ s₂ ∈ (Set.univ : Set Machine), ∀ gpa < 2 ^ 48,
        walkAfter ⟨true, true, true⟩ (CpuData.epts cpuDataAddress) s₁ gpa
          = walkAfter ⟨true, true, true⟩ (CpuData.epts cpuDataAddress) s₂ gpa) ↔
      ∀ s ∈ (Set.univ : Set Machine),
        NoStale ⟨true, true, true⟩ (CpuData.epts cpuDataAddress) s.mem :=
  build_prior_iff ⟨true, true, true⟩ (CpuData.epts cpuDataAddress) Set.univ default trivial
    (fun _ _ _ => rfl) (by decide) (by decide)

/-- a machine whose memory holds a 1 GiB page in the fifth entry of the page-directory-pointer
table, and zeros elsewhere -/
def stalePage : Machine :=
  { (default : Machine) with
    mem := (default : Machine).mem.store64 (pdpt (CpuData.epts cpuDataAddress) 4) 0x87#64 }

/-- **the build does depend on the memory before it**: a stale page gives the guest a mapping of the
memory at `0` beyond 4 GiB -/
theorem build_depends_on_prior :
    ¬ ∀ s₁ s₂ : Machine, ∀ gpa < 2 ^ 48,
      walkAfter ⟨true, true, true⟩ (CpuData.epts cpuDataAddress) s₁ gpa
        = walkAfter ⟨true, true, true⟩ (CpuData.epts cpuDataAddress) s₂ gpa := by
  intro h
  have hs : NoStale ⟨true, true, true⟩ (CpuData.epts cpuDataAddress) stalePage.mem := by
    refine (build_clean_iff (by decide) (by decide)).mp fun gpa hg => ?_
    have hw := h stalePage default gpa hg
    rw [walkAfter_eq, walkAfter_eq, Option.some.injEq] at hw
    rw [hw]
    exact build_clean (noStale_of_zero (by decide) (by decide) fun _ _ _ => rfl) (by decide)
      (by decide) hg
  have hd := hs.pdpt 4 le_rfl (by norm_num)
  have hpage : decode ⟨true, true, true⟩ 2 0x87#64 = .page 0 ⟨true, true, true, 0⟩ := rfl
  rw [stalePage, Mem.load64_store64_same] at hd
  simp only [Dead, format, hpage] at hd

end HyperC
