import HyperC.Vmm.EptTables

/-!
# The tables map the first 4 GiB to themselves

`UpperTables` says that the entries above the last level form the tree the code means to build:
`pml4[0]` points to `pdpt`, `pdpt[i]` to the `i`-th page directory and `pds[i]` to the `i`-th page
table.  In such a tree the walk of an address below 4 GiB is decided by ONE leaf, the one with the
number of the address's page.

* `eptWalk_leaf`, `eptPath_leaf`   the walk ends at that leaf, and what it visits before;
* `eptWalk_stops`                  or above it, when the entries there may be misconfigured;
* `upperTables_build`              clean memory is built into such a tree;
* `eptWalk_identity`, `eptWalk_above`   the leaves of clean memory map every page to itself, and
                                   nothing is mapped from 4 GiB on;
* `initialize_identity_map`        both together, for zeroed memory.
-/

namespace HyperC
open Bits Epts Ept Walk

def upperAttrs : Attrs := ⟨true, true, true, 0⟩

/-- the entries above the last level are the tree over the flat arrays -/
structure UpperTables (caps : Caps) (epts : ℕ) (m : Mem) : Prop where
  pml4 : decode caps 3 (m.load64 (pml4 epts 0)) = .table (pdpt epts 0) upperAttrs
  pdpt : ∀ i < 4, decode caps 2 (m.load64 (pdpt epts i)) = .table (pds epts (i * 512)) upperAttrs
  pds : ∀ i < 2048, decode caps 1 (m.load64 (pds epts i)) = .table (pts epts (i * 512)) upperAttrs

/-- the entries the builder sets had none of the bits it keeps -/
structure CleanTables (epts : ℕ) (m : Mem) : Prop where
  pml4 : CleanUpper (m.load64 (pml4 epts 0))
  pdpt : ∀ i < 4, CleanUpper (m.load64 (pdpt epts i))
  pds : ∀ i < 2048, CleanUpper (m.load64 (pds epts i))
  pts : ∀ i < 1048576, CleanLeaf (m.load64 (pts epts i))

/-! ## the EPT pointer -/

theorem eptpOf_eq (epts : ℕ) : eptpOf epts = setField 12 (setField 3 (setField 0 (0#64) 6#3) 3#3)
    ((BitVec.ofNat 64 epts >>> 12).setWidth 36 : BitVec 36) := rfl

theorem eptp_walkLength (epts : ℕ) : (field 3 3 (eptpOf epts)).toNat = 3 := by
  rw [eptpOf_eq, field_setField_disjoint _ _ _ _ (by norm_num),
    field_setField_same _ _ _ (by norm_num)]
  rfl

theorem eptp_frame (epts : ℕ) (hal : epts % 4096 = 0) (hlt : epts < 2 ^ 48) :
    frame (eptpOf epts) = pml4 epts 0 := by
  rw [frame, eptpOf_eq, field_setField_same _ _ _ (by norm_num), BitVec.toNat_setWidth,
    BitVec.toNat_ushiftRight, BitVec.toNat_ofNat, Nat.shiftRight_eq_div_pow, pml4_eq]
  omega

/-! ## walks in the tree -/

section
variable {caps : Caps} {epts gpa : ℕ} {m : Mem}

private theorem slot_pml4 (h : gpa < 2 ^ 39) : slotAddr 3 (pml4 epts 0) gpa = pml4 epts 0 := by
  have hi : index 3 gpa = 0 := by
    simp only [index, span]
    omega
  rw [slotAddr, hi]
  rfl

private theorem slot_pdpt : slotAddr 2 (pdpt epts 0) gpa = pdpt epts (index 2 gpa) := rfl

private theorem slot_pds (h : gpa < 2 ^ 32) :
    slotAddr 1 (pds epts (index 2 gpa * 512)) gpa = pds epts (gpa / 2 ^ 21) := by
  simp only [slotAddr, pds_eq, index, span]
  omega

private theorem slot_pts :
    slotAddr 0 (pts epts (gpa / 2 ^ 21 * 512)) gpa = pts epts (gpa / 4096) := by
  simp only [slotAddr, pts_eq, index, span]
  omega

theorem index_two_lt (h : gpa < 2 ^ 32) : index 2 gpa < 4 := by
  simp only [index, span]
  omega

/-! the walk, one level further down each time -/

theorem eptWalk_pml4 (hal : epts % 4096 = 0) (hlt : epts < 2 ^ 48) :
    eptWalk caps m (eptpOf epts) gpa
      = resolve (format caps) (reads m) 3 (m.load64 (pml4 epts (index 3 gpa))) allRights gpa := by
  rw [eptWalk, eptp_walkLength, eptp_frame epts hal hlt, walk_of_ok rfl]
  rfl

theorem eptWalk_pdpt (hal : epts % 4096 = 0) (hlt : epts < 2 ^ 48)
    (h3 : decode caps 3 (m.load64 (pml4 epts 0)) = .table (pdpt epts 0) upperAttrs)
    (h : gpa < 2 ^ 39) : eptWalk caps m (eptpOf epts) gpa
      = resolve (format caps) (reads m) 2 (m.load64 (pdpt epts (index 2 gpa))) upperAttrs gpa := by
  have hi : index 3 gpa = 0 := by
    simp only [index, span]
    omega
  rw [eptWalk_pml4 hal hlt, hi, resolve_table h3, walk_of_ok rfl, slot_pdpt]
  rfl

theorem eptWalk_pds (hal : epts % 4096 = 0) (hlt : epts < 2 ^ 48)
    (h3 : decode caps 3 (m.load64 (pml4 epts 0)) = .table (pdpt epts 0) upperAttrs)
    (h2 : ∀ i < 4, decode caps 2 (m.load64 (pdpt epts i)) = .table (pds epts (i * 512)) upperAttrs)
    (h : gpa < 2 ^ 32) : eptWalk caps m (eptpOf epts) gpa
      = resolve (format caps) (reads m) 1 (m.load64 (pds epts (gpa / 2 ^ 21))) upperAttrs gpa := by
  rw [eptWalk_pdpt hal hlt h3 (by omega), resolve_table (h2 _ (index_two_lt h)), walk_of_ok rfl,
    slot_pds h]
  rfl

/-- **in the tree one leaf decides the walk** -/
theorem eptWalk_leaf (hu : UpperTables caps epts m) (hal : epts % 4096 = 0) (hlt : epts < 2 ^ 48)
    (h : gpa < 2 ^ 32) : eptWalk caps m (eptpOf epts) gpa
      = resolve (format caps) (reads m) 0 (m.load64 (pts epts (gpa / 4096))) upperAttrs gpa := by
  rw [eptWalk_pds hal hlt hu.pml4 hu.pdpt h, resolve_table (hu.pds _ (by omega)), walk_of_ok rfl,
    slot_pts]
  rfl

/-- **a misconfigured leaf stops the walk**, where the entries above it point on or are misconfigured -/
theorem eptWalk_stops (hal : epts % 4096 = 0) (hlt : epts < 2 ^ 48) (h : gpa < 2 ^ 32)
    (h3 : decode caps 3 (m.load64 (pml4 epts 0)) = .table (pdpt epts 0) upperAttrs ∨
      decode caps 3 (m.load64 (pml4 epts 0)) = .stop .misconfigured)
    (h2 : decode caps 2 (m.load64 (pdpt epts (index 2 gpa)))
        = .table (pds epts (index 2 gpa * 512)) upperAttrs ∨
      decode caps 2 (m.load64 (pdpt epts (index 2 gpa))) = .stop .misconfigured)
    (h1 : decode caps 1 (m.load64 (pds epts (gpa / 2 ^ 21)))
        = .table (pts epts (gpa / 2 ^ 21 * 512)) upperAttrs ∨
      decode caps 1 (m.load64 (pds epts (gpa / 2 ^ 21))) = .stop .misconfigured)
    (h0 : decode caps 0 (m.load64 (pts epts (gpa / 4096))) = .stop .misconfigured) :
    eptWalk caps m (eptpOf epts) gpa = .fault .misconfigured := by
  have hi : index 3 gpa = 0 := by
    simp only [index, span]
    omega
  rw [eptWalk_pml4 hal hlt, hi]
  rcases h3 with h3 | h3
  swap
  · exact resolve_stop h3
  rw [resolve_table h3, walk_of_ok rfl, slot_pdpt]
  rcases h2 with h2 | h2
  swap
  · exact resolve_stop h2
  rw [resolve_table h2, walk_of_ok rfl, slot_pds h]
  rcases h1 with h1 | h1
  swap
  · exact resolve_stop h1
  rw [resolve_table h1, walk_of_ok rfl, slot_pts]
  exact resolve_stop h0

theorem eptPath_leaf (hu : UpperTables caps epts m) (hal : epts % 4096 = 0) (hlt : epts < 2 ^ 48)
    (h : gpa < 2 ^ 32) : eptPath caps m (eptpOf epts) gpa
      = [⟨3, pml4 epts 0, m.load64 (pml4 epts 0)⟩,
        ⟨2, pdpt epts (index 2 gpa), m.load64 (pdpt epts (index 2 gpa))⟩,
        ⟨1, pds epts (gpa / 2 ^ 21), m.load64 (pds epts (gpa / 2 ^ 21))⟩,
        ⟨0, pts epts (gpa / 4096), m.load64 (pts epts (gpa / 4096))⟩] := by
  have h21 : gpa / 2 ^ 21 < 2048 := by omega
  have e3 : slotAddr 3 (pml4 epts 0) gpa = pml4 epts 0 := slot_pml4 (by omega)
  have e1 : slotAddr 1 (pds epts (index 2 gpa * 512)) gpa = pds epts (gpa / 2 ^ 21) := slot_pds h
  rw [eptPath, eptp_walkLength, eptp_frame epts hal hlt,
    path_table rfl (by rw [e3]; exact hu.pml4), e3,
    path_table rfl (by rw [slot_pdpt]; exact hu.pdpt _ (index_two_lt h)), slot_pdpt,
    path_table rfl (by rw [e1]; exact hu.pds _ h21), e1, path_zero rfl, slot_pts]

end

/-! ## the tables that clean memory is built into -/

section
variable {caps : Caps} {epts gpa : ℕ} {m : Mem}

theorem decode_pml4_build (hal : epts % 4096 = 0)
    (hend : epts + extendedPagingTablesT.size ≤ 2 ^ 48) (hc : CleanUpper (m.load64 (pml4 epts 0))) :
    decode caps 3 ((buildTables epts m).load64 (pml4 epts 0)) = .table (pdpt epts 0) upperAttrs := by
  rw [Epts.size_eq] at hend
  rw [load_pml4, decode_upper hc (by norm_num) (by simp only [pdpt_eq]; omega)
    (by simp only [pdpt_eq]; omega)]
  rfl

theorem decode_pdpt_build (hal : epts % 4096 = 0)
    (hend : epts + extendedPagingTablesT.size ≤ 2 ^ 48) {i : ℕ} (hi : i < 4)
    (hc : CleanUpper (m.load64 (pdpt epts i))) :
    decode caps 2 ((buildTables epts m).load64 (pdpt epts i))
      = .table (pds epts (i * 512)) upperAttrs := by
  have e : tableSize = 512 := rfl
  rw [Epts.size_eq] at hend
  rw [load_pdpt _ _ i hi, decode_upper hc (by norm_num) (by simp only [pds_eq, e]; omega)
    (by simp only [pds_eq, e]; omega)]
  rfl

theorem decode_pds_build (hal : epts % 4096 = 0)
    (hend : epts + extendedPagingTablesT.size ≤ 2 ^ 48) {i : ℕ} (hi : i < 2048)
    (hc : CleanUpper (m.load64 (pds epts i))) :
    decode caps 1 ((buildTables epts m).load64 (pds epts i))
      = .table (pts epts (i * 512)) upperAttrs := by
  have e : tableSize = 512 := rfl
  rw [Epts.size_eq] at hend
  rw [load_pds _ _ i hi, decode_upper hc (by norm_num) (by simp only [pts_eq, e]; omega)
    (by simp only [pts_eq, e]; omega)]
  rfl

theorem upperTables_build (hc : CleanTables epts m) (hal : epts % 4096 = 0)
    (hend : epts + extendedPagingTablesT.size ≤ 2 ^ 48) :
    UpperTables caps epts (buildTables epts m) :=
  ⟨decode_pml4_build hal hend hc.pml4, fun i hi => decode_pdpt_build hal hend hi (hc.pdpt i hi),
    fun i hi => decode_pds_build hal hend hi (hc.pds i hi)⟩

theorem upperTables_congr {m' : Mem} (hu : UpperTables caps epts m)
    (h : ∀ x, epts ≤ x → x < epts + extendedPagingTablesT.size → m' x = m x) :
    UpperTables caps epts m' := by
  rw [Epts.size_eq] at h
  refine ⟨?_, fun i hi => ?_, fun i hi => ?_⟩
  · rw [Mem.load64_congr fun k _ => h _ (by simp only [pml4_eq]; omega) (by simp only [pml4_eq]; omega)]
    exact hu.pml4
  · rw [Mem.load64_congr fun k _ => h _ (by simp only [pdpt_eq]; omega) (by simp only [pdpt_eq]; omega)]
    exact hu.pdpt i hi
  · rw [Mem.load64_congr fun k _ => h _ (by simp only [pds_eq]; omega) (by simp only [pds_eq]; omega)]
    exact hu.pds i hi

/-- **below 4 GiB every address is mapped to itself** -/
theorem eptWalk_identity (hc : CleanTables epts m) (hal : epts % 4096 = 0)
    (hend : epts + extendedPagingTablesT.size ≤ 2 ^ 48) (h : gpa < 2 ^ 32) :
    eptWalk caps (buildTables epts m) (eptpOf epts) gpa = .mapped gpa identityAttrs := by
  have hp : gpa / 4096 < 1048576 := by omega
  have e : pageSize = 4096 := rfl
  have hlt : epts < 2 ^ 48 := by rw [Epts.size_eq] at hend; omega
  have hd : decode caps 0 ((buildTables epts m).load64 (pts epts (gpa / 4096)))
      = .page (gpa / 4096 * pageSize) identityAttrs := by
    rw [load_pts _ _ _ hp, decode_pts (hc.pts _ hp) (by rw [e]; omega) (by rw [e]; omega)]
  have ha : gpa / 4096 * pageSize + gpa % span 0 = gpa := by
    simp only [e, span]
    omega
  rw [eptWalk_leaf (upperTables_build hc hal hend) hal hlt h, resolve_page hd, ha]
  rfl

/-- the upper halves of the two top tables hold nothing -/
structure EmptyAbove (epts : ℕ) (m : Mem) : Prop where
  pml4 : ∀ i, 1 ≤ i → i < 512 → present (m.load64 (Epts.pml4 epts i)) = false
  pdpt : ∀ i, 4 ≤ i → i < 512 → present (m.load64 (Epts.pdpt epts i)) = false

theorem emptyAbove_build (he : EmptyAbove epts m) : EmptyAbove epts (buildTables epts m) := by
  refine ⟨fun i h1 h2 => ?_, fun i h1 h2 => ?_⟩
  · rw [load_pml4_stale _ _ _ h1 h2]
    exact he.pml4 i h1 h2
  · rw [load_pdpt_stale _ _ _ h1 h2]
    exact he.pdpt i h1 h2

/-- **in a tree that is empty above, from 4 GiB on the walk ends at an entry without access bits** -/
theorem eptWalk_empty (hu : UpperTables caps epts m) (he : EmptyAbove epts m) (hal : epts % 4096 = 0)
    (hlt : epts < 2 ^ 48) (h1 : 2 ^ 32 ≤ gpa) (h2 : gpa < 2 ^ 48) :
    eptWalk caps m (eptpOf epts) gpa = .fault .notPresent ∧
      ∃ v, (eptPath caps m (eptpOf epts) gpa).getLast? = some v ∧ present v.entry = false := by
  rw [eptWalk, eptPath, eptp_walkLength, eptp_frame epts hal hlt]
  have hs : slotAddr 3 (pml4 epts 0) gpa = pml4 epts (index 3 gpa) := rfl
  have hi3 : index 3 gpa < 512 := index_lt 3 gpa
  by_cases h39 : gpa < 2 ^ 39
  · -- below 512 GiB the page-directory-pointer table is reached, past its fourth entry
    have hi : index 3 gpa = 0 := by
      simp only [index, span]
      omega
    have hj : 4 ≤ index 2 gpa ∧ index 2 gpa < 512 := by
      simp only [index, span]
      omega
    have hnp := he.pdpt _ hj.1 hj.2
    have hd : decode caps 2 (m.load64 (slotAddr 2 (pdpt epts 0) gpa)) = .stop .notPresent :=
      decode_not_present (by rw [slot_pdpt]; exact hnp)
    rw [walk_of_ok rfl, path_table rfl (by rw [hs, hi]; exact hu.pml4), hs, hi,
      resolve_table hu.pml4, walk_of_ok rfl, resolve_stop hd, path_stop rfl hd]
    exact ⟨rfl, _, rfl, by rw [slot_pdpt]; exact hnp⟩
  · have hi : 1 ≤ index 3 gpa := by
      simp only [index, span]
      omega
    have hnp := he.pml4 _ hi hi3
    have hd : decode caps 3 (m.load64 (slotAddr 3 (pml4 epts 0) gpa)) = .stop .notPresent :=
      decode_not_present (by rw [hs]; exact hnp)
    rw [walk_of_ok rfl, resolve_stop hd, path_stop rfl hd]
    exact ⟨rfl, _, rfl, by rw [hs]; exact hnp⟩

theorem eptWalk_above (hc : CleanTables epts m) (he : EmptyAbove epts m) (hal : epts % 4096 = 0)
    (hend : epts + extendedPagingTablesT.size ≤ 2 ^ 48) (h1 : 2 ^ 32 ≤ gpa) (h2 : gpa < 2 ^ 48) :
    eptWalk caps (buildTables epts m) (eptpOf epts) gpa = .fault .notPresent ∧
      ∃ v, (eptPath caps (buildTables epts m) (eptpOf epts) gpa).getLast? = some v ∧
        present v.entry = false := by
  have hlt : epts < 2 ^ 48 := by rw [Epts.size_eq] at hend; omega
  exact eptWalk_empty (upperTables_build hc hal hend) (emptyAbove_build he) hal hlt h1 h2

end

/-! ## zeroed memory -/

theorem cleanTables_of_zero {epts : ℕ} {m : Mem} (hz : m.ZeroOn epts extendedPagingTablesT.size) :
    CleanTables epts m := by
  rw [Epts.size_eq] at hz
  refine ⟨?_, fun i hi => ?_, fun i hi => ?_, fun i hi => ?_⟩
  · rw [hz.load64 (by simp only [pml4_eq]; omega) (by simp only [pml4_eq]; omega)]
    decide
  · rw [hz.load64 (by simp only [pdpt_eq]; omega) (by simp only [pdpt_eq]; omega)]
    decide
  · rw [hz.load64 (by simp only [pds_eq]; omega) (by simp only [pds_eq]; omega)]
    decide
  · rw [hz.load64 (by simp only [pts_eq]; omega) (by simp only [pts_eq]; omega)]
    decide

theorem emptyAbove_of_zero {epts : ℕ} {m : Mem} (hz : m.ZeroOn epts extendedPagingTablesT.size) :
    EmptyAbove epts m := by
  rw [Epts.size_eq] at hz
  refine ⟨fun i _ hi => ?_, fun i _ hi => ?_⟩
  · rw [hz.load64 (by simp only [pml4_eq]; omega) (by simp only [pml4_eq]; omega)]
    decide
  · rw [hz.load64 (by simp only [pdpt_eq]; omega) (by simp only [pdpt_eq]; omega)]
    decide

/-- **an identity map of the first 4 GiB**: the translation, the entries it visits, and the end of
every walk above -/
structure IdentityMap (caps : Caps) (epts : ℕ) (m : Mem) (eptp : BitVec 64) : Prop where
  mapped : ∀ gpa < 2 ^ 32, eptWalk caps m eptp gpa = .mapped gpa identityAttrs
  levels : ∀ gpa < 2 ^ 32, (eptPath caps m eptp gpa).map Visit.level = [3, 2, 1, 0]
  inside : ∀ gpa < 2 ^ 32, ∀ v ∈ eptPath caps m eptp gpa,
    epts ≤ v.addr ∧ v.addr + 8 ≤ epts + extendedPagingTablesT.size
  clean : ∀ gpa < 2 ^ 32, ∀ v ∈ eptPath caps m eptp gpa,
    reserved caps v.level v.entry = false ∧ (v.level ≠ 0 → large v.entry = false)
  above : ∀ gpa, 2 ^ 32 ≤ gpa → gpa < 2 ^ 48 → eptWalk caps m eptp gpa = .fault .notPresent ∧
    ∃ v, (eptPath caps m eptp gpa).getLast? = some v ∧ present v.entry = false

theorem identityMap_build {caps : Caps} {epts : ℕ} {m : Mem} (hc : CleanTables epts m)
    (he : EmptyAbove epts m) (hal : epts % 4096 = 0)
    (hend : epts + extendedPagingTablesT.size ≤ 2 ^ 48) :
    IdentityMap caps epts (buildTables epts m) (eptpOf epts) := by
  have hu : UpperTables caps epts (buildTables epts m) := upperTables_build hc hal hend
  have hlt : epts < 2 ^ 48 := by rw [Epts.size_eq] at hend; omega
  refine ⟨fun gpa h => eptWalk_identity hc hal hend h, fun gpa h => ?_, fun gpa h v hv => ?_,
    fun gpa h v hv => ?_, fun gpa h1 h2 => eptWalk_above hc he hal hend h1 h2⟩
  · rw [eptPath_leaf hu hal hlt h]
    rfl
  · have hi := index_two_lt h
    rw [eptPath_leaf hu hal hlt h] at hv
    simp only [List.mem_cons, List.not_mem_nil, or_false] at hv
    rw [Epts.size_eq]
    rcases hv with rfl | rfl | rfl | rfl
    · simp only [pml4_eq]; omega
    · simp only [pdpt_eq]; omega
    · simp only [pds_eq]; omega
    · simp only [pts_eq]; omega
  · have hi := index_two_lt h
    have hj : gpa / 2 ^ 21 < 2048 := by omega
    have hk : gpa / 4096 < 1048576 := by omega
    rw [eptPath_leaf hu hal hlt h] at hv
    simp only [List.mem_cons, List.not_mem_nil, or_false] at hv
    rcases hv with rfl | rfl | rfl | rfl
    · rw [load_pml4]
      exact ⟨reserved_upper hc.pml4, fun _ => by rw [large_built]; exact hc.pml4.2⟩
    · rw [load_pdpt _ _ _ hi]
      exact ⟨reserved_upper (hc.pdpt _ hi), fun _ => by rw [large_built]; exact (hc.pdpt _ hi).2⟩
    · rw [load_pds _ _ _ hj]
      exact ⟨reserved_upper (hc.pds _ hj), fun _ => by rw [large_built]; exact (hc.pds _ hj).2⟩
    · rw [load_pts _ _ _ hk]
      exact ⟨reserved_leaf (hc.pts _ hk), fun h0 => absurd rfl h0⟩

/-- **on zeroed memory the builder makes an identity map of the first 4 GiB**, at every page-aligned
address -/
theorem initialize_identity_map (caps : Caps) (epts : ℕ) (s : Machine) (hal : epts % 4096 = 0)
    (hend : epts + extendedPagingTablesT.size ≤ 2 ^ 48)
    (hz : s.mem.ZeroOn epts extendedPagingTablesT.size) :
    ∃ eptp s', (initializeExtendedPageTables epts).run s = .ret eptp s' ∧
      IdentityMap caps epts s'.mem eptp :=
  ⟨_, _, initializeExtendedPageTables_eq epts s,
    identityMap_build (cleanTables_of_zero hz) (emptyAbove_of_zero hz) hal hend⟩

theorem initialize_identity_map_boot :
    ∃ eptp s', (initializeExtendedPageTables (CpuData.epts cpuDataAddress)).run default
        = .ret eptp s' ∧
      IdentityMap ⟨true, true, true⟩ (CpuData.epts cpuDataAddress) s'.mem eptp :=
  initialize_identity_map ⟨true, true, true⟩ (CpuData.epts cpuDataAddress) default (by decide)
    (by decide) (fun _ _ _ => rfl)

end HyperC
