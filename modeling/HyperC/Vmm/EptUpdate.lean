import HyperC.Lib.LastWrite
import HyperC.Vmm.EptIdentity

/-!
# Runs of `update_gpa_access_rights`

After the tables are built, the hypervisor changes the rights of single pages.  A leaf has two
halves: the bits under `copyMask`, which a call overwrites, and the rest, with the frame number and
the reserved bits, which no call touches.

* `RightsUpdate`, `updateAll`   a call for a page below 4 GiB, and a run of calls;
* `leaf_copied`, `leaf_kept`    after a run the first half of a leaf is that of the last call for its
                                page, and the second half is the builder's;
* `RightsMap`, `update_rights_map`   the translation and its rights after any run.
-/

namespace HyperC
open Code Bits Epts Ept Walk

/-- a call of `update_gpa_access_rights` for a page below 4 GiB -/
structure RightsUpdate where
  gpa : BitVec 64
  flags : BitVec 64
  aligned : gpa.toNat % pageSize = 0
  below : gpa.toNat < 2 ^ 32

namespace RightsUpdate

def page (u : RightsUpdate) : ℕ := u.gpa.toNat / pageSize

end RightsUpdate

/-- the flags of the last call for a page, or the builder's -/
def lastFlags (us : List RightsUpdate) (page : ℕ) : BitVec 64 :=
  ((LastWrite.last (fun u => u.page == page) us).map RightsUpdate.flags).getD leafFlags

def updateAll (epts : ℕ) (us : List RightsUpdate) : Host Unit :=
  each (fun u => updateGpaAccessRights epts u.gpa u.flags) us

/-- the effect of a run of calls on memory -/
def updateLeaves (epts : ℕ) (us : List RightsUpdate) (m : Mem) : Mem :=
  us.foldl (fun m u => updateLeaf epts u.gpa u.flags m) m

theorem updateAll_eq (epts : ℕ) (us : List RightsUpdate) (s : Machine) :
    (updateAll epts us).run s = .ret () { s with mem := updateLeaves epts us s.mem } :=
  each_mem (fun u _ s => updateGpaAccessRights_eq epts u.gpa u.flags u.aligned s) s

/-! ## one call -/

theorem load_updateLeaf_gpa (epts : ℕ) (gpa flags : BitVec 64) (m : Mem) (page : ℕ) :
    (updateLeaf epts gpa flags m).load64 (pts epts page)
      = if gpa.toNat / pageSize == page then merge copyMask (m.load64 (pts epts page)) flags
        else m.load64 (pts epts page) := by
  by_cases h : gpa.toNat / pageSize = page
  · subst h
    rw [if_pos (beq_self_eq_true _)]
    exact Mem.load64_update64_same _ _ _
  · rw [if_neg (by simpa using h)]
    refine Mem.load64_update64_disjoint _ _ _ _ ?_
    simp only [pts_eq]
    omega

section
variable (epts : ℕ) (u : RightsUpdate) (m : Mem)

/-- **a call only touches the eight bytes of its leaf** -/
theorem updateLeaf_outside (x : ℕ) (h : x < pts epts u.page ∨ pts epts u.page + 8 ≤ x) :
    updateLeaf epts u.gpa u.flags m x = m x :=
  Mem.update64_outside _ _ _ _ h

theorem load_updateLeaf (page : ℕ) : (updateLeaf epts u.gpa u.flags m).load64 (pts epts page)
    = if u.page == page then merge copyMask (m.load64 (pts epts page)) u.flags
      else m.load64 (pts epts page) :=
  load_updateLeaf_gpa epts u.gpa u.flags m page

theorem load_updateLeaf_upper (a : ℕ) (h : a + 8 ≤ pts epts 0) :
    (updateLeaf epts u.gpa u.flags m).load64 a = m.load64 a :=
  Mem.load64_update64_disjoint _ _ _ _ (Or.inl (by simp only [pts_eq] at h ⊢; omega))

end

/-! ## a run of calls -/

section
variable (epts : ℕ) (us : List RightsUpdate) (m : Mem)

theorem load_updateLeaves_upper (a : ℕ) (h : a + 8 ≤ pts epts 0) :
    (updateLeaves epts us m).load64 a = m.load64 a := by
  unfold updateLeaves
  induction us generalizing m with
  | nil => rfl
  | cons u us ih => rw [List.foldl_cons, ih, load_updateLeaf_upper _ _ _ _ h]

/-- **the copied half of a leaf is that of the last call for its page** -/
theorem leaf_copied (page : ℕ) (h0 : m.load64 (pts epts page) &&& copyMask = leafFlags &&& copyMask) :
    (updateLeaves epts us m).load64 (pts epts page) &&& copyMask = lastFlags us page &&& copyMask := by
  have hstep : ∀ u ∈ us, ∀ m : Mem,
      (updateLeaf epts u.gpa u.flags m).load64 (pts epts page) &&& copyMask
        = if u.page == page then u.flags &&& copyMask else m.load64 (pts epts page) &&& copyMask := by
    intro u _ m
    rw [load_updateLeaf, apply_ite (· &&& copyMask), merge_and_mask]
  have hrun := LastWrite.foldl_view (fun m : Mem => m.load64 (pts epts page) &&& copyMask)
    us hstep m
  simp only [h0] at hrun
  show (us.foldl _ m).load64 (pts epts page) &&& copyMask = _
  rw [hrun, lastFlags]
  cases LastWrite.last (fun u : RightsUpdate => u.page == page) us <;> rfl

/-- **the other half is never touched** -/
theorem leaf_kept (page : ℕ) : (updateLeaves epts us m).load64 (pts epts page) &&& ~~~ copyMask
    = m.load64 (pts epts page) &&& ~~~ copyMask := by
  unfold updateLeaves
  induction us generalizing m with
  | nil => rfl
  | cons u us ih =>
    rw [List.foldl_cons, ih, load_updateLeaf]
    split
    · rw [merge_and_not_mask]
    · rfl

end

/-! ## the rights after a run -/

theorem attrs_congr {a b : BitVec 64} (h : a &&& copyMask = b &&& copyMask) : attrs a = attrs b := by
  unfold attrs
  rw [getLsbD_congr 0 h (by decide), getLsbD_congr 1 h (by decide),
    getLsbD_congr 2 h (by decide), field_congr 3 3 h (by decide)]

theorem copied_field {a b : BitVec 64} (h : a &&& copyMask = b &&& copyMask) (f : EptField)
    (hf : f ∈ copiedFields) : f.get a = f.getFlag b := by
  have hm : ∀ f ∈ copiedFields,
      fieldMask 64 f.lo f.width &&& copyMask = fieldMask 64 f.lo f.width := by decide
  exact field_congr f.lo f.width h (hm f hf)

/-- **identity translations with the rights of the last calls**: what the walk of every address
below 4 GiB looks like after the run `us`, against the memory `m₀` before it -/
structure RightsMap (caps : Caps) (epts : ℕ) (eptp : BitVec 64) (us : List RightsUpdate)
    (m₀ m : Mem) : Prop where
  upper : ∀ gpa < 2 ^ 32, (eptPath caps m eptp gpa).take 3 = (eptPath caps m₀ eptp gpa).take 3
  leaf : ∀ gpa < 2 ^ 32, ∃ e, (eptPath caps m eptp gpa).drop 3 = [⟨0, pts epts (gpa / 4096), e⟩] ∧
    frame e = gpa / 4096 * 4096 ∧ reserved caps 0 e = false ∧
    ∀ f ∈ copiedFields, f.get e = f.getFlag (lastFlags us (gpa / 4096))
  identity : ∀ gpa < 2 ^ 32, ∀ a p, eptWalk caps m eptp gpa = .mapped a p →
    a = gpa ∧ p = attrs (lastFlags us (gpa / 4096))

theorem frame_congr {a b : BitVec 64} (h : a &&& ~~~ copyMask = b &&& ~~~ copyMask) :
    frame a = frame b := by
  rw [frame, frame, field_congr 12 36 h (by decide)]

theorem reserved_leaf_congr {caps : Caps} {a b : BitVec 64}
    (h : a &&& ~~~ copyMask = b &&& ~~~ copyMask) : reserved caps 0 a = reserved caps 0 b := by
  rw [reserved, reserved, field_congr 48 4 h (by decide)]
  rfl

theorem upperTables_update {caps : Caps} {epts : ℕ} {m : Mem} (us : List RightsUpdate)
    (hu : UpperTables caps epts m) : UpperTables caps epts (updateLeaves epts us m) := by
  refine ⟨?_, fun i hi => ?_, fun i hi => ?_⟩
  · rw [load_updateLeaves_upper _ _ _ _ (by simp only [pml4_eq, pts_eq]; omega)]
    exact hu.pml4
  · rw [load_updateLeaves_upper _ _ _ _ (by simp only [pdpt_eq, pts_eq]; omega)]
    exact hu.pdpt i hi
  · rw [load_updateLeaves_upper _ _ _ _ (by simp only [pds_eq, pts_eq]; omega)]
    exact hu.pds i hi

theorem rightsMap_update {caps : Caps} {epts : ℕ} {m : Mem} (us : List RightsUpdate)
    (hc : CleanTables epts m) (hal : epts % 4096 = 0)
    (hend : epts + extendedPagingTablesT.size ≤ 2 ^ 48) :
    RightsMap caps epts (eptpOf epts) us (buildTables epts m)
      (updateLeaves epts us (buildTables epts m)) := by
  have hu : UpperTables caps epts (buildTables epts m) := upperTables_build hc hal hend
  have hu' := upperTables_update us hu
  have hlt : epts < 2 ^ 48 := by rw [Epts.size_eq] at hend; omega
  have e : pageSize = 4096 := rfl
  -- both halves of the leaf for an address, after the run
  have hcopied : ∀ gpa < 2 ^ 32, (updateLeaves epts us (buildTables epts m)).load64
      (pts epts (gpa / 4096)) &&& copyMask = lastFlags us (gpa / 4096) &&& copyMask := by
    intro gpa h
    refine leaf_copied _ _ _ _ ?_
    rw [load_pts _ _ _ (by omega), built, setEntryFlags_eq, merge_and_mask]
  have hkept : ∀ gpa < 2 ^ 32, (updateLeaves epts us (buildTables epts m)).load64
      (pts epts (gpa / 4096)) &&& ~~~ copyMask
        = built leafFlags (gpa / 4096 * pageSize) (m.load64 (pts epts (gpa / 4096)))
          &&& ~~~ copyMask := by
    intro gpa h
    rw [leaf_kept, load_pts _ _ _ (by omega)]
  have hframe : ∀ gpa < 2 ^ 32, frame ((updateLeaves epts us (buildTables epts m)).load64
      (pts epts (gpa / 4096))) = gpa / 4096 * 4096 := by
    intro gpa h
    rw [frame_congr (hkept gpa h), frame_built _ _ _ (by rw [e]; omega) (by rw [e]; omega), e]
  refine ⟨fun gpa h => ?_, fun gpa h => ⟨_, ?_, hframe gpa h, ?_, copied_field (hcopied gpa h)⟩,
    fun gpa h a p hw => ?_⟩
  · have hi := index_two_lt h
    rw [eptPath_leaf hu' hal hlt h, eptPath_leaf hu hal hlt h,
      load_updateLeaves_upper _ _ _ (pml4 epts 0) (by simp only [pml4_eq, pts_eq]; omega),
      load_updateLeaves_upper _ _ _ (pdpt epts _) (by simp only [pdpt_eq, pts_eq]; omega),
      load_updateLeaves_upper _ _ _ (pds epts _) (by simp only [pds_eq, pts_eq]; omega)]
    simp only [List.take_succ_cons, List.take_zero]
  · rw [eptPath_leaf hu' hal hlt h]
    rfl
  · have hclean := hc.pts (gpa / 4096) (by omega)
    rw [reserved_leaf_congr (hkept gpa h), reserved_leaf hclean]
  · rw [eptWalk_leaf hu' hal hlt h] at hw
    cases hd : decode caps 0 ((updateLeaves epts us (buildTables epts m)).load64
        (pts epts (gpa / 4096))) with
    | stop f => cases (resolve_stop hd).symm.trans hw
    | table b q => cases (decode_table_inv hd).1
    | page b q =>
      obtain ⟨hb, hq⟩ := decode_page_inv hd
      rw [resolve_page hd] at hw
      cases hw
      refine ⟨?_, ?_⟩
      · rw [hb, hframe gpa h]
        simp only [span]
        omega
      · rw [hq, attrs_congr (hcopied gpa h)]
        rfl

/-- **any run of updates after the build keeps the identity map**: the last call for a page decides
its rights, and each call touches its own leaf only -/
theorem update_rights_map (caps : Caps) (epts : ℕ) (us : List RightsUpdate) (s : Machine)
    (hal : epts % 4096 = 0) (hend : epts + extendedPagingTablesT.size ≤ 2 ^ 48)
    (hz : s.mem.ZeroOn epts extendedPagingTablesT.size) :
    ∃ eptp s₀ s₁, (initializeExtendedPageTables epts).run s = .ret eptp s₀ ∧
      (updateAll epts us).run s₀ = .ret () s₁ ∧
      RightsMap caps epts eptp us s₀.mem s₁.mem ∧
      ∀ u ∈ us, ∀ t, ∃ t', (updateGpaAccessRights epts u.gpa u.flags).run t = .ret () t' ∧
        ∀ x, x < pts epts u.page ∨ pts epts u.page + 8 ≤ x → t'.mem x = t.mem x :=
  ⟨_, _, _, initializeExtendedPageTables_eq epts s, updateAll_eq epts us _,
    rightsMap_update us (cleanTables_of_zero hz) hal hend,
    fun u _ t => ⟨_, updateGpaAccessRights_eq epts u.gpa u.flags u.aligned t,
      fun x hx => updateLeaf_outside epts u t.mem x hx⟩⟩

/-- the flags of the read hook, set on a page of zeroed memory and then dropped again -/
theorem update_rights_map_hook :
    let us : List RightsUpdate := [⟨0x1812000#64, 0x32#64, rfl, by decide⟩,
      ⟨0x1812000#64, leafFlags, rfl, by decide⟩]
    ∃ eptp s₀ s₁, (initializeExtendedPageTables (CpuData.epts cpuDataAddress)).run default
        = .ret eptp s₀ ∧
      (updateAll (CpuData.epts cpuDataAddress) us).run s₀ = .ret () s₁ ∧
      RightsMap ⟨true, true, true⟩ (CpuData.epts cpuDataAddress) eptp us s₀.mem s₁.mem ∧
      ∀ u ∈ us, ∀ t, ∃ t', (updateGpaAccessRights (CpuData.epts cpuDataAddress) u.gpa u.flags).run t
          = .ret () t' ∧
        ∀ x, x < pts (CpuData.epts cpuDataAddress) u.page ∨
          pts (CpuData.epts cpuDataAddress) u.page + 8 ≤ x → t'.mem x = t.mem x :=
  update_rights_map ⟨true, true, true⟩ (CpuData.epts cpuDataAddress) _ default (by decide)
    (by decide) (fun _ _ _ => rfl)

/-! ## the slot of one page -/

/-- the tree of the builder, and what the leaf of a page says -/
structure PageSlot (caps : Caps) (epts page : ℕ) (slot : Slot Attrs Fault) (m : Mem) : Prop where
  upper : UpperTables caps epts m
  leaf : decode caps 0 (m.load64 (pts epts page)) = slot

section
variable {caps : Caps} {epts page : ℕ} {slot : Slot Attrs Fault} {m m' : Mem}

theorem pageSlot_walk (h : PageSlot caps epts page slot m) (hal : epts % 4096 = 0)
    (hlt : epts < 2 ^ 48) (hp : page < 1048576) {a : ℕ} (ha : a / 4096 = page) :
    eptWalk caps m (eptpOf epts) a
      = resolve (format caps) (reads m) 0 (m.load64 (pts epts page)) upperAttrs a := by
  rw [eptWalk_leaf h.upper hal hlt (by omega), ha]

theorem pageSlot_congr (h : PageSlot caps epts page slot m) (hp : page < 1048576)
    (hm : ∀ x, epts ≤ x → x < epts + extendedPagingTablesT.size → m' x = m x) :
    PageSlot caps epts page slot m' := by
  refine ⟨upperTables_congr h.upper hm, ?_⟩
  rw [Mem.load64_congr fun k _ => hm _ ?_ ?_]
  · exact h.leaf
  all_goals
    simp only [Epts.size_eq, pts_eq]
    omega

theorem pageSlot_build (hc : CleanTables epts m) (hal : epts % 4096 = 0)
    (hend : epts + extendedPagingTablesT.size ≤ 2 ^ 48) (hp : page < 1048576) :
    PageSlot caps epts page (.page (page * pageSize) identityAttrs) (buildTables epts m) := by
  have e : pageSize = 4096 := rfl
  refine ⟨upperTables_build hc hal hend, ?_⟩
  rw [load_pts _ _ _ hp, decode_pts (hc.pts _ hp) (by rw [e]; omega) (by rw [e]; omega)]

theorem pageSlot_update (u : RightsUpdate) (h : PageSlot caps epts u.page slot m) :
    PageSlot caps epts u.page
      (decode caps 0 (merge copyMask (m.load64 (pts epts u.page)) u.flags))
      (updateLeaf epts u.gpa u.flags m) := by
  refine ⟨upperTables_update [u] h.upper, ?_⟩
  rw [load_updateLeaf, if_pos (beq_self_eq_true _)]

theorem pageSlot_update_ne (u : RightsUpdate) (h : PageSlot caps epts page slot m)
    (hne : u.page ≠ page) : PageSlot caps epts page slot (updateLeaf epts u.gpa u.flags m) := by
  have hmiss : ¬ (u.page == page) = true := fun e => hne (beq_iff_eq.mp e)
  refine ⟨upperTables_update [u] h.upper, ?_⟩
  rw [load_updateLeaf, if_neg hmiss]
  exact h.leaf

theorem pageSlot_identity (h : PageSlot caps epts page (.page (page * pageSize) identityAttrs) m)
    (hal : epts % 4096 = 0) (hlt : epts < 2 ^ 48) (hp : page < 1048576) {a : ℕ}
    (ha : a / 4096 = page) : eptWalk caps m (eptpOf epts) a = .mapped a identityAttrs := by
  have hend : page * pageSize + a % span 0 = a := by
    rw [← ha]
    simp only [span, pageSize]
    omega
  rw [pageSlot_walk h hal hlt hp ha, resolve_page h.leaf, hend]
  rfl

theorem emptyAbove_update (u : RightsUpdate) (he : EmptyAbove epts m) :
    EmptyAbove epts (updateLeaf epts u.gpa u.flags m) := by
  refine ⟨fun i h1 h2 => ?_, fun i h1 h2 => ?_⟩
  · rw [load_updateLeaf_upper _ _ _ _ (by simp only [pml4_eq, pts_eq]; omega)]
    exact he.pml4 i h1 h2
  · rw [load_updateLeaf_upper _ _ _ _ (by simp only [pdpt_eq, pts_eq]; omega)]
    exact he.pdpt i h1 h2

end

end HyperC
