import HyperC.Vmm.Ept
import HyperC.Machine.EptWalk

/-!
# The tables `initialize_extended_page_tables` leaves, entry by entry

The builder assigns only named bit fields, so an entry it sets keeps bit 7 and the reserved bits
51:48 of whatever was there.  `CleanUpper` and `CleanLeaf` say that those bits were clear.

* `load_pml4`, `load_pdpt`, `load_pds`, `load_pts`, `load_pml4_stale`, `load_pdpt_stale`,
  `buildTables_outside`   every word of the new memory;
* `decode_upper`, `decode_pts`   clean entries point to their table, or map their page;
* `decode_upper_or`      an entry that cannot be a large page points on or is misconfigured;
* `resolve_upper_dirty`, `resolve_pts_dirty`   stale ones never give the identity mapping.
-/

namespace HyperC
open Bits Epts Ept Walk

theorem pds_count : memorySize * tableSize = 2048 := rfl
theorem pts_count : memorySize * tableSize * tableSize = 1048576 := rfl

/-! ## words -/

section
variable (epts : ℕ) (m : Mem)

/-- the loops do not reach the first table -/
theorem load_pml4_update (i : ℕ) (h : i < 512) : (buildTables epts m).load64 (pml4 epts i)
    = (Mem.update64 (pml4 epts 0) (built defaultFlags (pdpt epts 0)) m).load64 (pml4 epts i) := by
  unfold buildTables
  rw [pts_count, pds_count, Mem.load64_mapWords_outside _ _ _ _ _ (by simp only [pml4_eq, pts_eq]; omega),
    Mem.load64_mapWords_outside _ _ _ _ _ (by simp only [pml4_eq, pds_eq]; omega),
    Mem.load64_mapWords_outside _ _ _ _ _ (by simp only [pml4_eq, pdpt_eq]; omega)]

theorem load_pml4 :
    (buildTables epts m).load64 (pml4 epts 0)
      = built defaultFlags (pdpt epts 0) (m.load64 (pml4 epts 0)) := by
  rw [load_pml4_update epts m 0 (by omega), Mem.load64_update64_same]

theorem load_pml4_stale (i : ℕ) (h1 : 1 ≤ i) (h2 : i < 512) :
    (buildTables epts m).load64 (pml4 epts i) = m.load64 (pml4 epts i) := by
  rw [load_pml4_update epts m i h2,
    Mem.load64_update64_disjoint _ _ _ _ (by simp only [pml4_eq]; omega)]

theorem load_pdpt (i : ℕ) (h : i < 4) :
    (buildTables epts m).load64 (pdpt epts i)
      = built defaultFlags (pds epts (i * tableSize)) (m.load64 (pdpt epts i)) := by
  have e : pdpt epts i = pdpt epts 0 + 8 * i := rfl
  unfold buildTables
  rw [pts_count, pds_count, Mem.load64_mapWords_outside _ _ _ _ _ (by simp only [pdpt_eq, pts_eq]; omega),
    Mem.load64_mapWords_outside _ _ _ _ _ (by simp only [pdpt_eq, pds_eq]; omega), e,
    Mem.load64_mapWords _ _ _ _ _ (show i < memorySize from h),
    Mem.load64_update64_disjoint _ _ _ _ (by simp only [pml4_eq, pdpt_eq]; omega)]

theorem load_pdpt_stale (i : ℕ) (h1 : 4 ≤ i) (h2 : i < 512) :
    (buildTables epts m).load64 (pdpt epts i) = m.load64 (pdpt epts i) := by
  have e : memorySize = 4 := rfl
  unfold buildTables
  rw [pts_count, pds_count, Mem.load64_mapWords_outside _ _ _ _ _ (by simp only [pdpt_eq, pts_eq]; omega),
    Mem.load64_mapWords_outside _ _ _ _ _ (by simp only [pdpt_eq, pds_eq]; omega),
    Mem.load64_mapWords_outside _ _ _ _ _ (by simp only [pdpt_eq, e]; omega),
    Mem.load64_update64_disjoint _ _ _ _ (by simp only [pml4_eq, pdpt_eq]; omega)]

theorem load_pds (i : ℕ) (h : i < 2048) :
    (buildTables epts m).load64 (pds epts i)
      = built defaultFlags (pts epts (i * tableSize)) (m.load64 (pds epts i)) := by
  have e : pds epts i = pds epts 0 + 8 * i := rfl
  have e4 : memorySize = 4 := rfl
  unfold buildTables
  rw [pts_count, pds_count, Mem.load64_mapWords_outside _ _ _ _ _ (by simp only [pds_eq, pts_eq]; omega),
    e, Mem.load64_mapWords _ _ _ _ _ h,
    Mem.load64_mapWords_outside _ _ _ _ _ (by simp only [pds_eq, pdpt_eq, e4]; omega),
    Mem.load64_update64_disjoint _ _ _ _ (by simp only [pml4_eq, pds_eq]; omega)]

theorem load_pts (i : ℕ) (h : i < 1048576) :
    (buildTables epts m).load64 (pts epts i)
      = built leafFlags (i * pageSize) (m.load64 (pts epts i)) := by
  have e : pts epts i = pts epts 0 + 8 * i := rfl
  have e4 : memorySize = 4 := rfl
  unfold buildTables
  rw [pts_count, pds_count, e, Mem.load64_mapWords _ _ _ _ _ h,
    Mem.load64_mapWords_outside _ _ _ _ _ (by simp only [pds_eq, pts_eq]; omega),
    Mem.load64_mapWords_outside _ _ _ _ _ (by simp only [pts_eq, pdpt_eq, e4]; omega),
    Mem.load64_update64_disjoint _ _ _ _ (by simp only [pml4_eq, pts_eq]; omega)]

theorem buildTables_outside (x : ℕ) (h : x < epts ∨ epts + extendedPagingTablesT.size ≤ x) :
    buildTables epts m x = m x := by
  have e4 : memorySize = 4 := rfl
  rw [Epts.size_eq] at h
  unfold buildTables
  rw [pts_count, pds_count, Mem.mapWords_outside _ _ _ _ _ (by simp only [pts_eq]; omega),
    Mem.mapWords_outside _ _ _ _ _ (by simp only [pds_eq]; omega),
    Mem.mapWords_outside _ _ _ _ _ (by simp only [pdpt_eq, e4]; omega),
    Mem.update64_outside _ _ _ _ (by simp only [pml4_eq]; omega)]

end

/-! ## fields of a built entry -/

section
variable (flags e : BitVec 64) (addr : ℕ)

theorem getLsbD_built (i : ℕ) (h : copyMask.getLsbD i = true) :
    (built flags addr e).getLsbD i = flags.getLsbD i := by
  rw [built, setEntryFlags_eq, getLsbD_merge, if_pos h]

theorem field_built_flags (lo w : ℕ) (h : fieldMask 64 lo w &&& copyMask = fieldMask 64 lo w) :
    field lo w (built flags addr e) = field lo w flags := by
  rw [built, setEntryFlags_eq, field_merge_on _ _ _ _ _ h]

theorem field_built_old (lo w : ℕ) (h : fieldMask 64 lo w &&& copyMask = 0#64)
    (hd : lo + w ≤ 12 ∨ 48 ≤ lo) : field lo w (built flags addr e) = field lo w e := by
  rw [built, setEntryFlags_eq, field_merge_off _ _ _ _ _ h, setEntryAddress_eq,
    field_setField_disjoint _ _ _ _ (by omega)]

theorem frame_built (hal : addr % 4096 = 0) (hlt : addr < 2 ^ 48) :
    frame (built flags addr e) = addr := by
  have hm : fieldMask 64 12 36 &&& copyMask = 0#64 := by decide
  have hf : field 12 36 (built flags addr e) = ((BitVec.ofNat 64 addr) >>> 12).setWidth 36 := by
    rw [built, setEntryFlags_eq, field_merge_off _ _ _ _ _ hm, setEntryAddress_eq,
      field_setField_same _ _ _ (by norm_num)]
  rw [frame, hf, BitVec.toNat_setWidth, BitVec.toNat_ushiftRight, BitVec.toNat_ofNat,
    Nat.shiftRight_eq_div_pow]
  omega

theorem large_built : large (built flags addr e) = large e := by
  have h := congrArg (fun v : BitVec 1 => v.getLsbD 0)
    (field_built_old flags e addr 7 1 (by decide) (Or.inl (by norm_num)))
  simpa only [getLsbD_field, Nat.lt_one_iff, decide_true, Bool.true_and, Nat.add_zero, large] using h

end

/-! ## clean and stale entries -/

/-- the bits that the builder keeps and a walk looks at, in an entry above the last level -/
def CleanUpper (e : BitVec 64) : Prop := field 48 4 e = 0 ∧ large e = false

/-- the same for a last-level entry, whose bit 7 the processor ignores -/
def CleanLeaf (e : BitVec 64) : Prop := field 48 4 e = 0

instance (e : BitVec 64) : Decidable (CleanUpper e) := inferInstanceAs (Decidable (_ ∧ _))
instance (e : BitVec 64) : Decidable (CleanLeaf e) := inferInstanceAs (Decidable (_ = _))

/-- the rights and memory type of the identity mapping -/
def identityAttrs : Attrs := ⟨true, true, true, writeBack⟩

section
variable {caps : Caps} {level addr : ℕ} {e : BitVec 64}

theorem read_built_upper : (built defaultFlags addr e).getLsbD 0 = true := by
  rw [getLsbD_built _ _ _ _ (by decide)]
  decide

theorem read_built_leaf : (built leafFlags addr e).getLsbD 0 = true := by
  rw [getLsbD_built _ _ _ _ (by decide)]
  decide

theorem attrs_upper : attrs (built defaultFlags addr e) = ⟨true, true, true, 0⟩ := by
  rw [attrs, getLsbD_built _ _ _ _ (by decide), getLsbD_built _ _ _ _ (by decide),
    getLsbD_built _ _ _ _ (by decide), field_built_flags _ _ _ _ _ (by decide)]
  decide

theorem attrs_leaf : attrs (built leafFlags addr e) = identityAttrs := by
  rw [attrs, getLsbD_built _ _ _ _ (by decide), getLsbD_built _ _ _ _ (by decide),
    getLsbD_built _ _ _ _ (by decide), field_built_flags _ _ _ _ _ (by decide)]
  decide

theorem reserved_upper (hc : CleanUpper e) :
    reserved caps level (built defaultFlags addr e) = false := by
  obtain ⟨h48, h7⟩ := hc
  have h34 : field 3 4 (built defaultFlags addr e) = 0#4 := by
    rw [field_built_flags _ _ _ _ _ (by decide)]
    decide
  rw [reserved, field_built_old _ _ _ 48 4 (by decide) (Or.inr le_rfl), h48]
  rcases level with _ | _ | _ | _ <;> simp [reservedAt, large_built, h7, h34]

theorem reserved_leaf (hc : CleanLeaf e) : reserved caps 0 (built leafFlags addr e) = false := by
  rw [reserved, field_built_old _ _ _ 48 4 (by decide) (Or.inr le_rfl), hc]
  rfl

/-- **a clean entry above the last level points to the table it was built for** -/
theorem decode_upper (hc : CleanUpper e) (hl : 1 ≤ level) (hal : addr % 4096 = 0)
    (hlt : addr < 2 ^ 48) :
    decode caps level (built defaultFlags addr e) = .table addr ⟨true, true, true, 0⟩ := by
  rw [decode_table hl read_built_upper (reserved_upper hc) (by rw [large_built]; exact hc.2),
    frame_built _ _ _ hal hlt, attrs_upper]

/-- **a clean leaf maps its page, readable, writable, executable and write-back** -/
theorem decode_pts (hc : CleanLeaf e) (hal : addr % 4096 = 0) (hlt : addr < 2 ^ 48) :
    decode caps 0 (built leafFlags addr e) = .page addr identityAttrs := by
  have ht : badMemType (built leafFlags addr e) = false := by
    rw [badMemType, field_built_flags _ _ _ _ _ (by decide)]
    decide
  rw [decode_leaf read_built_leaf (reserved_leaf hc) ht, frame_built _ _ _ hal hlt, attrs_leaf]

/-! ### stale bits -/

theorem decode_built_misconfigured (flags : BitVec 64) (hf : flags.getLsbD 0 = true)
    (h48 : field 48 4 e ≠ 0) : decode caps level (built flags addr e) = .stop .misconfigured := by
  have h0 : (built flags addr e).getLsbD 0 = true := by rw [getLsbD_built _ _ _ _ (by decide), hf]
  refine decode_reserved (present_of_read h0) ?_
  rw [reserved, field_built_old _ _ _ 48 4 (by decide) (Or.inr le_rfl), bne_iff_ne.mpr h48]
  rfl

/-- the low bits of the frame number, which are reserved in a large page -/
theorem field_frame_built (w : ℕ) (hw : w ≤ 36) (flags : BitVec 64) (hal : addr % 4096 = 0)
    (hlt : addr < 2 ^ 48) : (field 12 w (built flags addr e)).toNat = addr / 4096 % 2 ^ w := by
  have hframe := frame_built flags e addr hal hlt
  have hcut : field 12 w (built flags addr e)
      = (field 12 36 (built flags addr e) : BitVec 36).setWidth w := by
    apply BitVec.eq_of_getLsbD_eq
    intro i hi
    have hi36 : i < 36 := by omega
    rw [BitVec.getLsbD_setWidth, getLsbD_field, getLsbD_field]
    simp [hi, hi36]
  rw [frame] at hframe
  have hnat : (field 12 36 (built flags addr e)).toNat = addr / 4096 := by omega
  rw [hcut, BitVec.toNat_setWidth, hnat]

/-- **an entry above the last level points to its table or is misconfigured**, whatever was there, if
the table could not be a large page -/
theorem decode_upper_or (hl : 1 ≤ level) (hal : addr % 4096 = 0) (hlt : addr < 2 ^ 48)
    (h1 : addr / 4096 % 2 ^ 9 ≠ 0) :
    decode caps level (built defaultFlags addr e) = .table addr ⟨true, true, true, 0⟩ ∨
      decode caps level (built defaultFlags addr e) = .stop .misconfigured := by
  by_cases hc : CleanUpper e
  · exact Or.inl (decode_upper hc hl hal hlt)
  by_cases h48 : field 48 4 e = 0
  swap
  · exact Or.inr (decode_built_misconfigured defaultFlags (by decide) h48)
  have h7 : large (built defaultFlags addr e) = true := by
    rw [large_built]
    by_contra h7
    exact hc ⟨h48, by simpa using h7⟩
  have hlow : ∀ w, 9 ≤ w → w ≤ 36 → field 12 w (built defaultFlags addr e) ≠ 0 := by
    intro w h9 h36 h0
    have hw := field_frame_built (e := e) w h36 defaultFlags hal hlt
    rw [h0] at hw
    have hdvd : 2 ^ 9 ∣ 2 ^ w := pow_dvd_pow 2 h9
    refine h1 ?_
    rw [← Nat.mod_mod_of_dvd _ hdvd, ← hw]
    rfl
  refine Or.inr (decode_reserved (present_of_read read_built_upper) ?_)
  rcases level with _ | _ | _ | _
  · omega
  · have h9 : ¬ field 12 9 (built defaultFlags addr e) = 0#9 := hlow 9 le_rfl (by norm_num)
    simp [reserved, reservedAt, h7, h9]
  · have h18 : ¬ field 12 18 (built defaultFlags addr e) = 0#18 := hlow 18 (by norm_num) (by norm_num)
    simp [reserved, reservedAt, h7, h18]
  · simp [reserved, reservedAt, h7]

/-- **a stale entry above the last level faults or maps a large page of uncacheable memory** -/
theorem resolve_upper_dirty {rd : ℕ → Except Fault (BitVec 64)} (hc : ¬ CleanUpper e) (hl : 1 ≤ level)
    (p : Attrs) (gpa a : ℕ) :
    resolve (format caps) rd level (built defaultFlags addr e) p gpa ≠ .mapped a identityAttrs := by
  intro hw
  cases hd : decode caps level (built defaultFlags addr e) with
  | stop f => cases (resolve_stop hd).symm.trans hw
  | page b q =>
    have hq : q.memType = 0 := by rw [(decode_page_inv hd).2, attrs_upper]
    rw [resolve_page hd, Result.mapped.injEq] at hw
    have hm : q.memType = writeBack := congrArg Attrs.memType hw.2
    exact absurd (hq.symm.trans hm) (by decide)
  | table b q =>
    -- an entry that points on has neither stale bit
    obtain ⟨hp, hr, -⟩ := decode_table_inv hd
    refine hc ⟨?_, ?_⟩
    · by_contra h48
      cases (decode_built_misconfigured defaultFlags (by decide) h48).symm.trans hd
    · rw [← large_built defaultFlags e addr]
      rcases level with _ | _ | _ | _
      · omega
      · exact hp
      · exact hp
      · simp only [reserved, reservedAt, Bool.or_eq_false_iff] at hr
        exact hr.2.1

theorem resolve_pts_dirty {rd : ℕ → Except Fault (BitVec 64)} (hc : ¬ CleanLeaf e) (p : Attrs)
    (gpa a : ℕ) :
    resolve (format caps) rd 0 (built leafFlags addr e) p gpa ≠ .mapped a identityAttrs := by
  intro hw
  have hd : decode caps 0 (built leafFlags addr e) = .stop .misconfigured :=
    decode_built_misconfigured leafFlags (by decide) hc
  cases (resolve_stop hd).symm.trans hw

/-- a leaf read as an entry of an upper level never points on: its memory type is reserved there -/
theorem decode_leaf_ne_table {b : ℕ} {q : Attrs} :
    decode caps level (built leafFlags addr e) ≠ .table b q := by
  intro hd
  obtain ⟨hp, hr, -⟩ := decode_table_inv hd
  have h34 : field 3 4 (built leafFlags addr e) = 6#4 := by
    rw [field_built_flags _ _ _ _ _ (by decide)]
    decide
  simp only [reserved, Bool.or_eq_false_iff] at hr
  rcases level with _ | _ | _ | _
  · cases hp
  · simp [reservedAt, show large _ = false from hp, h34] at hr
  · simp [reservedAt, show large _ = false from hp, h34] at hr
  · simp [reservedAt, h34] at hr

end

end HyperC
