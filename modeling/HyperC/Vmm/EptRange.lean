import HyperC.Vmm.EptUpdate

/-!
# `update_gpa_access_rights` for any page

The function asserts that the address is aligned, and takes the number of its page as an index into
`pts` without looking at it.

* `RightsCall`, `callAll`   calls as the code takes them;
* `aligned_of_ret`          a run that returns has passed every assertion;
* `read_access_last`        whatever memory held, an entry is left with the flags of its last call;
* `StaysInTables`, `stays_in_tables_iff`   so a run stays inside `extended_paging_tables_t` exactly if
                            every page is one below 4 GiB;
* `bitmaps_overwritten`     the pages behind them are the words of the MSR bitmaps.
-/

namespace HyperC
open Code Bits Epts

/-- a call of `update_gpa_access_rights`, with any address -/
structure RightsCall where
  gpa : BitVec 64
  flags : BitVec 64

def RightsCall.page (c : RightsCall) : ℕ := c.gpa.toNat / pageSize

def callAll (epts : ℕ) (cs : List RightsCall) : Host Unit :=
  each (fun c => updateGpaAccessRights epts c.gpa c.flags) cs

/-- the effect of calls on memory, when none of them stops -/
def callLeaves (epts : ℕ) (cs : List RightsCall) (m : Mem) : Mem :=
  cs.foldl (fun m c => updateLeaf epts c.gpa c.flags m) m

/-- the calls return, and write nowhere but in the tables, whatever memory holds -/
def StaysInTables (epts : ℕ) (cs : List RightsCall) : Prop :=
  ∀ s, ∃ s', (callAll epts cs).run s = .ret () s' ∧
    ∀ x, (x < epts ∨ epts + extendedPagingTablesT.size ≤ x) → s'.mem x = s.mem x

section
variable {epts : ℕ} {cs : List RightsCall} {s s' : Machine}

/-- the assertion stops a call for an address that is not aligned -/
theorem updateGpaAccessRights_aligned {gpa flags : BitVec 64}
    (h : (updateGpaAccessRights epts gpa flags).run s = .ret () s') : gpa.toNat % pageSize = 0 := by
  by_contra hal
  have hz : ¬ gpa % BitVec.ofNat 64 pageSize = 0 := by
    intro h0
    have hmod := congrArg BitVec.toNat h0
    rw [BitVec.toNat_umod] at hmod
    exact hal hmod
  have hstop : ∃ s₁, (assertNot (¬ gpa % BitVec.ofNat 64 pageSize = 0) "(gpa % 0x1000 == 0)").run s
      = .halt s₁ := by
    rw [assertNot, if_pos hz]
    exact ⟨_, rfl⟩
  obtain ⟨s₁, hs₁⟩ := hstop
  unfold updateGpaAccessRights at h
  rw [bind_of_halt hs₁] at h
  cases h

theorem aligned_of_ret (h : (callAll epts cs).run s = .ret () s') :
    ∀ c ∈ cs, c.gpa.toNat % pageSize = 0 := by
  induction cs generalizing s with
  | nil =>
    intro c hc
    cases hc
  | cons c cs ih =>
    unfold callAll at h
    rw [each_cons] at h
    obtain ⟨_, s₁, hc, hcs⟩ := bind_eq_ret.mp h
    intro c' hc'
    rcases List.mem_cons.mp hc' with rfl | hc'
    · exact updateGpaAccessRights_aligned hc
    · exact ih hcs c' hc'

theorem callAll_eq (h : ∀ c ∈ cs, c.gpa.toNat % pageSize = 0) (s : Machine) :
    (callAll epts cs).run s = .ret () { s with mem := callLeaves epts cs s.mem } :=
  each_mem (fun c hc s => updateGpaAccessRights_eq epts c.gpa c.flags (h c hc) s) s

theorem callLeaves_outside (m : Mem) (x : ℕ)
    (h : ∀ c ∈ cs, x < pts epts c.page ∨ pts epts c.page + 8 ≤ x) : callLeaves epts cs m x = m x := by
  unfold callLeaves
  induction cs generalizing m with
  | nil => rfl
  | cons c cs ih =>
    rw [List.foldl_cons, ih _ fun c' hc' => h c' (List.mem_cons_of_mem _ hc')]
    exact Mem.update64_outside _ _ _ _ (h c List.mem_cons_self)

/-- the read access of an entry is that of the last call for its page -/
theorem read_access_last (page : ℕ) (m : Mem) :
    ((callLeaves epts cs m).load64 (pts epts page)).getLsbD 0
      = ((LastWrite.last (fun c => c.page == page) cs).map fun c => c.flags.getLsbD 0).getD
        ((m.load64 (pts epts page)).getLsbD 0) := by
  have hmask : copyMask.getLsbD 0 = true := by decide
  have hstep : ∀ c ∈ cs, ∀ m : Mem,
      ((updateLeaf epts c.gpa c.flags m).load64 (pts epts page)).getLsbD 0
        = if c.page == page then c.flags.getLsbD 0 else (m.load64 (pts epts page)).getLsbD 0 := by
    intro c _ m
    rw [load_updateLeaf_gpa, RightsCall.page]
    split
    · rw [getLsbD_merge, hmask, if_pos rfl]
    · rfl
  exact LastWrite.foldl_view (fun m : Mem => (m.load64 (pts epts page)).getLsbD 0) cs hstep m

end

/-- **the calls stay in the tables exactly if every address is aligned, as the code asserts, and below
4 GiB, which it does not** -/
theorem stays_in_tables_iff (epts : ℕ) (cs : List RightsCall) : StaysInTables epts cs ↔
    ∀ c ∈ cs, c.gpa.toNat % pageSize = 0 ∧ c.gpa.toNat < 2 ^ 32 := by
  constructor
  · intro h
    have hal : ∀ c ∈ cs, c.gpa.toNat % pageSize = 0 := by
      obtain ⟨s', hrun, -⟩ := h default
      exact aligned_of_ret hrun
    refine fun c hc => ⟨hal c hc, ?_⟩
    by_contra hbound
    obtain ⟨c', hlast⟩ := LastWrite.exists_last (fun c' => c'.page == c.page) hc (beq_self_eq_true _)
    -- a memory whose entry has the other read access
    obtain ⟨m, hm⟩ : ∃ m : Mem, (m.load64 (pts epts c.page)).getLsbD 0 = !c'.flags.getLsbD 0 := by
      refine ⟨Mem.store64 (fun _ => 0#8) (pts epts c.page)
        (if c'.flags.getLsbD 0 then 0#64 else 1#64), ?_⟩
      rw [Mem.load64_store64_same]
      cases c'.flags.getLsbD 0 <;> rfl
    obtain ⟨s', hrun, hout⟩ := h { (default : Machine) with mem := m }
    rw [callAll_eq hal] at hrun
    cases hrun
    have hpage : 2 ^ 20 ≤ c.page := by
      unfold RightsCall.page pageSize
      omega
    have hsame : (callLeaves epts cs m).load64 (pts epts c.page) = m.load64 (pts epts c.page) :=
      Mem.load64_congr fun k _ => hout _ (.inr (by rw [size_eq, pts_eq]; omega))
    have hread : ((callLeaves epts cs m).load64 (pts epts c.page)).getLsbD 0 = c'.flags.getLsbD 0 := by
      rw [read_access_last, hlast]
      rfl
    rw [hsame, hm] at hread
    exact absurd hread (Bool.not_ne_self _)
  · intro h s
    refine ⟨_, callAll_eq (fun c hc => (h c hc).1) s, fun x hx => callLeaves_outside s.mem x ?_⟩
    intro c hc
    have hpage : c.page < 2 ^ 20 := by
      have hbelow := (h c hc).2
      unfold RightsCall.page pageSize
      omega
    rw [size_eq] at hx
    rw [pts_eq]
    omega

/-- the 512 pages from 4 GiB on are the words of `msr_bitmaps`: a call changes what is monitored -/
theorem bitmaps_overwritten (p i : ℕ) {gpa : BitVec 64} (flags : BitVec 64) (m : Mem)
    (hgpa : gpa.toNat / pageSize = 2 ^ 20 + i) :
    (updateLeaf (CpuData.epts p) gpa flags m).load64 (CpuData.msrBitmaps p + 8 * i)
      = merge copyMask (m.load64 (CpuData.msrBitmaps p + 8 * i)) flags := by
  have hword : CpuData.msrBitmaps p + 8 * i = pts (CpuData.epts p) (2 ^ 20 + i) := by
    rw [pts_eq]
    show p + 0x808000 + 8 * i = p + 0x2000 + 0x6000 + 8 * (2 ^ 20 + i)
    omega
  rw [hword, load_updateLeaf_gpa, hgpa, if_pos (beq_self_eq_true _)]

end HyperC
