import HyperC.Lib.Memory
import HyperC.Machine.Paging

/-!
# `paging.asm`: the page tables of the boot

32-bit code, so every address and every entry is computed modulo `2^32`; `store_qword_little` stores
the two halves of an entry one after the other.  What is pushed is popped again, on the loader's
stack, which is no part of the model.

* `createTables`, `setupPml4Map`   the two routines, the second for every `MEMORY_SIZE`;
* `createTables_eq`   the loop rewrites the words of an array;
* `entry`, `decode_entry_table`, `decode_entry_page`   the entry with an address and flags;
* `BootTables`, `bootTables_setup`   the tree of tables that `setup_pml4_map` leaves;
* `walk_boot_mod`, `walk_boot`   the walk in it ends at the low 32 bits of the address;
* `maps_to_itself_iff`   so for every `MEMORY_SIZE` it is an identity below 4 GiB only.
-/

namespace HyperC
open Bits Paging Walk

namespace Boot

def pagePresent : BitVec 32 := 1#32 <<< 0
def pageWrite : BitVec 32 := 1#32 <<< 1
def pageSize : BitVec 32 := 1#32 <<< 7
def pageLength : BitVec 32 := 0x1000#32
def largePageSize : BitVec 32 := 1#32 <<< 21
def ia32ePagingBase : BitVec 32 := 0x110000#32
def memorySize : ℕ := 4

/-- `store_qword_little address, higher, lower` -/
def storeQwordLittle (address higher lower : BitVec 32) (m : Mem) : Mem :=
  let m := @Mem.store m address.toNat 4 lower
  @Mem.store m (address + 4#32).toNat 4 higher

/-- the registers of `_create_tables` -/
structure TableRegs where
  edi : BitVec 32
  ebx : BitVec 32
  edx : BitVec 32
  ecx : BitVec 32
  eax : BitVec 32

/-- the registers after one round, `loop`'s decrement included -/
def TableRegs.next (r : TableRegs) : TableRegs :=
  { r with edi := r.edi + r.eax, ebx := r.ebx + 8#32, ecx := r.ecx - 1#32 }

def setupEntry (r : TableRegs) (m : Mem) : Mem :=
  let esi := r.edi ||| r.edx
  let m := storeQwordLittle r.ebx 0#32 esi m
  if r.next.ecx = 0#32 then m else setupEntry r.next m
termination_by (r.ecx - 1#32).toNat
decreasing_by
  rename_i h
  have hne : (r.ecx - 1#32).toNat ≠ 0 := fun h0 => h (BitVec.eq_of_toNat_eq h0)
  show (r.ecx - 1#32 - 1#32).toNat < (r.ecx - 1#32).toNat
  rw [BitVec.toNat_sub (r.ecx - 1#32), BitVec.toNat_ofNat]
  omega

/-- `_create_tables`: the registers come back, memory does not -/
def createTables (r : TableRegs) (m : Mem) : Mem := setupEntry r m

def setupPml4Map (memorySize : ℕ) (m : Mem) : Mem :=
  let m := createTables {
    edi := ia32ePagingBase + pageLength
    ebx := ia32ePagingBase
    edx := pageWrite ||| pagePresent
    ecx := 1#32
    eax := pageLength } m
  let m := createTables {
    edi := ia32ePagingBase + 2#32 * pageLength
    ebx := ia32ePagingBase + pageLength
    edx := pageWrite ||| pagePresent
    ecx := BitVec.ofNat 32 memorySize
    eax := pageLength } m
  createTables {
    edi := 0#32
    ebx := ia32ePagingBase + 2#32 * pageLength
    edx := pageSize ||| pageWrite ||| pagePresent
    ecx := BitVec.ofNat 32 (memorySize <<< 9)
    eax := largePageSize } m

/-! ## the loop -/

/-- the entry of a page or table at `address` -/
def entry (address flags : BitVec 32) : BitVec 64 := 0#32 ++ (address ||| flags)

theorem storeQwordLittle_eq {address : BitVec 32} (h : address.toNat + 8 ≤ 2 ^ 32)
    (lower : BitVec 32) (m : Mem) :
    storeQwordLittle address 0#32 lower m = m.store64 address.toNat (0#32 ++ lower) := by
  have h4 : (address + 4#32).toNat = address.toNat + 4 := by
    rw [BitVec.toNat_add, BitVec.toNat_ofNat]
    omega
  rw [storeQwordLittle, h4, Mem.store_halves]

/-- **the loop rewrites the words of an array**: word `i` points `i` steps on -/
theorem setupEntry_eq (n : ℕ) (r : TableRegs) (m : Mem) (hn : r.ecx.toNat = n + 1)
    (hend : r.ebx.toNat + 8 * (n + 1) ≤ 2 ^ 32) : setupEntry r m
      = Mem.mapWords r.ebx.toNat
        (fun i _ => entry (r.edi + BitVec.ofNat 32 i * r.eax) r.edx) (n + 1) m := by
  induction n generalizing r m with
  | zero =>
    have hecx : r.next.ecx = 0#32 := by
      apply BitVec.eq_of_toNat_eq
      show (r.ecx - 1#32).toNat = 0
      rw [BitVec.toNat_sub, BitVec.toNat_ofNat]
      omega
    rw [setupEntry, if_pos hecx, storeQwordLittle_eq (by omega), Mem.mapWords_succ]
    simp only [BitVec.zero_mul, BitVec.add_zero]
    rfl
  | succ n ih =>
    have hecx : r.next.ecx.toNat = n + 1 := by
      show (r.ecx - 1#32).toNat = n + 1
      rw [BitVec.toNat_sub, BitVec.toNat_ofNat]
      omega
    have hne : r.next.ecx ≠ 0#32 := fun h => by
      rw [h] at hecx
      exact absurd hecx (by simp)
    have hebx : r.next.ebx.toNat = r.ebx.toNat + 8 := by
      show (r.ebx + 8#32).toNat = _
      rw [BitVec.toNat_add, BitVec.toNat_ofNat]
      omega
    have hstep : ∀ i : ℕ, r.next.edi + BitVec.ofNat 32 i * r.next.eax
        = r.edi + BitVec.ofNat 32 (i + 1) * r.eax := by
      intro i
      show r.edi + r.eax + BitVec.ofNat 32 i * r.eax = _
      rw [BitVec.ofNat_add, BitVec.add_mul, BitVec.one_mul, BitVec.add_assoc,
        BitVec.add_comm r.eax]
    rw [setupEntry, if_neg hne, ih r.next _ hecx (by omega), storeQwordLittle_eq (by omega),
      Mem.mapWords_front _ _ (n + 1), hebx]
    simp only [hstep, BitVec.zero_mul, BitVec.add_zero]
    rfl

theorem createTables_eq (r : TableRegs) (m : Mem) (hpos : 0 < r.ecx.toNat)
    (hend : r.ebx.toNat + 8 * r.ecx.toNat ≤ 2 ^ 32) : createTables r m
      = Mem.mapWords r.ebx.toNat
        (fun i _ => entry (r.edi + BitVec.ofNat 32 i * r.eax) r.edx) r.ecx.toNat m := by
  obtain ⟨n, hn⟩ := Nat.exists_eq_add_one_of_ne_zero hpos.ne'
  rw [hn] at hend ⊢
  exact setupEntry_eq n r m hn hend

/-! ## entries -/

section
variable {address flags : BitVec 32} {mode : Mode}

theorem entry_toNat (ha : address.toNat % 4096 = 0) (hf : flags.toNat < 4096) :
    (entry address flags).toNat = address.toNat + flags.toNat := by
  have happ : (entry address flags).toNat = (address ||| flags).toNat := by
    show (BitVec.append (0#32) (address ||| flags)).toNat = _
    exact (BitVec.toNat_append _ _).trans (by simp)
  have hor := Nat.two_pow_add_eq_or_of_lt (i := 12) hf (address.toNat / 4096)
  have haddr : 2 ^ 12 * (address.toNat / 4096) = address.toNat := by omega
  rw [haddr] at hor
  rw [happ, BitVec.toNat_or, hor]

theorem getLsbD_entry (ha : address.toNat % 4096 = 0) (hf : flags.toNat < 4096) {i : ℕ} (hi : i < 12) :
    (entry address flags).getLsbD i = flags.getLsbD i := by
  have hmod : (address.toNat + flags.toNat) % 2 ^ 12 = flags.toNat := by omega
  have hbit := Nat.testBit_mod_two_pow (address.toNat + flags.toNat) 12 i
  rw [hmod] at hbit
  show (entry address flags).toNat.testBit i = flags.toNat.testBit i
  rw [entry_toNat ha hf, hbit]
  simp [hi]

theorem frame_entry (ha : address.toNat % 4096 = 0) (hf : flags.toNat < 4096) :
    frame (entry address flags) = address.toNat := by
  have hlt := address.isLt
  rw [frame, field, BitVec.extractLsb'_toNat, entry_toNat ha hf, Nat.shiftRight_eq_div_pow]
  omega

theorem getLsbD_entry_xd : (entry address flags).getLsbD 63 = false := by
  have happ : BitVec.getLsbD (w := 64) (0#32 ++ (address ||| flags)) 63
      = if 63 < 32 then (address ||| flags).getLsbD 63 else (0#32).getLsbD (63 - 32) :=
    BitVec.getLsbD_append
  exact happ

theorem field_entry (ha : address.toNat % 4096 = 0) (hf : flags.toNat < 4096) {lo w : ℕ}
    (h : (address.toNat + flags.toNat) / 2 ^ lo % 2 ^ w = 0) :
    field lo w (entry address flags) = 0 := by
  apply BitVec.eq_of_toNat_eq
  rw [field, BitVec.extractLsb'_toNat, entry_toNat ha hf, Nat.shiftRight_eq_div_pow, h]
  rfl

theorem attrs_entry (ha : address.toNat % 4096 = 0) (hf : flags.toNat < 4096) :
    attrs (entry address flags) = ⟨flags.getLsbD 1, flags.getLsbD 2, true⟩ := by
  rw [attrs, getLsbD_entry ha hf (by norm_num), getLsbD_entry ha hf (by norm_num), getLsbD_entry_xd]
  rfl

theorem decode_entry_table (ha : address.toNat % 4096 = 0) (hf : flags.toNat < 4096)
    (hp : flags.getLsbD 0 = true) (hl : flags.getLsbD 7 = false) {level : ℕ} (h1 : 1 ≤ level) :
    decode mode level (entry address flags)
      = .table address.toNat ⟨flags.getLsbD 1, flags.getLsbD 2, true⟩ := by
  have hlt := address.isLt
  have hlarge : large (entry address flags) = false := by
    rw [large, getLsbD_entry ha hf (by norm_num), hl]
  have hfield : field 48 4 (entry address flags) = 0 := field_entry ha hf (by omega)
  have hreserved : reserved mode level (entry address flags) = false := by
    rw [reserved, getLsbD_entry_xd, hfield]
    match level, h1 with
    | 1, _ => simp [reservedAt, hlarge]
    | 2, _ => simp [reservedAt, hlarge]
    | n + 3, _ => simp [reservedAt, hlarge]
  have hpage : isPage level (entry address flags) = false := by
    match level, h1 with
    | 1, _ => exact hlarge
    | 2, _ => exact hlarge
    | n + 3, _ => rfl
  rw [decode_table (by rw [getLsbD_entry ha hf (by norm_num), hp]) hreserved hpage,
    frame_entry ha hf, attrs_entry ha hf]

theorem decode_entry_page (ha : address.toNat % 2 ^ 21 = 0) (hf : flags.toNat < 4096)
    (hp : flags.getLsbD 0 = true) (hl : flags.getLsbD 7 = true) :
    decode mode 1 (entry address flags)
      = .page address.toNat ⟨flags.getLsbD 1, flags.getLsbD 2, true⟩ := by
  have hlt := address.isLt
  have ha' : address.toNat % 4096 = 0 := by omega
  have hlarge : large (entry address flags) = true := by
    rw [large, getLsbD_entry ha' hf (by norm_num), hl]
  have hfield : field 48 4 (entry address flags) = 0 := field_entry ha' hf (by omega)
  have hlow : field 13 8 (entry address flags) = 0 := field_entry ha' hf (by omega)
  have hreserved : reserved mode 1 (entry address flags) = false := by
    rw [reserved, getLsbD_entry_xd, hfield, reservedAt, hlow]
    simp
  rw [decode_page (by rw [getLsbD_entry ha' hf (by norm_num), hp]) hreserved hlarge,
    frame_entry ha' hf, attrs_entry ha' hf]
  simp only [span]
  congr 1
  omega

end

/-- the rights of the boot's tables and pages -/
def bootAttrs : Attrs := ⟨true, false, true⟩

theorem decode_boot_table (mode : Mode) (level address : ℕ) (ha : address % 4096 = 0)
    (hlt : address < 2 ^ 32) (h1 : 1 ≤ level) :
    decode mode level (entry (BitVec.ofNat 32 address) 3#32) = .table address bootAttrs := by
  have hn : (BitVec.ofNat 32 address).toNat = address := by
    rw [BitVec.toNat_ofNat]
    omega
  rw [decode_entry_table (by rw [hn, ha]) (by decide) (by decide) (by decide) h1, hn]
  rfl

theorem decode_boot_page (mode : Mode) (address : ℕ) (ha : address % 2 ^ 21 = 0) :
    decode mode 1 (entry (BitVec.ofNat 32 address) 0x83#32) = .page (address % 2 ^ 32) bootAttrs := by
  have hn : (BitVec.ofNat 32 address).toNat = address % 2 ^ 32 := BitVec.toNat_ofNat _ _
  rw [decode_entry_page (by rw [hn]; omega) (by decide) (by decide) (by decide), hn]
  rfl

/-! ## the tree -/

/-- the tables of `setup_pml4_map`: one entry at the top, `n` page directories, all their entries
pages -/
structure BootTables (n : ℕ) (m : Mem) : Prop where
  pml4 : m.load64 0x110000 = entry 0x111000#32 3#32
  pdpt : ∀ i < n, m.load64 (0x111000 + 8 * i) = entry (BitVec.ofNat 32 (0x112000 + 4096 * i)) 3#32
  pds : ∀ k < 512 * n, m.load64 (0x112000 + 8 * k) = entry (BitVec.ofNat 32 (2 ^ 21 * k)) 0x83#32

theorem setupPml4Map_eq {n : ℕ} (h1 : 1 ≤ n) (h2 : n ≤ 512) (m : Mem) : setupPml4Map n m
    = Mem.mapWords 0x112000 (fun i _ => entry (BitVec.ofNat 32 (2 ^ 21 * i)) 0x83#32) (512 * n)
      (Mem.mapWords 0x111000 (fun i _ => entry (BitVec.ofNat 32 (0x112000 + 4096 * i)) 3#32) n
        (Mem.mapWords 0x110000 (fun i _ => entry (0x111000#32 + BitVec.ofNat 32 i * 0x1000#32) 3#32)
          1 m)) := by
  have hn : (BitVec.ofNat 32 n).toNat = n := by
    rw [BitVec.toNat_ofNat]
    omega
  have hk : (BitVec.ofNat 32 (n <<< 9)).toNat = 512 * n := by
    rw [BitVec.toNat_ofNat, Nat.shiftLeft_eq]
    omega
  have hbase : (ia32ePagingBase + 2#32 * pageLength).toNat = 0x112000 := rfl
  have hpdpt : ∀ i : ℕ, ia32ePagingBase + 2#32 * pageLength + BitVec.ofNat 32 i * pageLength
      = BitVec.ofNat 32 (0x112000 + 4096 * i) := by
    intro i
    apply BitVec.eq_of_toNat_eq
    rw [BitVec.toNat_add, BitVec.toNat_mul, hbase, BitVec.toNat_ofNat, BitVec.toNat_ofNat]
    show (0x112000 + i % 2 ^ 32 * 4096 % 2 ^ 32) % 2 ^ 32 = _
    omega
  have hpds : ∀ i : ℕ, 0#32 + BitVec.ofNat 32 i * largePageSize = BitVec.ofNat 32 (2 ^ 21 * i) := by
    intro i
    apply BitVec.eq_of_toNat_eq
    rw [BitVec.zero_add, BitVec.toNat_mul, BitVec.toNat_ofNat, BitVec.toNat_ofNat]
    show i % 2 ^ 32 * 2 ^ 21 % 2 ^ 32 = _
    omega
  have top := fun m => createTables_eq ⟨ia32ePagingBase + pageLength, ia32ePagingBase,
    pageWrite ||| pagePresent, 1#32, pageLength⟩ m (by decide) (by decide)
  have middle := fun m => createTables_eq ⟨ia32ePagingBase + 2#32 * pageLength,
    ia32ePagingBase + pageLength, pageWrite ||| pagePresent, BitVec.ofNat 32 n, pageLength⟩ m
    (by show 0 < (BitVec.ofNat 32 n).toNat; omega)
    (by show 0x111000 + 8 * (BitVec.ofNat 32 n).toNat ≤ 2 ^ 32; omega)
  have last := fun m => createTables_eq ⟨0#32, ia32ePagingBase + 2#32 * pageLength,
    pageSize ||| pageWrite ||| pagePresent, BitVec.ofNat 32 (n <<< 9), largePageSize⟩ m
    (by show 0 < (BitVec.ofNat 32 (n <<< 9)).toNat; omega)
    (by show 0x112000 + 8 * (BitVec.ofNat 32 (n <<< 9)).toNat ≤ 2 ^ 32; omega)
  simp only [hn, hpdpt] at middle
  simp only [hk, hpds] at last
  rw [setupPml4Map, last, middle, top]
  rfl

theorem setupPml4Map_outside {n : ℕ} (h1 : 1 ≤ n) (h2 : n ≤ 512) (m : Mem) (x : ℕ)
    (h : x < 0x110000 ∨ 0x112000 + 4096 * n ≤ x) : setupPml4Map n m x = m x := by
  rw [setupPml4Map_eq h1 h2, Mem.mapWords_outside _ _ _ _ _ (by omega),
    Mem.mapWords_outside _ _ _ _ _ (by omega), Mem.mapWords_outside _ _ _ _ _ (by omega)]

theorem bootTables_setup {n : ℕ} (h1 : 1 ≤ n) (h2 : n ≤ 512) (m : Mem) :
    BootTables n (setupPml4Map n m) := by
  rw [setupPml4Map_eq h1 h2]
  refine ⟨?_, fun i hi => ?_, fun k hk => ?_⟩
  · rw [Mem.load64_mapWords_outside _ _ _ _ _ (by omega),
      Mem.load64_mapWords_outside _ _ _ _ _ (by omega)]
    exact Mem.load64_mapWords _ _ 1 m 0 (by omega)
  · rw [Mem.load64_mapWords_outside _ _ _ _ _ (by omega), Mem.load64_mapWords _ _ _ _ i hi]
  · rw [Mem.load64_mapWords _ _ _ _ k hk]

theorem bootTables_congr {n : ℕ} {m m' : Mem} (hn : n ≤ 512) (h : BootTables n m)
    (hm : ∀ x, 0x110000 ≤ x → x < 0x112000 + 4096 * n → m' x = m x) : BootTables n m' := by
  refine ⟨?_, fun i hi => ?_, fun k hk => ?_⟩
  · rw [Mem.load64_congr fun k _ => hm _ (by omega) (by omega)]
    exact h.pml4
  · rw [Mem.load64_congr fun k _ => hm _ (by omega) (by omega)]
    exact h.pdpt i hi
  · rw [Mem.load64_congr fun k _ => hm _ (by omega) (by omega)]
    exact h.pds k hk

/-- **the walk in the tree ends at the low 32 bits of the address**, which is all that an entry holds -/
theorem walk_boot_mod {n la : ℕ} {m : Mem} {mode : Mode} {rd : ℕ → Except Fault (BitVec 64)}
    (h : BootTables n m) (hn : n ≤ 512)
    (hrd : ∀ a, 0x110000 ≤ a → a + 8 ≤ 0x112000 + 4096 * n → rd a = .ok (m.load64 a))
    (hla : la < n * 2 ^ 30) :
    walk (format mode) rd 3 0x110000 Paging.allRights la = .mapped (la % 2 ^ 32) bootAttrs := by
  have hi2 : index 2 la < n := by
    simp only [index, span]
    omega
  have hk : la / 2 ^ 21 < 512 * n := by omega
  have a3 : slotAddr 3 0x110000 la = 0x110000 := by
    simp only [slotAddr, index, span]
    omega
  have a2 : slotAddr 2 0x111000 la = 0x111000 + 8 * index 2 la := rfl
  have a1 : slotAddr 1 (0x112000 + 4096 * index 2 la) la = 0x112000 + 8 * (la / 2 ^ 21) := by
    simp only [slotAddr, index, span]
    omega
  have d3 : (format mode).decode 3 (m.load64 0x110000) = .table 0x111000 bootAttrs := by
    rw [h.pml4]
    exact decode_boot_table mode 3 0x111000 (by norm_num) (by norm_num) (by norm_num)
  have d2 : (format mode).decode 2 (m.load64 (0x111000 + 8 * index 2 la))
      = .table (0x112000 + 4096 * index 2 la) bootAttrs := by
    rw [h.pdpt _ hi2]
    exact decode_boot_table mode 2 _ (by omega) (by omega) (by norm_num)
  have d1 : (format mode).decode 1 (m.load64 (0x112000 + 8 * (la / 2 ^ 21)))
      = .page (2 ^ 21 * (la / 2 ^ 21) % 2 ^ 32) bootAttrs := by
    rw [h.pds _ hk]
    exact decode_boot_page mode _ (by omega)
  have hend : 2 ^ 21 * (la / 2 ^ 21) % 2 ^ 32 + la % span 1 = la % 2 ^ 32 := by
    simp only [span]
    omega
  rw [walk_of_ok (by rw [a3]; exact hrd _ (by omega) (by omega)), resolve_table d3,
    walk_of_ok (by rw [a2]; exact hrd _ (by omega) (by omega)), resolve_table d2,
    walk_of_ok (by rw [a1]; exact hrd _ (by omega) (by omega)), resolve_page d1, hend]
  rfl

/-- **the walk ends where it began**, as long as 32 bits hold every address -/
theorem walk_boot {n la : ℕ} {m : Mem} {mode : Mode} {rd : ℕ → Except Fault (BitVec 64)}
    (h : BootTables n m) (hn : n ≤ 4)
    (hrd : ∀ a, 0x110000 ≤ a → a + 8 ≤ 0x112000 + 4096 * n → rd a = .ok (m.load64 a))
    (hla : la < n * 2 ^ 30) :
    walk (format mode) rd 3 0x110000 Paging.allRights la = .mapped la bootAttrs := by
  rw [walk_boot_mod h (by omega) hrd hla, Nat.mod_eq_of_lt (by omega)]

/-! ## every `MEMORY_SIZE` -/

/-- the walk of a linear address in the tables that `setup_pml4_map` leaves ends at the same physical
address, and the page can be written -/
def MapsToItself (mode : Mode) (m : Mem) (la : ℕ) : Prop :=
  ∃ q, linearWalk mode m (ia32ePagingBase.setWidth 64) la = .mapped la q ∧ q.write = true

theorem linearWalk_setup {n la : ℕ} (mode : Mode) (h1 : 1 ≤ n) (h2 : n ≤ 512) (m : Mem)
    (hla : la < n * 2 ^ 30) :
    linearWalk mode (setupPml4Map n m) (ia32ePagingBase.setWidth 64) la
      = .mapped (la % 2 ^ 32) bootAttrs := by
  have hframe : frame (ia32ePagingBase.setWidth 64) = 0x110000 := by decide
  rw [linearWalk, hframe]
  exact walk_boot_mod (bootTables_setup h1 h2 m) h2 (fun _ _ _ => rfl) hla

/-- **the tables map an address to itself exactly below 4 GiB**, however large `MEMORY_SIZE` is -/
theorem maps_to_itself_iff (mode : Mode) (n : ℕ) (m : Mem) (la : ℕ) (h1 : 1 ≤ n) (h2 : n ≤ 512)
    (hla : la < n * 2 ^ 30) : MapsToItself mode (setupPml4Map n m) la ↔ la < 2 ^ 32 := by
  have hwalk := linearWalk_setup mode h1 h2 m hla
  constructor
  · rintro ⟨q, hq, -⟩
    rw [hwalk] at hq
    injection hq with hend
    omega
  · intro hlt
    rw [Nat.mod_eq_of_lt hlt] at hwalk
    exact ⟨bootAttrs, hwalk, rfl⟩

theorem maps_to_itself_iff_five :
    MapsToItself ⟨true, true⟩ (setupPml4Map 5 fun _ => 0#8) (2 ^ 32) ↔ 2 ^ 32 < 2 ^ 32 :=
  maps_to_itself_iff ⟨true, true⟩ 5 _ _ (by norm_num) (by norm_num) (by norm_num)

/-- **the fifth GiB is the first one again** -/
theorem fifth_gib_wraps : ¬ ∀ (mode : Mode) (n : ℕ) (m : Mem) (la : ℕ), 1 ≤ n → n ≤ 512 →
    la < n * 2 ^ 30 → MapsToItself mode (setupPml4Map n m) la := by
  intro h
  obtain ⟨q, hq, -⟩ := h ⟨true, true⟩ 5 (fun _ => 0#8) (2 ^ 32) (by norm_num) (by norm_num)
    (by norm_num)
  rw [linearWalk_setup ⟨true, true⟩ (by norm_num) (by norm_num) _ (by norm_num)] at hq
  injection hq with hend
  exact absurd hend (by norm_num)

end Boot

end HyperC
