import Mathlib.Data.Nat.Notation
import Mathlib.Tactic.Linarith

/-!
# Radix page-table walks

A page table of the x86 kind is a tree of tables of 512 eight-byte entries.  Level `0` maps pages
of 4 KiB, and the entry of a table at level `n` covers `2^(12 + 9 n)` bytes.  A `Format` says what
an entry means: it stops the walk, points to a table one level down, or maps a page of its level's
size.

* `walk`, `resolve`   the walk from a table, and from an entry that was already read;
* `path`              the entries the walk visits;
* `resolve_congr`     below an entry only the low bits of the address matter;
* `Dead`              no address resolves below the entry, said level by level and for tables of
                      an allowed kind only, and `dead_iff`: that is the same as every walk below
                      the entry ending in the given fault, when the tables that are not allowed all
                      lead somewhere.
-/

namespace Walk

/-- what an entry says; `π` are rights and attributes, `φ` faults -/
inductive Slot (π φ : Type) where
  | stop (f : φ)
  | table (base : ℕ) (p : π)
  | page (base : ℕ) (p : π)

/-- where a walk ends -/
inductive Result (π φ : Type) where
  | fault (f : φ)
  | mapped (addr : ℕ) (p : π)
deriving DecidableEq

/-- the meaning of the entries of each level, and how attributes combine on the way down -/
structure Format (π φ : Type) where
  decode : ℕ → BitVec 64 → Slot π φ
  comb : π → π → π

/-- an entry met by a walk -/
structure Visit where
  level : ℕ
  addr : ℕ
  entry : BitVec 64

/-- the bytes covered by an entry of level `n` -/
def span (n : ℕ) : ℕ := 2 ^ (12 + 9 * n)

/-- the index of `addr` in a table of level `n` -/
def index (n addr : ℕ) : ℕ := addr / span n % 512

/-- the address of the entry for `addr` in a table of level `n` -/
def slotAddr (n table addr : ℕ) : ℕ := table + 8 * index n addr

theorem span_pos (n : ℕ) : 0 < span n := Nat.two_pow_pos _

theorem span_succ (n : ℕ) : span (n + 1) = span n * 512 := by
  show 2 ^ (12 + 9 * n + 9) = 2 ^ (12 + 9 * n) * 512
  rw [Nat.pow_add]

theorem index_lt (n addr : ℕ) : index n addr < 512 := Nat.mod_lt _ (by norm_num)

/-- the index at level `n` only depends on the address inside an entry of level `n + 1` -/
theorem index_mod (n addr : ℕ) : index n (addr % span (n + 1)) = index n addr := by
  unfold index
  rw [span_succ, Nat.mod_mul_right_div_self, Nat.mod_mod]

section
variable {π φ : Type} (F : Format π φ) (rd : ℕ → Except φ (BitVec 64))

/-- the walk of `addr` from the entry `e` of level `n`, attributes `p` so far -/
def resolve : ℕ → BitVec 64 → π → ℕ → Result π φ
  | 0, e, p, addr =>
    match F.decode 0 e with
    | .stop f => .fault f
    | .table b q => .mapped (b + addr % span 0) (F.comb p q)
    | .page b q => .mapped (b + addr % span 0) (F.comb p q)
  | n + 1, e, p, addr =>
    match F.decode (n + 1) e with
    | .stop f => .fault f
    | .page b q => .mapped (b + addr % span (n + 1)) (F.comb p q)
    | .table b q =>
      match rd (slotAddr n b addr) with
      | .error f => .fault f
      | .ok e' => resolve n e' (F.comb p q) addr

/-- the walk of `addr` from a table of level `n` -/
def walk (n table : ℕ) (p : π) (addr : ℕ) : Result π φ :=
  match rd (slotAddr n table addr) with
  | .error f => .fault f
  | .ok e => resolve F rd n e p addr

/-- the entries visited by the walk of `addr` from a table of level `n` -/
def path : ℕ → ℕ → ℕ → List Visit
  | 0, table, addr =>
    match rd (slotAddr 0 table addr) with
    | .error _ => []
    | .ok e => [⟨0, slotAddr 0 table addr, e⟩]
  | n + 1, table, addr =>
    match rd (slotAddr (n + 1) table addr) with
    | .error _ => []
    | .ok e =>
      ⟨n + 1, slotAddr (n + 1) table addr, e⟩ ::
        match F.decode (n + 1) e with
        | .table b _ => path n b addr
        | _ => []

variable {F rd} {n b table addr : ℕ} {e : BitVec 64} {p q : π} {f : φ}

theorem walk_of_ok (h : rd (slotAddr n table addr) = .ok e) :
    walk F rd n table p addr = resolve F rd n e p addr := by
  rw [walk, h]

theorem resolve_stop (h : F.decode n e = .stop f) : resolve F rd n e p addr = .fault f := by
  cases n <;> simp [resolve, h]

theorem resolve_page (h : F.decode n e = .page b q) :
    resolve F rd n e p addr = .mapped (b + addr % span n) (F.comb p q) := by
  cases n <;> simp [resolve, h]

theorem resolve_table (h : F.decode (n + 1) e = .table b q) :
    resolve F rd (n + 1) e p addr = walk F rd n b (F.comb p q) addr := by
  simp only [resolve, h, walk]

theorem path_zero (h : rd (slotAddr 0 table addr) = .ok e) :
    path F rd 0 table addr = [⟨0, slotAddr 0 table addr, e⟩] := by
  rw [path, h]

theorem path_table (h : rd (slotAddr (n + 1) table addr) = .ok e)
    (hd : F.decode (n + 1) e = .table b q) :
    path F rd (n + 1) table addr
      = ⟨n + 1, slotAddr (n + 1) table addr, e⟩ :: path F rd n b addr := by
  simp only [path, h, hd]

theorem path_stop (h : rd (slotAddr (n + 1) table addr) = .ok e)
    (hd : F.decode (n + 1) e = .stop f) :
    path F rd (n + 1) table addr = [⟨n + 1, slotAddr (n + 1) table addr, e⟩] := by
  simp only [path, h, hd]

theorem resolve_congr {addr' : ℕ} (h : addr % span n = addr' % span n) (e : BitVec 64) (p : π) :
    resolve F rd n e p addr = resolve F rd n e p addr' := by
  induction n generalizing e p with
  | zero => simp only [resolve, h]
  | succ n ih =>
    have hi : index n addr = index n addr' := by rw [← index_mod, h, index_mod]
    have hlow : addr % span n = addr' % span n := by
      have hdvd : span n ∣ span (n + 1) := ⟨512, span_succ n⟩
      rw [← Nat.mod_mod_of_dvd addr hdvd, h, Nat.mod_mod_of_dvd addr' hdvd]
    cases hd : F.decode (n + 1) e with
    | stop f => rw [resolve_stop hd, resolve_stop hd]
    | page b q => rw [resolve_page hd, resolve_page hd, h]
    | table b q =>
      rw [resolve_table hd, resolve_table hd, walk, walk, slotAddr, slotAddr, hi]
      cases rd (b + 8 * index n addr') with
      | error f => rfl
      | ok e' => exact ih hlow e' _

theorem resolve_fault (p' : π) (h : resolve F rd n e p addr = .fault f) :
    resolve F rd n e p' addr = .fault f := by
  induction n generalizing e p p' with
  | zero =>
    cases hd : F.decode 0 e with
    | stop f' => rwa [resolve_stop hd] at h ⊢
    | page b q => simp [resolve_page hd] at h
    | table b q => simp [resolve, hd] at h
  | succ n ih =>
    cases hd : F.decode (n + 1) e with
    | stop f' => rwa [resolve_stop hd] at h ⊢
    | page b q => simp [resolve_page hd] at h
    | table b q =>
      rw [resolve_table hd, walk] at h ⊢
      cases hr : rd (slotAddr n b addr) with
      | error f' =>
        simp only [hr] at h ⊢
        exact h
      | ok e' =>
        simp only [hr] at h ⊢
        exact ih _ h

end

/-! ## entries below which nothing resolves -/

section
variable {π φ : Type} (F : Format π φ) (np : φ) (allowed : ℕ → Prop) (old : ℕ → BitVec 64)

/-- no address resolves below the entry: it stops with `np`, or points to an allowed table all of
whose entries are dead -/
def Dead : ℕ → BitVec 64 → Prop
  | 0, e => F.decode 0 e = .stop np
  | n + 1, e =>
    match F.decode (n + 1) e with
    | .stop f => f = np
    | .page _ _ => False
    | .table b _ => allowed b ∧ ∀ i < 512, Dead n (old (b + 8 * i))

variable {F np allowed old} {rd : ℕ → Except φ (BitVec 64)}

theorem exists_addr (n i addr : ℕ) (hi : i < 512) :
    ∃ addr', index n addr' = i ∧ addr' % span n = addr % span n := by
  refine ⟨span n * i + addr % span n, ?_, ?_⟩
  · rw [index, Nat.mul_add_div (span_pos n), Nat.div_eq_of_lt (Nat.mod_lt _ (span_pos n)),
      Nat.add_zero, Nat.mod_eq_of_lt hi]
  · rw [Nat.mul_add_mod, Nat.mod_mod]

/-- **Dead entries are those below which every walk ends in `np`**, when the walk reads the allowed
tables as `old` has them and every other table leads to something else than `np`. -/
theorem dead_iff [Nonempty π]
    (hsame : ∀ n e b q, F.decode (n + 1) e = .table b q → allowed b →
      ∀ i < 512, rd (b + 8 * i) = .ok (old (b + 8 * i)))
    (hother : ∀ n e b q, F.decode (n + 1) e = .table b q → ¬ allowed b →
      ∀ p, ∃ addr, walk F rd n b p addr ≠ .fault np) (n : ℕ) (e : BitVec 64) :
    Dead F np allowed old n e ↔ ∀ p addr, resolve F rd n e p addr = .fault np := by
  obtain ⟨p₀⟩ := ‹Nonempty π›
  induction n generalizing e with
  | zero =>
    constructor
    · intro h p addr
      exact resolve_stop h
    · intro h
      cases hd : F.decode 0 e with
      | stop f =>
        have h0 := h p₀ 0
        rw [resolve_stop hd, Result.fault.injEq] at h0
        rw [Dead, hd, h0]
      | page b q => simpa [resolve_page hd] using h p₀ 0
      | table b q => simpa [resolve, hd] using h p₀ 0
  | succ n ih =>
    cases hd : F.decode (n + 1) e with
    | stop f =>
      simp only [Dead, hd, resolve_stop hd, Result.fault.injEq]
      exact ⟨fun h _ _ => h, fun h => h p₀ 0⟩
    | page b q =>
      simp only [Dead, hd, resolve_page hd, reduceCtorEq, false_iff]
      exact fun h => h p₀ 0
    | table b q =>
      simp only [Dead, hd, resolve_table hd]
      constructor
      · rintro ⟨hb, hall⟩ p addr
        have hi := index_lt n addr
        rw [walk_of_ok (hsame n e b q hd hb _ hi)]
        exact (ih _).mp (hall _ hi) _ _
      · intro h
        have hb : allowed b := by
          by_contra hb
          obtain ⟨addr, hne⟩ := hother n e b q hd hb (F.comb p₀ q)
          exact hne (h p₀ addr)
        refine ⟨hb, fun i hi => (ih _).mpr fun p addr => ?_⟩
        -- an address below entry `i` with the low bits of `addr`
        obtain ⟨addr', hidx, hlow⟩ := exists_addr n i addr hi
        have h' := h p₀ addr'
        rw [walk_of_ok (e := old (b + 8 * i))
          (by rw [slotAddr, hidx]; exact hsame n e b q hd hb i hi)] at h'
        rw [← resolve_congr hlow]
        exact resolve_fault p h'

end

end Walk
