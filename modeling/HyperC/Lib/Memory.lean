import Mathlib.Order.Interval.Set.Basic

/-!
# Byte memories and little-endian words

A memory maps every address to a byte.  A word of `n` bytes lives at `n` consecutive addresses,
the least significant byte first.

* `load m a n`, `store m a v`   reading and writing such a word;
* `load_store_same`, `load_store_disjoint`, `load_congr`   what a read sees;
* `SameOn m m' a b`             the two agree from `a` on, below `b` (reflexive, transitive, and
                                monotone in the interval);
* `byte_of_load`                the bytes of a stored word, so that facts about words give facts
                                about bytes;
* `forLoop n body s`            a counting loop, and `mapWords a f n m`, the loop that rewrites the
                                `n` eight-byte words of an array in place: what it reads back
                                (`load64_mapWords`) and what it leaves (`mapWords_outside`).
-/

/-- a byte memory -/
abbrev Mem := Nat → BitVec 8

namespace Mem

/-- the little-endian word of `n` bytes at `a` -/
def load (m : Mem) (a : Nat) : (n : Nat) → BitVec (8 * n)
  | 0 => 0#0
  | n + 1 => (m (a + n) ++ load m a n).cast (by omega)

/-- `m` with the word `v` stored at `a` -/
def store (m : Mem) (a : Nat) {n : Nat} (v : BitVec (8 * n)) : Mem := fun x =>
  if a ≤ x ∧ x < a + n then v.extractLsb' (8 * (x - a)) 8 else m x

/-- the two memories agree from `a` on, below `b` -/
def SameOn (m m' : Mem) (a b : Nat) : Prop := ∀ x, a ≤ x → x < b → m' x = m x

/-- the `n` bytes at `a` are zero -/
def ZeroOn (m : Mem) (a n : Nat) : Prop := ∀ x, a ≤ x → x < a + n → m x = 0#8

theorem getLsbD_load (m : Mem) (a n i : Nat) (hi : i < 8 * n) :
    (load m a n).getLsbD i = (m (a + i / 8)).getLsbD (i % 8) := by
  induction n with
  | zero => omega
  | succ n ih =>
    rw [load, BitVec.getLsbD_cast, BitVec.getLsbD_append]
    by_cases h : i < 8 * n
    · rw [if_pos h, ih h]
    · have h1 : i / 8 = n := by omega
      have h2 : i - 8 * n = i % 8 := by omega
      rw [if_neg h, h1, h2]

theorem byte_of_load (m : Mem) (a n k : Nat) (hk : k < n) :
    (load m a n).extractLsb' (8 * k) 8 = m (a + k) := by
  apply BitVec.eq_of_getLsbD_eq
  intro i hi
  rw [BitVec.getLsbD_extractLsb', getLsbD_load m a n _ (by omega)]
  have h1 : (8 * k + i) / 8 = k := by omega
  have h2 : (8 * k + i) % 8 = i := by omega
  simp [hi, h1, h2]

theorem load_congr {m m' : Mem} {a n : Nat} (h : ∀ k, k < n → m' (a + k) = m (a + k)) :
    load m' a n = load m a n := by
  apply BitVec.eq_of_getLsbD_eq
  intro i hi
  rw [getLsbD_load m' a n i hi, getLsbD_load m a n i hi, h _ (by omega)]

theorem load_eq_zero {m : Mem} {a n : Nat} (h : ∀ k, k < n → m (a + k) = 0#8) :
    load m a n = 0#(8 * n) := by
  apply BitVec.eq_of_getLsbD_eq
  intro i hi
  rw [getLsbD_load m a n i hi, h _ (by omega)]
  simp

theorem load_store_low (m : Mem) (a : Nat) {n k : Nat} (v : BitVec (8 * n)) (h : k ≤ n) :
    load (store m a v) a k = v.setWidth (8 * k) := by
  apply BitVec.eq_of_getLsbD_eq
  intro i hi
  rw [getLsbD_load _ a k i hi]
  have h1 : a ≤ a + i / 8 ∧ a + i / 8 < a + n := by omega
  have h2 : 8 * (a + i / 8 - a) + i % 8 = i := by omega
  have h3 : i % 8 < 8 := by omega
  rw [store, if_pos h1, BitVec.getLsbD_extractLsb', h2, BitVec.getLsbD_setWidth]
  simp [h3, hi]

theorem load_store_same (m : Mem) (a : Nat) {n : Nat} (v : BitVec (8 * n)) :
    load (store m a v) a n = v := by
  rw [load_store_low m a v le_rfl, BitVec.setWidth_eq]

theorem store_outside (m : Mem) (a : Nat) {n : Nat} (v : BitVec (8 * n)) (x : Nat)
    (h : x < a ∨ a + n ≤ x) : store m a v x = m x := by
  rw [store, if_neg (by omega)]

theorem load_store_disjoint (m : Mem) (a b : Nat) {n k : Nat} (v : BitVec (8 * n))
    (h : b + k ≤ a ∨ a + n ≤ b) : load (store m a v) b k = load m b k :=
  load_congr fun j hj => store_outside m a v _ (by omega)

/-! ## intervals -/

theorem SameOn.refl (m : Mem) (a b : Nat) : SameOn m m a b := fun _ _ _ => rfl

theorem SameOn.trans {m₁ m₂ m₃ : Mem} {a b : Nat} (h₁ : SameOn m₁ m₂ a b) (h₂ : SameOn m₂ m₃ a b) :
    SameOn m₁ m₃ a b := fun x ha hb => (h₂ x ha hb).trans (h₁ x ha hb)

theorem SameOn.mono {m m' : Mem} {a b a' b' : Nat} (h : SameOn m m' a b) (ha : a ≤ a')
    (hb : b' ≤ b) : SameOn m m' a' b' := fun x hxa hxb => h x (by omega) (by omega)

theorem SameOn.load {m m' : Mem} {a b c n : Nat} (h : SameOn m m' a b) (ha : a ≤ c)
    (hb : c + n ≤ b) : m'.load c n = m.load c n :=
  load_congr fun k hk => h _ (by omega) (by omega)

/-! ## counting loops over arrays -/

section
variable {σ : Type}

/-- `for (i = 0; i < n; i++) body(i)` -/
def forLoop : Nat → (Nat → σ → σ) → σ → σ
  | 0, _, s => s
  | n + 1, body, s => body n (forLoop n body s)

theorem forLoop_succ (n : Nat) (body : Nat → σ → σ) (s : σ) :
    forLoop (n + 1) body s = body n (forLoop n body s) := rfl

theorem forLoop_pair {τ : Type} (n : Nat) (f : Nat → τ → σ → σ) (g : τ → τ) (v : Nat → τ)
    (hv : ∀ i, g (v i) = v (i + 1)) (s : σ) :
    forLoop n (fun i (p : σ × τ) => (f i p.2 p.1, g p.2)) (s, v 0)
      = (forLoop n (fun i s => f i (v i) s) s, v n) := by
  induction n with
  | zero => rfl
  | succ n ih => rw [forLoop_succ, ih, forLoop_succ, hv]

end

/-! ## words of eight bytes -/

/-- the eight-byte word at `a` -/
def load64 (m : Mem) (a : Nat) : BitVec 64 := m.load a 8

/-- `m` with an eight-byte word stored at `a` -/
def store64 (m : Mem) (a : Nat) (v : BitVec 64) : Mem := @store m a 8 v

theorem store_halves (m : Mem) (a : Nat) (hi lo : BitVec 32) :
    @store (@store m a 4 lo) (a + 4) 4 hi = m.store64 a (hi ++ lo) := by
  have happ : ∀ j, BitVec.getLsbD (w := 64) (hi ++ lo) j
      = if j < 32 then lo.getLsbD j else hi.getLsbD (j - 32) := fun _ => BitVec.getLsbD_append
  funext x
  show (if a + 4 ≤ x ∧ x < a + 4 + 4 then hi.extractLsb' (8 * (x - (a + 4))) 8
    else if a ≤ x ∧ x < a + 4 then lo.extractLsb' (8 * (x - a)) 8 else m x)
    = if a ≤ x ∧ x < a + 8 then (hi ++ lo).extractLsb' (8 * (x - a)) 8 else m x
  by_cases h1 : a + 4 ≤ x ∧ x < a + 8
  · have h2 : a ≤ x ∧ x < a + 8 := by omega
    rw [if_pos (by omega), if_pos h2]
    apply BitVec.eq_of_getLsbD_eq
    intro i hi8
    have h3 : ¬ 8 * (x - a) + i < 32 := by omega
    have h4 : 8 * (x - a) + i - 32 = 8 * (x - (a + 4)) + i := by omega
    rw [BitVec.getLsbD_extractLsb', BitVec.getLsbD_extractLsb', happ, if_neg h3, h4]
  · rw [if_neg (by omega)]
    by_cases h2 : a ≤ x ∧ x < a + 4
    · rw [if_pos h2, if_pos (by omega)]
      apply BitVec.eq_of_getLsbD_eq
      intro i hi8
      have h3 : 8 * (x - a) + i < 32 := by omega
      rw [BitVec.getLsbD_extractLsb', BitVec.getLsbD_extractLsb', happ, if_pos h3]
    · rw [if_neg h2, if_neg (by omega)]

/-- a word rewritten in place -/
def update64 (a : Nat) (f : BitVec 64 → BitVec 64) (m : Mem) : Mem := m.store64 a (f (m.load64 a))

theorem load64_store64_same (m : Mem) (a : Nat) (v : BitVec 64) : (m.store64 a v).load64 a = v :=
  @load_store_same m a 8 v

theorem load64_store64_disjoint (m : Mem) (a b : Nat) (v : BitVec 64) (h : b + 8 ≤ a ∨ a + 8 ≤ b) :
    (m.store64 a v).load64 b = m.load64 b :=
  @load_store_disjoint m a b 8 8 v h

theorem store64_outside (m : Mem) (a : Nat) (v : BitVec 64) (x : Nat) (h : x < a ∨ a + 8 ≤ x) :
    m.store64 a v x = m x :=
  @store_outside m a 8 v x h

theorem load64_congr {m m' : Mem} {a : Nat} (h : ∀ k, k < 8 → m' (a + k) = m (a + k)) :
    m'.load64 a = m.load64 a :=
  load_congr h

theorem load64_eq_zero {m : Mem} {a : Nat} (h : ∀ k, k < 8 → m (a + k) = 0#8) :
    m.load64 a = 0#64 :=
  load_eq_zero h

theorem SameOn.load64 {m m' : Mem} {a b c : Nat} (h : SameOn m m' a b) (ha : a ≤ c)
    (hb : c + 8 ≤ b) : m'.load64 c = m.load64 c :=
  SameOn.load (n := 8) h ha hb

theorem SameOn.store64 (m : Mem) {a b c : Nat} (v : BitVec 64) (h : b ≤ c ∨ c + 8 ≤ a) :
    SameOn m (m.store64 c v) a b := fun x _ _ => store64_outside m c v x (by omega)

theorem ZeroOn.load64 {m : Mem} {a n b : Nat} (h : ZeroOn m a n) (h1 : a ≤ b) (h2 : b + 8 ≤ a + n) :
    m.load64 b = 0#64 :=
  load64_eq_zero fun k hk => h _ (by omega) (by omega)

theorem load64_update64_same (a : Nat) (f : BitVec 64 → BitVec 64) (m : Mem) :
    (update64 a f m).load64 a = f (m.load64 a) :=
  load64_store64_same _ _ _

theorem load64_update64_disjoint (a b : Nat) (f : BitVec 64 → BitVec 64) (m : Mem)
    (h : b + 8 ≤ a ∨ a + 8 ≤ b) : (update64 a f m).load64 b = m.load64 b :=
  load64_store64_disjoint _ _ _ _ h

theorem update64_outside (a : Nat) (f : BitVec 64 → BitVec 64) (m : Mem) (x : Nat)
    (h : x < a ∨ a + 8 ≤ x) : update64 a f m x = m x :=
  store64_outside _ _ _ _ h

/-- the `n` words at `a`, each rewritten in place from its index and old value -/
def mapWords (a : Nat) (f : Nat → BitVec 64 → BitVec 64) (n : Nat) (m : Mem) : Mem :=
  forLoop n (fun i => update64 (a + 8 * i) (f i)) m

theorem mapWords_succ (a : Nat) (f : Nat → BitVec 64 → BitVec 64) (n : Nat) (m : Mem) :
    mapWords a f (n + 1) m = update64 (a + 8 * n) (f n) (mapWords a f n m) := rfl

theorem mapWords_outside (a : Nat) (f : Nat → BitVec 64 → BitVec 64) (n : Nat) (m : Mem) (x : Nat)
    (h : x < a ∨ a + 8 * n ≤ x) : mapWords a f n m x = m x := by
  induction n with
  | zero => rfl
  | succ n ih => rw [mapWords_succ, update64_outside _ _ _ _ (by omega), ih (by omega)]

theorem load64_mapWords_outside (a : Nat) (f : Nat → BitVec 64 → BitVec 64) (n : Nat) (m : Mem)
    (b : Nat) (h : b + 8 ≤ a ∨ a + 8 * n ≤ b) : (mapWords a f n m).load64 b = m.load64 b :=
  load64_congr fun k hk => mapWords_outside a f n m _ (by omega)

theorem mapWords_front (a : Nat) (f : Nat → BitVec 64 → BitVec 64) (n : Nat) (m : Mem) :
    mapWords a f (n + 1) m = mapWords (a + 8) (fun i => f (i + 1)) n (update64 a (f 0) m) := by
  induction n with
  | zero => rfl
  | succ n ih =>
    have ha : a + 8 * (n + 1) = a + 8 + 8 * n := by omega
    rw [mapWords_succ, ih, mapWords_succ _ _ n, ha]

/-- **the loop reads back**: word `i` of the array is `f i` of its old value -/
theorem load64_mapWords (a : Nat) (f : Nat → BitVec 64 → BitVec 64) (n : Nat) (m : Mem) (i : Nat)
    (hi : i < n) : (mapWords a f n m).load64 (a + 8 * i) = f i (m.load64 (a + 8 * i)) := by
  induction n with
  | zero => omega
  | succ n ih =>
    rw [mapWords_succ]
    by_cases h : i = n
    · subst h
      rw [load64_update64_same, load64_mapWords_outside _ _ _ _ _ (by omega)]
    · rw [load64_update64_disjoint _ _ _ _ (by omega), ih (by omega)]

end Mem
