import Mathlib.Algebra.Order.Ring.Int
import HyperC.Print.Vsprintf

/-!
# `strcmp`

When the lengths differ `strcmp` answers with the difference of the first two characters, so strings
of different lengths with a common first character are equal to it.

* `strlen`, `strcmp`       the functions; the characters are signed, and lengths are `int`s;
* `codes`, `firstDifference`   the order of strings: the first place where they differ, the
                           terminator included;
* `strcmpLoop_toInt`       the loop gives the first difference of two strings of one length;
* `strcmp_compares_iff`    when `strcmp` compares two strings.
-/

namespace HyperC.Utils
open Print

/-- `strlen` behind `length` characters; the count is an `int` -/
def strlenLoop : List Byte → BitVec 32 → Except Trap (BitVec 32)
  | [], length => .ok length
  | _ :: str, length =>
    if length = BitVec.intMax 32 then .error .longString else strlenLoop str (length + 1#32)

def strlen (str : CString) : Except Trap (BitVec 32) := strlenLoop str.bytes 0#32

/-- `*str` -/
def charAt (str : List Byte) : Byte := str.headD 0#8

/-- the difference of two characters, as `int`s -/
def charDiff (c d : Byte) : BitVec 32 := c.signExtend 32 - d.signExtend 32

def strcmpLoop : List Byte → List Byte → BitVec 32
  | [], _ => 0#32
  | c :: str1, str2 =>
    if c ≠ charAt str2 then charDiff c (charAt str2) else strcmpLoop str1 str2.tail

def strcmp (str1 str2 : CString) : Except Trap (BitVec 32) := do
  let m ← strlen str1
  let n ← strlen str2
  return if m ≠ n then charDiff (charAt str1.bytes) (charAt str2.bytes)
    else strcmpLoop str1.bytes str2.bytes

/-! ## the order of strings -/

/-- the characters as numbers, and the terminator -/
def codes (s : CString) : List ℤ := s.bytes.map BitVec.toInt ++ [0]

/-- `x - y` at the first place where the lists differ -/
def firstDifference : List ℤ → List ℤ → ℤ
  | x :: s, y :: t => if x = y then firstDifference s t else x - y
  | _, _ => 0

/-- `r` says how `a` and `b` compare: by the sign of the first difference, in the lexicographic
order -/
structure Compares (a b : CString) (r : BitVec 32) : Prop where
  zero : r = 0#32 ↔ a = b
  sign : r.toInt.sign = (firstDifference (codes a) (codes b)).sign
  less : r.toInt < 0 ↔ codes a < codes b
  greater : 0 < r.toInt ↔ codes b < codes a

section
variable {s t : List ℤ} {a b : CString}

theorem firstDifference_cons (x y : ℤ) (s t : List ℤ) : firstDifference (x :: s) (y :: t)
    = if x = y then firstDifference s t else x - y := by
  rw [firstDifference]

theorem firstDifference_swap (s t : List ℤ) : firstDifference t s = -firstDifference s t := by
  induction s generalizing t with
  | nil => cases t <;> rfl
  | cons x s ih =>
    cases t with
    | nil => rfl
    | cons y t =>
      rw [firstDifference_cons, firstDifference_cons]
      by_cases h : x = y
      · rw [if_pos h, if_pos h.symm, ih]
      · rw [if_neg h, if_neg (Ne.symm h), neg_sub]

/-- **the first difference decides the lexicographic order** of lists that end with their zero -/
theorem firstDifference_neg_iff (hs : ∀ x ∈ s, x ≠ 0) (ht : ∀ y ∈ t, y ≠ 0) :
    firstDifference (s ++ [0]) (t ++ [0]) < 0 ↔ s ++ [0] < t ++ [0] := by
  induction s generalizing t with
  | nil =>
    cases t with
    | nil => simp [firstDifference]
    | cons y t =>
      have hy : (0 : ℤ) ≠ y := (ht y List.mem_cons_self).symm
      rw [List.nil_append, List.cons_append, firstDifference_cons, if_neg hy, List.cons_lt_cons_iff]
      simp [hy]
  | cons x s ih =>
    cases t with
    | nil =>
      have hx : x ≠ 0 := hs x List.mem_cons_self
      rw [List.nil_append, List.cons_append, firstDifference_cons, if_neg hx, List.cons_lt_cons_iff]
      simp [hx]
    | cons y t =>
      rw [List.cons_append, List.cons_append, firstDifference_cons, List.cons_lt_cons_iff]
      by_cases h : x = y
      · rw [if_pos h, ih (fun z hz => hs z (List.mem_cons_of_mem x hz))
          fun z hz => ht z (List.mem_cons_of_mem y hz)]
        simp [h]
      · rw [if_neg h]
        simp [h]

theorem toInt_ne_zero (s : CString) : ∀ x ∈ s.bytes.map BitVec.toInt, x ≠ 0 := by
  intro x hx
  obtain ⟨c, hc, rfl⟩ := List.mem_map.mp hx
  intro h
  exact s.nonzero c hc (BitVec.eq_of_toInt_eq (h.trans BitVec.toInt_zero.symm))

theorem codes_inj (h : codes a = codes b) : a = b := by
  have hmap : a.bytes.map BitVec.toInt = b.bytes.map BitVec.toInt := List.append_cancel_right h
  have hbytes : a.bytes = b.bytes :=
    List.map_injective_iff.mpr (fun _ _ => BitVec.eq_of_toInt_eq) hmap
  cases a
  cases b
  cases hbytes
  rfl

/-- a number with the first difference of the strings compares them -/
theorem compares_of_toInt {r : BitVec 32} (h : r.toInt = firstDifference (codes a) (codes b)) :
    Compares a b r := by
  have hless : r.toInt < 0 ↔ codes a < codes b := by
    rw [h]
    exact firstDifference_neg_iff (toInt_ne_zero a) (toInt_ne_zero b)
  have hgreater : 0 < r.toInt ↔ codes b < codes a := by
    rw [← Int.neg_neg_iff_pos, h, ← firstDifference_swap]
    exact firstDifference_neg_iff (toInt_ne_zero b) (toInt_ne_zero a)
  refine ⟨⟨fun h0 => ?_, fun hab => ?_⟩, by rw [h], hless, hgreater⟩
  · -- neither string is less than the other one
    rw [h0, BitVec.toInt_zero] at hless hgreater
    exact codes_inj (le_antisymm (not_lt.mp fun hlt => lt_irrefl 0 (hgreater.mpr hlt))
      (not_lt.mp fun hlt => lt_irrefl 0 (hless.mpr hlt)))
  · subst hab
    have hle := not_lt.mp fun hlt => lt_irrefl (codes a) (hless.mp hlt)
    have hge := not_lt.mp fun hlt => lt_irrefl (codes a) (hgreater.mp hlt)
    exact BitVec.eq_of_toInt_eq ((le_antisymm hge hle).trans BitVec.toInt_zero.symm)

end

/-! ## the functions -/

section
variable {a b : CString} {r : BitVec 32}

theorem charDiff_toInt (c d : Byte) : (charDiff c d).toInt = c.toInt - d.toInt := by
  have hc := BitVec.toInt_lt (x := c)
  have hc' := BitVec.le_toInt (x := c)
  have hd := BitVec.toInt_lt (x := d)
  have hd' := BitVec.le_toInt (x := d)
  rw [charDiff, BitVec.toInt_sub, BitVec.toInt_signExtend_of_le (by omega),
    BitVec.toInt_signExtend_of_le (by omega)]
  exact Int.bmod_eq_of_le (by omega) (by omega)

theorem strlenLoop_eq (str : List Byte) (n : ℕ) (hn : n < 2 ^ 31) :
    strlenLoop str (BitVec.ofNat 32 n)
      = if n + str.length < 2 ^ 31 then .ok (BitVec.ofNat 32 (n + str.length))
        else .error .longString := by
  induction str generalizing n with
  | nil =>
    rw [strlenLoop, List.length_nil, if_pos (by omega)]
    rfl
  | cons c str ih =>
    have hmax : BitVec.ofNat 32 n = BitVec.intMax 32 ↔ n = 2 ^ 31 - 1 := by
      rw [← BitVec.toNat_inj, BitVec.toNat_ofNat, BitVec.toNat_intMax, Nat.mod_eq_of_lt (by omega)]
    rw [strlenLoop, List.length_cons]
    by_cases h : n = 2 ^ 31 - 1
    · rw [if_pos (hmax.mpr h), if_neg (by omega)]
    · have hsucc : BitVec.ofNat 32 n + 1#32 = BitVec.ofNat 32 (n + 1) :=
        (BitVec.ofNat_add n 1).symm
      have hlen : n + 1 + str.length = n + (str.length + 1) := by omega
      rw [if_neg fun h0 => h (hmax.mp h0), hsucc, ih (n + 1) (by omega), hlen]

theorem strlen_eq (s : CString) : strlen s
    = if s.bytes.length < 2 ^ 31 then .ok (BitVec.ofNat 32 s.bytes.length)
      else .error .longString := by
  have h := strlenLoop_eq s.bytes 0 (by omega)
  rw [Nat.zero_add] at h
  exact h

/-- **what `strcmp` returns**: the shortcut, or what the loop finds -/
theorem strcmp_eq_ok : strcmp a b = .ok r ↔ a.bytes.length < 2 ^ 31 ∧ b.bytes.length < 2 ^ 31 ∧
    r = if a.bytes.length = b.bytes.length then strcmpLoop a.bytes b.bytes
      else charDiff (charAt a.bytes) (charAt b.bytes) := by
  have hlength : a.bytes.length < 2 ^ 31 → b.bytes.length < 2 ^ 31 →
      (BitVec.ofNat 32 a.bytes.length ≠ BitVec.ofNat 32 b.bytes.length ↔
        ¬ a.bytes.length = b.bytes.length) := by
    intro ha hb
    rw [Ne, ← BitVec.toNat_inj, BitVec.toNat_ofNat, BitVec.toNat_ofNat, Nat.mod_eq_of_lt (by omega),
      Nat.mod_eq_of_lt (by omega)]
  constructor
  · intro h
    obtain ⟨m, hm, h⟩ := bind_eq_ok.mp h
    obtain ⟨n, hn, h⟩ := bind_eq_ok.mp h
    rw [strlen_eq] at hm hn
    by_cases ha : a.bytes.length < 2 ^ 31
    · by_cases hb : b.bytes.length < 2 ^ 31
      · rw [if_pos ha] at hm
        rw [if_pos hb] at hn
        cases hm
        cases hn
        cases h
        refine ⟨ha, hb, ?_⟩
        simp only [hlength ha hb, ite_not]
      · rw [if_neg hb] at hn
        cases hn
    · rw [if_neg ha] at hm
      cases hm
  · rintro ⟨ha, hb, rfl⟩
    refine bind_eq_ok.mpr ⟨_, (strlen_eq a).trans (if_pos ha), bind_eq_ok.mpr
      ⟨_, (strlen_eq b).trans (if_pos hb), ?_⟩⟩
    simp only [hlength ha hb, ite_not]
    rfl

theorem strcmpLoop_cons (c d : Byte) (s t : List Byte) : strcmpLoop (c :: s) (d :: t)
    = if c ≠ d then charDiff c d else strcmpLoop s t := rfl

/-- **the loop finds the first difference** of two strings of one length -/
theorem strcmpLoop_toInt (s t : List Byte) (h : s.length = t.length) : (strcmpLoop s t).toInt
    = firstDifference (s.map BitVec.toInt ++ [0]) (t.map BitVec.toInt ++ [0]) := by
  induction s generalizing t with
  | nil =>
    rw [List.eq_nil_of_length_eq_zero h.symm]
    rfl
  | cons c s ih =>
    obtain ⟨d, t, rfl⟩ := List.exists_cons_of_length_eq_add_one h.symm
    rw [List.map_cons, List.map_cons, List.cons_append, List.cons_append, firstDifference_cons,
      strcmpLoop_cons]
    by_cases hcd : c = d
    · subst hcd
      rw [if_neg (not_not.mpr rfl), if_pos rfl]
      exact ih t (Nat.succ.inj h)
    · rw [if_pos hcd, if_neg fun h0 => hcd (BitVec.eq_of_toInt_eq h0)]
      exact charDiff_toInt c d

theorem codes_head (s : CString) : ∃ t, codes s = (charAt s.bytes).toInt :: t := by
  unfold codes
  cases s.bytes with
  | nil => exact ⟨[], rfl⟩
  | cons c t => exact ⟨t.map BitVec.toInt ++ [0], rfl⟩

/-- the shortcut is right when the first characters differ -/
theorem charDiff_firstDifference (h : charAt a.bytes ≠ charAt b.bytes) :
    (charDiff (charAt a.bytes) (charAt b.bytes)).toInt = firstDifference (codes a) (codes b) := by
  obtain ⟨s, hs⟩ := codes_head a
  obtain ⟨t, ht⟩ := codes_head b
  rw [hs, ht, firstDifference_cons, if_neg fun h0 => h (BitVec.eq_of_toInt_eq h0), charDiff_toInt]

theorem strcmp_toInt (h : strcmp a b = .ok r)
    (hsame : a.bytes.length = b.bytes.length ∨ charAt a.bytes ≠ charAt b.bytes) :
    r.toInt = firstDifference (codes a) (codes b) := by
  obtain ⟨-, -, rfl⟩ := strcmp_eq_ok.mp h
  by_cases hlen : a.bytes.length = b.bytes.length
  · rw [if_pos hlen]
    exact strcmpLoop_toInt _ _ hlen
  · rw [if_neg hlen]
    exact charDiff_firstDifference (hsame.resolve_left hlen)

/-- **`strcmp` compares two strings** exactly if they are shorter than `2 ^ 31` and have one length
or different first characters -/
theorem strcmp_compares_iff (a b : CString) :
    (∃ r r', strcmp a b = .ok r ∧ strcmp b a = .ok r' ∧ Compares a b r ∧
      r.toInt.sign = -r'.toInt.sign) ↔
    a.bytes.length < 2 ^ 31 ∧ b.bytes.length < 2 ^ 31 ∧
      (a.bytes.length = b.bytes.length ∨ charAt a.bytes ≠ charAt b.bytes) := by
  constructor
  · rintro ⟨r, -, hr, -, hcomp, -⟩
    obtain ⟨ha, hb, rfl⟩ := strcmp_eq_ok.mp hr
    refine ⟨ha, hb, or_iff_not_imp_left.mpr fun hlen hfirst => hlen ?_⟩
    -- the shortcut calls them equal
    have hzero := hcomp.zero
    rw [if_neg hlen, hfirst, charDiff, BitVec.sub_self] at hzero
    rw [hzero.mp rfl]
  · rintro ⟨ha, hb, hsame⟩
    have hab := strcmp_eq_ok.mpr ⟨ha, hb, rfl⟩
    have hba := strcmp_eq_ok.mpr ⟨hb, ha, rfl⟩
    refine ⟨_, _, hab, hba, compares_of_toInt (strcmp_toInt hab hsame), ?_⟩
    rw [strcmp_toInt hab hsame, strcmp_toInt hba (hsame.imp Eq.symm Ne.symm), firstDifference_swap,
      Int.sign_neg]

/-- **the shortcut looks at one character**: `"ab"` and `"a"` are equal to `strcmp` -/
theorem strcmp_shortcut : ¬ ∀ a b : CString, ∃ r r', strcmp a b = .ok r ∧ strcmp b a = .ok r' ∧
    Compares a b r ∧ r.toInt.sign = -r'.toInt.sign := by
  intro h
  have hab : strcmp ⟨[ch 'a', ch 'b'], by decide⟩ ⟨[ch 'a'], by decide⟩ = .ok 0#32 := by decide
  obtain ⟨r, -, hr, -, hcomp, -⟩ := h ⟨[ch 'a', ch 'b'], by decide⟩ ⟨[ch 'a'], by decide⟩
  rw [hab] at hr
  cases hr
  have heq := congrArg CString.bytes (hcomp.zero.mp rfl)
  exact absurd heq (by decide)

end

end HyperC.Utils
