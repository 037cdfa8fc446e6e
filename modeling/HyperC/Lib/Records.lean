import Mathlib.Data.List.TakeWhile

/-!
# Streams of records

A record is written as a list of symbols, and a stream of records as these lists one after the other.
Nothing stands between two records, so a reader has to see from the front of the stream where a record
ends.

* `read`, `readAll`   a reader from a guess: the guess says which record stands at the front, and what
                      it says is checked;
* `Guesses`           the guess is right on streams of records;
* `readAll_iff`       then the reader accepts the streams of records, and reads from each the records it
                      is made of;
* `stream_inj`        so no two lists of records have one stream;
* `field`             the part of a record up to a separator.
-/

namespace Records
variable {ε ℓ : Type} [DecidableEq ℓ] {write : ε → List ℓ} {guess : List ℓ → Option ε}

/-- the records one after the other -/
def stream (write : ε → List ℓ) (es : List ε) : List ℓ := es.flatMap write

/-- the record at the front and what stands behind it -/
def read (write : ε → List ℓ) (guess : List ℓ → Option ε) (s : List ℓ) : Option (ε × List ℓ) :=
  (guess s).bind fun e => if write e <+: s then some (e, s.drop (write e).length) else none

def readUpTo (write : ε → List ℓ) (guess : List ℓ → Option ε) : ℕ → List ℓ → Option (List ε)
  | _, [] => some []
  | 0, _ :: _ => none
  | n + 1, c :: s => (read write guess (c :: s)).bind fun r =>
    (readUpTo write guess n r.2).map (r.1 :: ·)

/-- all records of a stream, of which there are at most as many as symbols -/
def readAll (write : ε → List ℓ) (guess : List ℓ → Option ε) (s : List ℓ) : Option (List ε) :=
  readUpTo write guess s.length s

/-- the guess is right on streams of records -/
structure Guesses (write : ε → List ℓ) (guess : List ℓ → Option ε) : Prop where
  front : ∀ e es, guess (write e ++ stream write es) = some e
  ne_nil : ∀ e, write e ≠ []

theorem read_write (h : Guesses write guess) (e : ε) (es : List ε) :
    read write guess (write e ++ stream write es) = some (e, stream write es) := by
  rw [read, h.front, Option.bind_some, if_pos (List.prefix_append _ _), List.drop_left]

theorem read_sound {e : ε} {s t : List ℓ} (h : read write guess s = some (e, t)) :
    s = write e ++ t := by
  obtain ⟨e', -, h⟩ := Option.bind_eq_some_iff.mp h
  split_ifs at h with hpre
  obtain ⟨t', rfl⟩ := hpre
  rw [List.drop_left] at h
  cases h
  rfl

theorem readUpTo_stream (h : Guesses write guess) (es : List ε) (n : ℕ)
    (hn : (stream write es).length ≤ n) : readUpTo write guess n (stream write es) = some es := by
  induction es generalizing n with
  | nil => cases n <;> rfl
  | cons e es ih =>
    have hsplit : stream write (e :: es) = write e ++ stream write es := List.flatMap_cons
    have hpos := List.length_pos_iff.mpr (h.ne_nil e)
    rw [hsplit, List.length_append] at hn
    obtain ⟨n, rfl⟩ : ∃ m, n = m + 1 := ⟨n - 1, by omega⟩
    obtain ⟨c, s, hc⟩ := List.exists_cons_of_ne_nil (h.ne_nil e)
    have hread := read_write h e es
    rw [hsplit]
    rw [hc, List.cons_append] at hread ⊢
    rw [readUpTo, hread, Option.bind_some, ih n (by omega)]
    rfl

theorem readUpTo_sound {n : ℕ} {s : List ℓ} {es : List ε} (h : readUpTo write guess n s = some es) :
    s = stream write es := by
  induction n generalizing s es with
  | zero =>
    cases s with
    | nil =>
      cases h
      rfl
    | cons c s => cases h
  | succ n ih =>
    cases s with
    | nil =>
      cases h
      rfl
    | cons c s =>
      obtain ⟨⟨e, t⟩, hread, h⟩ := Option.bind_eq_some_iff.mp h
      obtain ⟨es', hrest, rfl⟩ := Option.map_eq_some_iff.mp h
      have ht : t = stream write es' := ih hrest
      rw [read_sound hread, ht]
      exact List.flatMap_cons.symm

/-- **the reader reads exactly the streams of records** -/
theorem readAll_iff (h : Guesses write guess) {s : List ℓ} {es : List ε} :
    readAll write guess s = some es ↔ s = stream write es := by
  constructor
  · exact readUpTo_sound
  · rintro rfl
    exact readUpTo_stream h es _ (Nat.le_refl _)

/-- **a stream has one reading** -/
theorem stream_inj (h : Guesses write guess) {es fs : List ε}
    (heq : stream write es = stream write fs) : es = fs := by
  have hes := (readAll_iff h).mpr (rfl : stream write es = stream write es)
  rw [heq, (readAll_iff h).mpr rfl] at hes
  exact (Option.some.inj hes).symm

/-! ## separators -/

/-- the symbols before the first separator, and those behind it -/
def field (c : ℓ) (s : List ℓ) : List ℓ × List ℓ :=
  (s.takeWhile (· != c), (s.dropWhile (· != c)).tail)

theorem field_append {c : ℓ} {x : List ℓ} (s : List ℓ) (h : c ∉ x) : field c (x ++ c :: s) = (x, s) := by
  have hne : ∀ d ∈ x, (d != c) = true := fun d hd => bne_iff_ne.mpr fun hdc => h (hdc ▸ hd)
  have htake : (x ++ c :: s).takeWhile (· != c) = x := by
    rw [List.takeWhile_append_of_pos hne, List.takeWhile_cons, if_neg (by simp), List.append_nil]
  have hdrop : (x ++ c :: s).dropWhile (· != c) = c :: s := by
    rw [List.dropWhile_append_of_pos hne, List.dropWhile_cons, if_neg (by simp)]
  rw [field, htake, hdrop]
  rfl

theorem not_mem_field (c : ℓ) (s : List ℓ) : c ∉ (field c s).1 := by
  intro h
  have hmem : c ∈ s.takeWhile (· != c) := h
  simpa using List.mem_takeWhile_imp hmem

end Records
