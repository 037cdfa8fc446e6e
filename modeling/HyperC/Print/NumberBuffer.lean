import HyperC.Print.Cursor
import HyperC.Print.ReadNumber

/-!
# `number_buffer`

`sprint_integer` puts the digits into an array of its own frame and the terminator behind the last
element, scans the array for the first digit and copies the text from there.

* `NumberBuffer`           the bytes from the array on, and every access to them in order;
* `digitStores`, `getNumberStartAt`, `strcpyAt`, `sprintIntegerAt`   the loops over the array;
* `digitStores_holds`      the loop leaves the digits of `digitLoop` before the terminator;
* `getNumberStartAt_eq`, `strcpyAt_eq`   the scan and the copy end, and read nothing behind it;
* `sprintIntegerAt_eq`     the text is that of `sprintInteger`;
* `staysInArray_iff`       the array would need one element more.

The byte behind the array is taken to belong to nothing else that the function uses.
-/

namespace HyperC.Print

inductive BufferAccess where
  | read (i : ℕ)
  | write (i : ℕ)
deriving DecidableEq

def BufferAccess.index : BufferAccess → ℕ
  | .read i => i
  | .write i => i

/-- the bytes from `number_buffer` on, and what has been read and written there -/
structure NumberBuffer where
  bytes : Mem
  accesses : List BufferAccess

namespace NumberBuffer

def store (i : ℕ) (c : Byte) (b : NumberBuffer) : NumberBuffer :=
  ⟨Function.update b.bytes i c, b.accesses ++ [.write i]⟩

def touch (i : ℕ) (b : NumberBuffer) : NumberBuffer := ⟨b.bytes, b.accesses ++ [.read i]⟩

/-- every access is to one of `size` elements, and what is read ends at a terminator in one of them -/
structure Inside (size : ℕ) (b : NumberBuffer) : Prop where
  index : ∀ x ∈ b.accesses, x.index < size
  stops : ∃ t < size, b.bytes t = 0#8 ∧ ∀ i, .read i ∈ b.accesses → i ≤ t

end NumberBuffer

/-- the loop that fills `number_buffer[n - 1]`, …, `number_buffer[0]` -/
def digitStores (base : BitVec 32) : ℕ → BitVec 32 → NumberBuffer → NumberBuffer
  | 0, _, b => b
  | n + 1, value, b => digitStores base n (value / base) (b.store n (hexDigit (value % base).toNat))

/-- `get_number_start` for at most so many rounds; `none` if it has not ended -/
def getNumberStartAt : ℕ → ℕ → NumberBuffer → Option (ℕ × NumberBuffer)
  | 0, _, _ => none
  | rounds + 1, str, b =>
    if b.bytes str = ch '0' then getNumberStartAt rounds (str + 1) (b.touch str)
    else some (str, b.touch str)

/-- `strcpy` from the array: what it stores at its destination -/
def strcpyAt : ℕ → ℕ → NumberBuffer → Option (List Byte × NumberBuffer)
  | 0, _, _ => none
  | rounds + 1, src, b =>
    if b.bytes src = 0#8 then some ([0#8], b.touch src)
    else do
      let r ← strcpyAt rounds (src + 1) ((b.touch src).touch src)
      return (b.bytes src :: r.1, r.2)

/-- what is stored at `str`, and the array, which holds anything at first -/
def sprintIntegerAt (rounds : ℕ) (number base : BitVec 32) (isUnsigned : Bool) (bytes : Mem) :
    Option (List Byte × NumberBuffer) := do
  let b := NumberBuffer.store maximumBinaryLength 0#8 ⟨bytes, []⟩
  let (str, value) := addNumberPrefix number base isUnsigned
  let b := digitStores base maximumBinaryLength value b
  if number = 0#32 then return (str ++ [ch '0', 0#8], b)
  else
    let (start, b) ← getNumberStartAt rounds 0 b
    let (text, b) ← strcpyAt rounds start b
    return (str ++ text, b)

/-- the function returns, and has used an array of `size` elements -/
def StaysInArray (size : ℕ) (number base : BitVec 32) (isUnsigned : Bool) (bytes : Mem) : Prop :=
  ∃ rounds text b, sprintIntegerAt rounds number base isUnsigned bytes = some (text, b) ∧
    b.Inside size

/-! ## strings in memory -/

section
variable {m m' : Mem} {a : ℕ} {s : List Byte}

theorem holdsAt_congr (h : HoldsAt m a s) (hm : ∀ x, a ≤ x → m' x = m x) : HoldsAt m' a s := by
  induction s generalizing a with
  | nil => exact (hm a le_rfl).trans h
  | cons c s ih =>
    obtain ⟨hc, hs⟩ := h
    exact ⟨(hm a le_rfl).trans hc, ih hs fun x hx => hm x (by omega)⟩

theorem HoldsAt.terminator (h : HoldsAt m a s) : m (a + s.length) = 0#8 := by
  induction s generalizing a with
  | nil => exact h
  | cons c s ih =>
    have hs := ih h.2
    rwa [Nat.add_assoc, Nat.add_comm 1] at hs

end

/-! ## the digits -/

section
variable {base value : BitVec 32} {n : ℕ} {b : NumberBuffer} {buffer : List Byte}

/-- **the stores of the loop are the digits**, in front of what is there already -/
theorem digitStores_holds (h : HoldsAt b.bytes n buffer) :
    HoldsAt (digitStores base n value b).bytes 0 (digitLoop base n value buffer) := by
  induction n generalizing value b buffer with
  | zero => exact h
  | succ n ih =>
    refine ih ⟨Function.update_self _ _ _, holdsAt_congr h fun x hx => ?_⟩
    exact Function.update_of_ne (by omega) _ _

theorem mem_digitStores {x : BufferAccess} : x ∈ (digitStores base n value b).accesses ↔
    x ∈ b.accesses ∨ ∃ i < n, x = .write i := by
  induction n generalizing value b with
  | zero => simp [digitStores]
  | succ n ih =>
    rw [digitStores, ih, NumberBuffer.store, List.mem_append, List.mem_singleton, or_assoc,
      Nat.exists_lt_succ_right, or_comm (a := x = .write n)]

end

/-! ## the scan and the copy -/

/-- the bytes are the same, and what is read lies at most at `t` -/
structure NumberBuffer.Reads (t : ℕ) (b b' : NumberBuffer) : Prop where
  bytes : b'.bytes = b.bytes
  accesses : ∃ is : List ℕ, b'.accesses = b.accesses ++ is.map .read ∧ ∀ i ∈ is, i ≤ t

section
variable {a t i rounds : ℕ} {b b' b'' : NumberBuffer} {s : List Byte}

theorem NumberBuffer.Reads.trans (h : b.Reads t b') (h' : b'.Reads t b'') : b.Reads t b'' := by
  obtain ⟨is, his, hle⟩ := h.accesses
  obtain ⟨js, hjs, hle'⟩ := h'.accesses
  refine ⟨h'.bytes.trans h.bytes, is ++ js, ?_, fun i hi => ?_⟩
  · rw [hjs, his, List.map_append, List.append_assoc]
  · rcases List.mem_append.mp hi with hi | hi
    · exact hle i hi
    · exact hle' i hi

theorem NumberBuffer.Reads.mem (h : b.Reads t b') {x : BufferAccess} (hx : x ∈ b'.accesses) :
    x ∈ b.accesses ∨ ∃ i ≤ t, x = .read i := by
  obtain ⟨is, his, hle⟩ := h.accesses
  rw [his] at hx
  rcases List.mem_append.mp hx with hx | hx
  · exact Or.inl hx
  · obtain ⟨i, hi, rfl⟩ := List.mem_map.mp hx
    exact Or.inr ⟨i, hle i hi, rfl⟩

theorem reads_refl : b.Reads t b := ⟨rfl, [], (List.append_nil _).symm, fun _ h => absurd h List.not_mem_nil⟩

theorem reads_touch (hi : i ≤ t) : b.Reads t (b.touch i) := by
  refine ⟨rfl, [i], rfl, fun j hj => ?_⟩
  rw [List.mem_singleton.mp hj]
  exact hi

/-- **the scan ends at the first digit**, or at the terminator -/
theorem getNumberStartAt_eq (h : HoldsAt b.bytes a s) (hr : s.length < rounds) : ∃ k b',
    getNumberStartAt rounds a b = some (k, b') ∧ HoldsAt b.bytes k (getNumberStart s) ∧
      k + (getNumberStart s).length = a + s.length ∧ b.Reads (a + s.length) b' := by
  induction s generalizing a b rounds with
  | nil =>
    obtain ⟨rounds, rfl⟩ := Nat.exists_eq_add_of_lt hr
    have hne : b.bytes a ≠ ch '0' := by
      rw [show b.bytes a = 0#8 from h]
      decide
    exact ⟨a, b.touch a, if_neg hne, h, rfl, reads_touch le_rfl⟩
  | cons c s ih =>
    cases rounds with
    | zero => exact absurd hr (Nat.not_lt_zero _)
    | succ rounds =>
      obtain ⟨rfl, hs⟩ := h
      have hlen : a + (b.bytes a :: s).length = a + 1 + s.length := by
        rw [List.length_cons]
        omega
      rw [getNumberStartAt, hlen]
      by_cases hc : b.bytes a = ch '0'
      · have hdrop : getNumberStart (b.bytes a :: s) = getNumberStart s :=
          List.dropWhile_cons_of_pos (by rw [hc, beq_self_eq_true])
        obtain ⟨k, b', hrun, hk, hsum, hreads⟩ := ih (b := b.touch a) hs (Nat.lt_of_succ_lt_succ hr)
        rw [if_pos hc, hdrop]
        exact ⟨k, b', hrun, hk, hsum, (reads_touch (by omega)).trans hreads⟩
      · have hdrop : getNumberStart (b.bytes a :: s) = b.bytes a :: s :=
          List.dropWhile_cons_of_neg (by simpa using hc)
        rw [if_neg hc, hdrop]
        exact ⟨a, b.touch a, rfl, ⟨rfl, hs⟩, hlen, reads_touch (by omega)⟩

/-- **the copy ends at the terminator** -/
theorem strcpyAt_eq (h : HoldsAt b.bytes a s) (h0 : ∀ c ∈ s, c ≠ 0#8) (hr : s.length < rounds) :
    ∃ b', strcpyAt rounds a b = some (s ++ [0#8], b') ∧ b.Reads (a + s.length) b' := by
  induction s generalizing a b rounds with
  | nil =>
    obtain ⟨rounds, rfl⟩ := Nat.exists_eq_add_of_lt hr
    exact ⟨b.touch a, if_pos h, reads_touch le_rfl⟩
  | cons c s ih =>
    cases rounds with
    | zero => exact absurd hr (Nat.not_lt_zero _)
    | succ rounds =>
      obtain ⟨rfl, hs⟩ := h
      have hlen : a + (b.bytes a :: s).length = a + 1 + s.length := by
        rw [List.length_cons]
        omega
      obtain ⟨b', hrun, hreads⟩ := ih (b := (b.touch a).touch a) hs
        (fun c hc => h0 c (List.mem_cons_of_mem _ hc)) (Nat.lt_of_succ_lt_succ hr)
      have htouch : b.Reads (a + 1 + s.length) ((b.touch a).touch a) :=
        (reads_touch (by omega)).trans (reads_touch (by omega))
      rw [strcpyAt, if_neg (h0 _ List.mem_cons_self), hrun, hlen]
      exact ⟨b', rfl, htouch.trans hreads⟩

theorem touch_grows : b.accesses ⊆ (b.touch i).accesses := List.subset_append_left _ _

/-- however long they go on, no access is forgotten -/
theorem getNumberStartAt_grows {k : ℕ} (h : getNumberStartAt rounds a b = some (k, b')) :
    b.accesses ⊆ b'.accesses := by
  induction rounds generalizing a b with
  | zero => cases h
  | succ rounds ih =>
    rw [getNumberStartAt] at h
    split at h
    · exact List.Subset.trans touch_grows (ih h)
    · cases h
      exact touch_grows

theorem strcpyAt_grows {text : List Byte} (h : strcpyAt rounds a b = some (text, b')) :
    b.accesses ⊆ b'.accesses := by
  induction rounds generalizing a b text with
  | zero => cases h
  | succ rounds ih =>
    rw [strcpyAt] at h
    split at h
    · cases h
      exact touch_grows
    · obtain ⟨r, hr, h⟩ := Option.bind_eq_some_iff.mp h
      cases h
      exact List.Subset.trans (List.Subset.trans touch_grows touch_grows) (ih hr)

end

/-! ## the function -/

section
variable {number base : BitVec 32} {isUnsigned : Bool} {bytes : Mem} {size rounds : ℕ}
  {text : List Byte} {b b' : NumberBuffer}

/-- the array when its digits and the terminator are stored -/
def filled (base value : BitVec 32) (bytes : Mem) : NumberBuffer :=
  digitStores base maximumBinaryLength value (.store maximumBinaryLength 0#8 ⟨bytes, []⟩)

theorem mem_filled {value : BitVec 32} {x : BufferAccess} : x ∈ (filled base value bytes).accesses ↔
    x = .write maximumBinaryLength ∨ ∃ i < maximumBinaryLength, x = .write i := by
  rw [filled, mem_digitStores, NumberBuffer.store, List.nil_append, List.mem_singleton]

theorem filled_holds (value : BitVec 32) : HoldsAt (filled base value bytes).bytes 0
    (digitLoop base maximumBinaryLength value []) := by
  have hterminator : HoldsAt (Function.update bytes maximumBinaryLength 0#8) maximumBinaryLength [] := by
    simp [HoldsAt]
  exact digitStores_holds (b := .store maximumBinaryLength 0#8 ⟨bytes, []⟩) hterminator

theorem digitLoop_length (value : BitVec 32) (n : ℕ) : (digitLoop base n value []).length = n := by
  rw [digitLoop_eq, List.append_nil, List.length_reverse, List.length_map, List.length_range]

theorem filled_terminator (value : BitVec 32) :
    (filled base value bytes).bytes maximumBinaryLength = 0#8 := by
  have hholds : HoldsAt (filled base value bytes).bytes 0
      (digitLoop base maximumBinaryLength value []) := filled_holds value
  have h := hholds.terminator
  rwa [digitLoop_length, Nat.zero_add] at h

/-- **one element more would do**: the stores and the reads end at the terminator -/
theorem inside_of_reads {value : BitVec 32}
    (h : (filled base value bytes).Reads maximumBinaryLength b) (hsize : maximumBinaryLength < size) :
    b.Inside size := by
  refine ⟨fun x hx => ?_, maximumBinaryLength, hsize, ?_, fun i hi => ?_⟩
  · rcases h.mem hx with hx | ⟨i, hi, rfl⟩
    · rcases mem_filled.mp hx with rfl | ⟨i, hi, rfl⟩
      · exact hsize
      · exact lt_trans hi hsize
    · exact lt_of_le_of_lt hi hsize
  · rw [h.bytes]
    exact filled_terminator value
  · rcases h.mem hi with hi | ⟨j, hj, hij⟩
    · rcases mem_filled.mp hi with heq | ⟨j, -, heq⟩ <;> cases heq
    · cases hij
      exact hj

theorem sprintIntegerAt_filled : sprintIntegerAt rounds number base isUnsigned bytes
    = if number = 0#32 then
        some ((addNumberPrefix number base isUnsigned).1 ++ [ch '0', 0#8],
          filled base (addNumberPrefix number base isUnsigned).2 bytes)
      else
        (getNumberStartAt rounds 0 (filled base (addNumberPrefix number base isUnsigned).2 bytes)).bind
          fun r => (strcpyAt rounds r.1 r.2).bind fun r =>
            some ((addNumberPrefix number base isUnsigned).1 ++ r.1, r.2) := rfl

/-- **the text is that of `sprint_integer`**, and nothing behind its terminator is used -/
theorem sprintIntegerAt_eq (h2 : 2 ≤ base.toNat) (h16 : base.toNat ≤ 16)
    (hr : maximumBinaryLength < rounds) : ∃ b,
    sprintIntegerAt rounds number base isUnsigned bytes
      = some (sprintInteger number base isUnsigned ++ [0#8], b) ∧
    (filled base (addNumberPrefix number base isUnsigned).2 bytes).Reads maximumBinaryLength b := by
  have htext : sprintInteger number base isUnsigned = (addNumberPrefix number base isUnsigned).1
      ++ if number = 0#32 then [ch '0'] else getNumberStart
        (digitLoop base maximumBinaryLength (addNumberPrefix number base isUnsigned).2 []) := rfl
  have hnonzero := sprintInteger_nonzero number isUnsigned h2 h16
  rw [sprintIntegerAt_filled]
  rw [htext] at hnonzero ⊢
  generalize (addNumberPrefix number base isUnsigned).1 = str at hnonzero ⊢
  generalize (addNumberPrefix number base isUnsigned).2 = value at hnonzero ⊢
  by_cases h : number = 0#32
  · rw [if_pos h, if_pos h, List.append_assoc]
    exact ⟨_, rfl, reads_refl⟩
  · rw [if_neg h] at hnonzero
    rw [if_neg h, if_neg h, List.append_assoc]
    have hlen : (digitLoop base maximumBinaryLength value []).length = maximumBinaryLength :=
      digitLoop_length value _
    have hfilled : HoldsAt (filled base value bytes).bytes 0
        (digitLoop base maximumBinaryLength value []) := filled_holds value
    obtain ⟨start, b, hscan, hholds, hsum, hreads⟩ := getNumberStartAt_eq hfilled
      (by rw [hlen]; exact hr)
    rw [hlen, Nat.zero_add] at hsum hreads
    rw [← hreads.bytes] at hholds
    obtain ⟨b', hcopy, hreads'⟩ := strcpyAt_eq hholds
      (fun c hc => hnonzero c (List.mem_append_right _ hc)) (show _ < rounds by omega)
    rw [hsum] at hreads'
    refine ⟨b', ?_, hreads.trans hreads'⟩
    rw [hscan, Option.bind_some, hcopy, Option.bind_some]

/-- **every run stores its terminator behind the array** -/
theorem terminator_stored (h : sprintIntegerAt rounds number base isUnsigned bytes = some (text, b)) :
    .write maximumBinaryLength ∈ b.accesses := by
  have hfilled : .write maximumBinaryLength
      ∈ (filled base (addNumberPrefix number base isUnsigned).2 bytes).accesses :=
    mem_filled.mpr (Or.inl rfl)
  rw [sprintIntegerAt_filled] at h
  split at h
  · cases h
    exact hfilled
  · obtain ⟨r, hscan, h⟩ := Option.bind_eq_some_iff.mp h
    obtain ⟨r', hcopy, h⟩ := Option.bind_eq_some_iff.mp h
    cases h
    exact strcpyAt_grows hcopy (getNumberStartAt_grows hscan hfilled)

/-- **`sprint_integer` stays inside an array of more than 64 elements**, and of no fewer, whatever the
number is -/
theorem staysInArray_iff (h2 : 2 ≤ base.toNat) (h16 : base.toNat ≤ 16) :
    StaysInArray size number base isUnsigned bytes ↔ maximumBinaryLength < size := by
  constructor
  · rintro ⟨rounds, text, b, hrun, hin⟩
    exact hin.index _ (terminator_stored hrun)
  · intro hsize
    obtain ⟨b, hrun, hreads⟩ := sprintIntegerAt_eq h2 h16 (Nat.lt_succ_self _)
    exact ⟨_, _, b, hrun, inside_of_reads hreads hsize⟩

variable (number bytes) (isUnsigned)

/-- **no number is printed inside `number_buffer`** -/
theorem leaves_number_buffer (h2 : 2 ≤ base.toNat) (h16 : base.toNat ≤ 16) :
    ¬ StaysInArray maximumBinaryLength number base isUnsigned bytes := by
  intro h
  exact lt_irrefl _ ((staysInArray_iff h2 h16).mp h)

end

theorem leaves_number_buffer_decimal :
    ¬ StaysInArray maximumBinaryLength 5#32 10#32 false (fun _ => 0xAA#8) :=
  leaves_number_buffer 5#32 false (fun _ => 0xAA#8) (by decide) (by decide)

/-- **the number 5, in decimal** -/
theorem number_buffer_overrun : ¬ ∀ (number base : BitVec 32) (isUnsigned : Bool) (bytes : Mem),
    2 ≤ base.toNat → base.toNat ≤ 16 →
      StaysInArray maximumBinaryLength number base isUnsigned bytes := by
  intro h
  obtain ⟨rounds, text, b, hrun, hin⟩ := h 5#32 10#32 false (fun _ => 0#8) (by decide) (by decide)
  have hindex := hin.index _ (terminator_stored hrun)
  exact lt_irrefl _ hindex

end HyperC.Print
