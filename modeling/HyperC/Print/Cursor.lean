import HyperC.Lib.Memory
import HyperC.Print.Vsprintf

/-!
# The cursor of `vsprintf`

The format is read from memory here.  The cursor moves by one behind a literal and by two behind a
`%`; the byte that follows a `%` at the end of the format is the terminator, and the cursor is behind
it then.

* `HoldsAt`, `scanAt`, `vsprintfAt`   a string in memory, and the loop that reads it;
* `Matches`               the arguments are those that the directives take;
* `dangling`              the last `%` has no character behind it;
* `scanAt_eq`             inside a format the loop is that over the list;
* `scanAt_dangling`       a dangling `%` takes the cursor out of the format;
* `stays_inside_iff`      when `vsprintf` stays inside its format.
-/

namespace HyperC.Print

/-- the string lies at the address, and its terminator behind it -/
def HoldsAt (m : Mem) : ℕ → List Byte → Prop
  | a, [] => m a = 0#8
  | a, c :: s => m a = c ∧ HoldsAt m (a + 1) s

/-- the loop for at most so many rounds, and the addresses that it reads; `none` if it has not
ended -/
def scanAt (m : Mem) : ℕ → ℕ → Printer → Except Trap (Option (Printer × List ℕ))
  | 0, _, _ => .ok none
  | rounds + 1, fmt, p =>
    if m fmt = 0#8 then .ok (some (p, [fmt]))
    else if m fmt ≠ ch '%' then do
      let r ← scanAt m rounds (fmt + 1) (p.write [m fmt])
      return r.map fun r => (r.1, fmt :: r.2)
    else do
      let p ← directive (m (fmt + 1)) p
      let r ← scanAt m rounds (fmt + 2) p
      return r.map fun r => (r.1, fmt :: (fmt + 1) :: r.2)

/-- what is stored at `str`, and the addresses that are read -/
def vsprintfAt (m : Mem) (rounds fmt : ℕ) (args : List VaArg) :
    Except Trap (Option (List Byte × List ℕ)) := do
  let r ← scanAt m rounds fmt ⟨[], args, false, []⟩
  return r.map fun r => (r.1.str ++ [0#8], r.2)

/-- the loop ends, stores the terminator of the output, and reads nothing but the `n` bytes of the
format and its terminator -/
def StaysInside (m : Mem) (fmt n : ℕ) (args : List VaArg) : Prop :=
  ∃ rounds t reads, vsprintfAt m rounds fmt args = .ok (some (t ++ [0#8], reads)) ∧
    ∀ a ∈ reads, fmt ≤ a ∧ a ≤ fmt + n

/-! ## formats and their arguments -/

/-- the arguments that a directive takes, and those it leaves -/
inductive Taken : Kind → List VaArg → List VaArg → Prop
  | character (v : BitVec 64) (args : List VaArg) : Taken .character (.int v :: args) args
  | string (s : CString) (args : List VaArg) : Taken .string (.str s :: args) args
  | number (base : BitVec 32) (unsigned : Bool) (v : BitVec 64) (args : List VaArg) :
      Taken (.number base unsigned) (.int v :: args) args
  | unknown (args : List VaArg) : Taken .unknown args args

/-- the arguments are those that the directives of the format take -/
inductive Matches : List Byte → List VaArg → Prop
  | nil : Matches [] []
  | literal {c : Byte} {fmt : List Byte} {args : List VaArg} :
      c ≠ ch '%' → Matches fmt args → Matches (c :: fmt) args
  | directive {d : Byte} {fmt : List Byte} {args rest : List VaArg} :
      Taken (kind d) args rest → Matches fmt rest → Matches (ch '%' :: d :: fmt) args
  | dangling : Matches [ch '%'] []

/-- the format ends behind a `%` -/
def dangling : List Byte → Bool
  | [] => false
  | c :: fmt =>
    if c ≠ ch '%' then dangling fmt
    else match fmt with
      | [] => true
      | _ :: fmt => dangling fmt

/-- the lengths of the strings are `int`s -/
def Short (args : List VaArg) : Prop := ∀ s, VaArg.str s ∈ args → s.bytes.length < 2 ^ 31

section
variable {c d : Byte} {k : Kind} {fmt : List Byte} {args rest : List VaArg} {p q : Printer}

theorem dangling_literal (h : c ≠ ch '%') : dangling (c :: fmt) = dangling fmt := by
  rw [dangling.eq_def]
  exact if_pos h

theorem dangling_directive : dangling (ch '%' :: d :: fmt) = dangling fmt := by
  rw [dangling.eq_def]
  exact if_neg (by simp)

theorem short_int (v : BitVec 64) (h : Short args) : Short (.int v :: args) := fun s hmem =>
  h s ((List.mem_cons.mp hmem).resolve_left (by simp))

theorem short_rest (h : Taken k args rest) (hs : Short args) : Short rest := by
  cases h with
  | unknown => exact hs
  | _ => exact fun s hmem => hs s (List.mem_cons_of_mem _ hmem)

/-- **a directive prints if its string is short**, and leaves the arguments it does not take -/
theorem print_taken (h : Taken k p.args rest) (hs : Short p.args) :
    ∃ q, k.print p = .ok q ∧ q.args = rest := by
  generalize hargs : p.args = args at h hs
  cases h with
  | character v rest => exact ⟨_, printCharacter_eq_ok.mpr ⟨v, rest, hargs, rfl⟩, rfl⟩
  | string s rest =>
    exact ⟨_, printString_eq_ok.mpr ⟨s, rest, hargs, hs s List.mem_cons_self, rfl⟩, rfl⟩
  | number base unsigned v rest => exact ⟨_, printNumber_eq_ok.mpr ⟨v, rest, hargs, rfl⟩, rfl⟩
  | unknown rest => exact ⟨_, rfl, hargs⟩

theorem print_error {e : Trap} (h : Taken k p.args rest) (hp : k.print p = .error e) :
    e = .longString ∧ ¬ Short p.args := by
  refine ⟨?_, fun hs => ?_⟩
  · generalize hargs : p.args = args at h
    cases h with
    | character v rest =>
      have hok : printCharacter p = .ok _ := printCharacter_eq_ok.mpr ⟨v, rest, hargs, rfl⟩
      cases hp.symm.trans hok
    | string s rest =>
      have hstring : printString p = if s.bytes.length < 2 ^ 31
          then .ok ({ p with args := rest }.write s.bytes) else .error .longString := by
        rw [printString, hargs]
        rfl
      have heq := hp.symm.trans hstring
      split at heq
      · cases heq
      · cases heq
        rfl
    | number base unsigned v rest =>
      have hok : (Kind.number base unsigned).print p = .ok _ :=
        printNumber_eq_ok.mpr ⟨v, rest, hargs, rfl⟩
      cases hp.symm.trans hok
    | unknown rest => cases hp
  · obtain ⟨q, hq, -⟩ := print_taken h hs
    rw [hp] at hq
    cases hq

/-- and only then -/
theorem short_of_print (h : Taken k p.args rest) (hp : k.print p = .ok q) :
    q.args = rest ∧ (Short rest → Short p.args) := by
  generalize hargs : p.args = args at h
  cases h with
  | character v rest =>
    obtain ⟨v', rest', hargs', rfl⟩ := printCharacter_eq_ok.mp hp
    rw [hargs] at hargs'
    cases hargs'
    exact ⟨rfl, short_int v⟩
  | string s rest =>
    obtain ⟨s', rest', hargs', hlen, rfl⟩ := printString_eq_ok.mp hp
    rw [hargs] at hargs'
    cases hargs'
    refine ⟨rfl, fun hs t hmem => ?_⟩
    rcases List.mem_cons.mp hmem with heq | hmem
    · cases heq
      exact hlen
    · exact hs t hmem
  | number base unsigned v rest =>
    obtain ⟨v', rest', hargs', rfl⟩ := printNumber_eq_ok.mp hp
    rw [show p.args = _ from hargs] at hargs'
    cases hargs'
    exact ⟨rfl, short_int v⟩
  | unknown rest =>
    cases hp
    exact ⟨hargs, id⟩

/-- **a format that does not end behind a `%` is printed**, unless a string is too long -/
theorem scan_matches (h : Matches fmt p.args) (hd : dangling fmt = false) :
    (∃ q, scan fmt p = .ok q) ∨ (scan fmt p = .error .longString ∧ ¬ Short p.args) := by
  generalize hargs : p.args = args at h
  induction h generalizing p with
  | nil => exact Or.inl ⟨p, rfl⟩
  | @literal c fmt args hc hmatch ih =>
    rw [scan_literal hc]
    exact ih (dangling_literal hc ▸ hd) hargs
  | @directive d fmt args rest htaken hmatch ih =>
    subst hargs
    rw [scan_directive, directive_eq]
    cases hprint : (kind d).print p with
    | error e =>
      obtain ⟨rfl, hlong⟩ := print_error htaken hprint
      exact Or.inr ⟨rfl, hlong⟩
    | ok p₁ =>
      have hrest := (short_of_print htaken hprint).1
      rcases ih (p := p₁) (dangling_directive ▸ hd) hrest with hok | ⟨herr, hlong⟩
      · exact Or.inl hok
      · exact Or.inr ⟨herr, fun hs => hlong (short_rest htaken hs)⟩
  | dangling => exact absurd hd (by decide)

end

/-! ## the loop over memory -/

section
variable {m : Mem} {rounds a : ℕ} {fmt : List Byte} {args : List VaArg} {p q : Printer}
  {reads : List ℕ} {c d : Byte}

theorem scanAt_literal (h0 : m a ≠ 0#8) (hc : m a ≠ ch '%')
    (h : scanAt m rounds (a + 1) (p.write [m a]) = .ok (some (q, reads))) :
    scanAt m (rounds + 1) a p = .ok (some (q, a :: reads)) := by
  rw [scanAt, if_neg h0, if_pos hc]
  exact bind_eq_ok.mpr ⟨_, h, rfl⟩

theorem scanAt_directive {p₁ : Printer} (hc : m a = ch '%') (hd : directive (m (a + 1)) p = .ok p₁)
    (h : scanAt m rounds (a + 2) p₁ = .ok (some (q, reads))) :
    scanAt m (rounds + 1) a p = .ok (some (q, a :: (a + 1) :: reads)) := by
  rw [scanAt, if_neg (by rw [hc]; decide), if_neg (by simp [hc])]
  exact bind_eq_ok.mpr ⟨_, hd, bind_eq_ok.mpr ⟨_, h, rfl⟩⟩

/-- **a run that has ended**: it stood at a terminator, or it went on behind a literal or a
directive -/
theorem scanAt_cases (h : scanAt m rounds a p = .ok (some (q, reads))) : ∃ n, rounds = n + 1 ∧
    ((m a = 0#8 ∧ q = p ∧ reads = [a]) ∨
    (m a ≠ 0#8 ∧ m a ≠ ch '%' ∧ ∃ rs, reads = a :: rs ∧
      scanAt m n (a + 1) (p.write [m a]) = .ok (some (q, rs))) ∨
    (m a = ch '%' ∧ ∃ p₁ rs, reads = a :: (a + 1) :: rs ∧ directive (m (a + 1)) p = .ok p₁ ∧
      scanAt m n (a + 2) p₁ = .ok (some (q, rs)))) := by
  cases rounds with
  | zero => cases h
  | succ n =>
    refine ⟨n, rfl, ?_⟩
    rw [scanAt] at h
    by_cases h0 : m a = 0#8
    · rw [if_pos h0] at h
      cases h
      exact Or.inl ⟨h0, rfl, rfl⟩
    · rw [if_neg h0] at h
      by_cases hc : m a = ch '%'
      · rw [if_neg (not_not.mpr hc)] at h
        obtain ⟨p₁, hd, h⟩ := bind_eq_ok.mp h
        obtain ⟨r, hr, h⟩ := bind_eq_ok.mp h
        cases r with
        | none => cases h
        | some r =>
          cases h
          exact Or.inr (Or.inr ⟨hc, p₁, r.2, rfl, hd, hr⟩)
      · rw [if_pos hc] at h
        obtain ⟨r, hr, h⟩ := bind_eq_ok.mp h
        cases r with
        | none => cases h
        | some r =>
          cases h
          exact Or.inr (Or.inl ⟨h0, hc, r.2, rfl, hr⟩)

/-- **inside a format the loop is that over the list**: it ends at the terminator -/
theorem scanAt_eq (hm : HoldsAt m a fmt) (h0 : ∀ c ∈ fmt, c ≠ 0#8) (h : Matches fmt p.args)
    (hd : dangling fmt = false) (hs : Short p.args) : ∃ rounds q reads,
      scanAt m rounds a p = .ok (some (q, reads)) ∧ scan fmt p = .ok q ∧
      ∀ x ∈ reads, a ≤ x ∧ x ≤ a + fmt.length := by
  generalize hargs : p.args = args at h hs
  induction h generalizing a p with
  | nil =>
    refine ⟨1, p, [a], ?_, rfl, fun x hx => ?_⟩
    · rw [scanAt, if_pos (show m a = 0#8 from hm)]
    · rw [List.mem_singleton.mp hx]
      exact ⟨le_rfl, le_rfl⟩
  | @literal c fmt args hc hmatch ih =>
    obtain ⟨hma, hm⟩ := hm
    obtain ⟨n, q, reads, hrun, hscan, hin⟩ := ih (p := p.write [c]) hm
      (fun c hc => h0 c (List.mem_cons_of_mem _ hc)) (dangling_literal hc ▸ hd) hargs hs
    refine ⟨n + 1, q, a :: reads, ?_, by rw [scan_literal hc, hscan], fun x hx => ?_⟩
    · subst hma
      exact scanAt_literal (h0 _ List.mem_cons_self) hc hrun
    · rw [List.length_cons]
      rcases List.mem_cons.mp hx with rfl | hx
      · omega
      · have := hin x hx
        omega
  | @directive d fmt args rest htaken hmatch ih =>
    obtain ⟨hma, hmd, hm⟩ := hm
    subst hargs
    obtain ⟨p₁, hprint, hrest⟩ := print_taken htaken hs
    obtain ⟨n, q, reads, hrun, hscan, hin⟩ := ih (p := p₁) hm
      (fun c hc => h0 c (List.mem_cons_of_mem _ (List.mem_cons_of_mem _ hc)))
      (dangling_directive ▸ hd) hrest (short_rest htaken hs)
    refine ⟨n + 1, q, a :: (a + 1) :: reads, ?_, ?_, fun x hx => ?_⟩
    · exact scanAt_directive hma (by rw [hmd, directive_eq, hprint]) hrun
    · rw [scan_directive, directive_eq, hprint]
      exact hscan
    · rw [List.length_cons, List.length_cons]
      rcases List.mem_cons.mp hx with rfl | hx
      · omega
      · rcases List.mem_cons.mp hx with rfl | hx
        · omega
        · have := hin x hx
          omega
  | dangling => exact absurd hd (by decide)

/-- **a dangling `%` takes the cursor out of the format** -/
theorem scanAt_dangling (hm : HoldsAt m a fmt) (h0 : ∀ c ∈ fmt, c ≠ 0#8)
    (hd : dangling fmt = true) (h : scanAt m rounds a p = .ok (some (q, reads))) :
    ∃ x ∈ reads, a + fmt.length < x := by
  induction fmt using format_induction generalizing a p rounds reads with
  | nil => exact absurd hd (by decide)
  | literal c fmt hc ih =>
    obtain ⟨hma, hm⟩ := hm
    obtain ⟨n, rfl, ⟨hz, -, -⟩ | ⟨-, -, rs, rfl, hrun⟩ | ⟨hpercent, -⟩⟩ := scanAt_cases h
    · exact absurd (hma.symm.trans hz) (h0 c List.mem_cons_self)
    · obtain ⟨x, hx, hlt⟩ := ih hm (fun c hc => h0 c (List.mem_cons_of_mem _ hc))
        (dangling_literal hc ▸ hd) hrun
      refine ⟨x, List.mem_cons_of_mem _ hx, ?_⟩
      rw [List.length_cons]
      omega
    · exact absurd (hma.symm.trans hpercent) hc
  | dangling =>
    -- the next round begins behind the terminator
    obtain ⟨hma, -⟩ := hm
    obtain ⟨n, rfl, ⟨hz, -, -⟩ | ⟨-, hc, -⟩ | ⟨-, p₁, rs, rfl, -, hrun⟩⟩ := scanAt_cases h
    · exact absurd (hma.symm.trans hz) (h0 _ List.mem_cons_self)
    · exact absurd hma hc
    · refine ⟨a + 2, List.mem_cons_of_mem _ (List.mem_cons_of_mem _ ?_), by simp⟩
      obtain ⟨k, -, ⟨-, -, rfl⟩ | ⟨-, -, rs', rfl, -⟩ | ⟨-, p₂, rs', rfl, -⟩⟩ := scanAt_cases hrun
      all_goals exact List.mem_cons_self
  | directive d fmt ih =>
    obtain ⟨hma, -, hm⟩ := hm
    obtain ⟨n, rfl, ⟨hz, -, -⟩ | ⟨-, hc, -⟩ | ⟨-, p₁, rs, rfl, -, hrun⟩⟩ := scanAt_cases h
    · exact absurd (hma.symm.trans hz) (h0 _ List.mem_cons_self)
    · exact absurd hma hc
    · obtain ⟨x, hx, hlt⟩ := ih hm
        (fun c hc => h0 c (List.mem_cons_of_mem _ (List.mem_cons_of_mem _ hc)))
        (dangling_directive ▸ hd) hrun
      refine ⟨x, List.mem_cons_of_mem _ (List.mem_cons_of_mem _ hx), ?_⟩
      rw [List.length_cons, List.length_cons]
      omega

/-- a run that ends has printed its strings -/
theorem scanAt_short (hm : HoldsAt m a fmt) (h0 : ∀ c ∈ fmt, c ≠ 0#8) (h : Matches fmt p.args)
    (h' : scanAt m rounds a p = .ok (some (q, reads))) : Short p.args := by
  generalize hargs : p.args = args at h
  induction h generalizing a p rounds reads with
  | nil => exact fun s hs => absurd hs List.not_mem_nil
  | @literal c fmt args hc hmatch ih =>
    obtain ⟨hma, hm⟩ := hm
    obtain ⟨n, rfl, ⟨hz, -, -⟩ | ⟨-, -, rs, rfl, hrun⟩ | ⟨hpercent, -⟩⟩ := scanAt_cases h'
    · exact absurd (hma.symm.trans hz) (h0 c List.mem_cons_self)
    · exact ih hm (fun c hc => h0 c (List.mem_cons_of_mem _ hc)) hrun hargs
    · exact absurd (hma.symm.trans hpercent) hc
  | @directive d fmt args rest htaken hmatch ih =>
    obtain ⟨hma, hmd, hm⟩ := hm
    subst hargs
    obtain ⟨n, rfl, ⟨hz, -, -⟩ | ⟨-, hc, -⟩ | ⟨-, p₁, rs, rfl, hprint, hrun⟩⟩ := scanAt_cases h'
    · exact absurd (hma.symm.trans hz) (h0 _ List.mem_cons_self)
    · exact absurd hma hc
    · rw [hmd, directive_eq] at hprint
      obtain ⟨hrest, hshort⟩ := short_of_print htaken hprint
      exact hshort (ih hm (fun c hc => h0 c (List.mem_cons_of_mem _ (List.mem_cons_of_mem _ hc)))
        hrun hrest)
  | dangling => exact fun s hs => absurd hs List.not_mem_nil

end

/-! ## the function -/

section
variable (m : Mem) (a : ℕ) (fmt : CString) (args : List VaArg) (hm : HoldsAt m a fmt.bytes)
include hm

theorem leaves_format (hd : dangling fmt.bytes = true) :
    ¬ StaysInside m a fmt.bytes.length args := by
  rintro ⟨rounds, t, reads, hrun, hin⟩
  obtain ⟨r, hr, hsome⟩ := bind_eq_ok.mp hrun
  cases r with
  | none => cases hsome
  | some r =>
    have hreads : r.2 = reads := congrArg Prod.snd (Option.some.inj (Except.ok.inj hsome))
    obtain ⟨x, hx, hlt⟩ := scanAt_dangling hm fmt.nonzero hd hr
    have hle := (hin x (hreads ▸ hx)).2
    omega

/-- **`vsprintf` stays inside its format** exactly if no `%` dangles at its end and every string that
it prints is shorter than `2 ^ 31` -/
theorem stays_inside_iff (h : Matches fmt.bytes args) :
    StaysInside m a fmt.bytes.length args ↔ dangling fmt.bytes = false ∧ Short args := by
  constructor
  · intro hin
    refine ⟨Bool.eq_false_iff.mpr fun hd => leaves_format m a fmt args hm hd hin, ?_⟩
    obtain ⟨rounds, t, reads, hrun, -⟩ := hin
    obtain ⟨r, hr, hsome⟩ := bind_eq_ok.mp hrun
    cases r with
    | none => cases hsome
    | some r => exact scanAt_short hm fmt.nonzero h hr
  · rintro ⟨hd, hs⟩
    obtain ⟨rounds, q, reads, hrun, -, hin⟩ :=
      scanAt_eq (p := ⟨[], args, false, []⟩) hm fmt.nonzero h hd hs
    exact ⟨rounds, q.str, reads, bind_eq_ok.mpr ⟨_, hrun, rfl⟩, hin⟩

end

theorem stays_inside_iff_percentD :
    StaysInside (fun x => [ch '%', ch 'd'].getD x 0#8) 0 2 [.int 5#64] ↔
      dangling [ch '%', ch 'd'] = false ∧ Short [.int 5#64] :=
  stays_inside_iff _ 0 ⟨[ch '%', ch 'd'], by decide⟩ _ ⟨rfl, rfl, rfl⟩
    (.directive (.number 10#32 false 5#64 []) .nil)

/-- **the format `"%"`** is left by the cursor -/
theorem dangling_leaves_format : ¬ ∀ (m : Mem) (a : ℕ) (fmt : CString) (args : List VaArg),
    HoldsAt m a fmt.bytes → Matches fmt.bytes args → StaysInside m a fmt.bytes.length args := by
  intro h
  have hm : HoldsAt (fun x => if x = 0 then ch '%' else 0#8) 0 [ch '%'] := ⟨rfl, rfl⟩
  have hin := h _ 0 ⟨[ch '%'], by decide⟩ [] hm .dangling
  exact leaves_format _ 0 ⟨[ch '%'], by decide⟩ [] hm (by decide) hin

end HyperC.Print
