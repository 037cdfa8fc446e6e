import HyperC.Print.Vsprintf

/-!
# The text of two formats

`is_unsigned` is set by `%u` and `%U` and never reset, so what is printed behind them depends on
them: a negative number has lost its sign.

* `Takes`, `hasUnsigned`, `showsSign`   what a format takes, and what the flag does to it;
* `print_flag`, `scan_flag`   with the flag the text is the same exactly if no sign is shown;
* `vsprintf_append_iff`  so the text of two formats is that of the one and then of the other.
-/

namespace HyperC.Print

/-- the format is made of literal characters and complete directives, and takes these arguments -/
def Takes : List Byte → List VaArg → Prop
  | [], args => args = []
  | c :: fmt, args =>
    if c ≠ ch '%' then Takes fmt args
    else match fmt with
      | [] => False
      | d :: fmt => match kind d, args with
        | .character, .int _ :: args => Takes fmt args
        | .number _ _, .int _ :: args => Takes fmt args
        | .string, .str s :: args => s.bytes.length < 2 ^ 31 ∧ Takes fmt args
        | _, _ => False

def hasUnsigned : List Byte → Bool
  | [] => false
  | c :: fmt =>
    if c ≠ ch '%' then hasUnsigned fmt
    else match fmt with
      | [] => false
      | d :: fmt => (kind d).unsigned || hasUnsigned fmt

/-- before its first `%u` or `%U` the format has a `%d`, `%b`, `%x` or `%p` with a negative number -/
def showsSign : List Byte → List VaArg → Bool
  | [], _ => false
  | c :: fmt, args =>
    if c ≠ ch '%' then showsSign fmt args
    else match fmt with
      | [] => false
      | d :: fmt => match kind d, args with
        | .unknown, args => showsSign fmt args
        | .number _ true, _ => false
        | .number _ false, .int v :: args => (v.setWidth 32).slt 0#32 || showsSign fmt args
        | _, _ :: args => showsSign fmt args
        | _, [] => false

/-! ## the scans by cases -/

section
variable {c d : Byte} {fmt : List Byte} {args : List VaArg}

theorem takes_literal (h : c ≠ ch '%') : Takes (c :: fmt) args = Takes fmt args := by
  rw [Takes.eq_def]
  exact if_pos h

theorem hasUnsigned_literal (h : c ≠ ch '%') : hasUnsigned (c :: fmt) = hasUnsigned fmt := by
  rw [hasUnsigned.eq_def]
  exact if_pos h

theorem hasUnsigned_directive :
    hasUnsigned (ch '%' :: d :: fmt) = ((kind d).unsigned || hasUnsigned fmt) := by
  rw [hasUnsigned.eq_def]
  exact if_neg (by simp)

theorem showsSign_literal (h : c ≠ ch '%') : showsSign (c :: fmt) args = showsSign fmt args := by
  rw [showsSign.eq_def]
  exact if_pos h

theorem takes_directive : Takes (ch '%' :: d :: fmt) args = match kind d, args with
    | .character, .int _ :: args => Takes fmt args
    | .number _ _, .int _ :: args => Takes fmt args
    | .string, .str s :: args => s.bytes.length < 2 ^ 31 ∧ Takes fmt args
    | _, _ => False := by
  rw [Takes.eq_def]
  exact if_neg (by simp)

theorem showsSign_directive : showsSign (ch '%' :: d :: fmt) args = match kind d, args with
    | .unknown, args => showsSign fmt args
    | .number _ true, _ => false
    | .number _ false, .int v :: args => (v.setWidth 32).slt 0#32 || showsSign fmt args
    | _, _ :: args => showsSign fmt args
    | _, [] => false := by
  rw [showsSign.eq_def]
  exact if_neg (by simp)

end

/-! ## what the loop depends on -/

section
variable {k : Kind} {fmt : List Byte} {p p' q : Printer}

theorem kind_base {d : Byte} {base : BitVec 32} {u : Bool} (h : kind d = .number base u) :
    2 ≤ base.toNat ∧ base.toNat ≤ 16 := by
  unfold kind at h
  split_ifs at h <;> cases h <;> decide

/-- **whether a directive prints depends on the arguments only**, and so does what it takes -/
theorem print_ok (hargs : p'.args = p.args) (h : k.print p = .ok q) :
    ∃ q', k.print p' = .ok q' ∧ q'.args = q.args := by
  cases k with
  | character =>
    obtain ⟨v, rest, hp, rfl⟩ := printCharacter_eq_ok.mp h
    exact ⟨_, printCharacter_eq_ok.mpr ⟨v, rest, hargs.trans hp, rfl⟩, rfl⟩
  | string =>
    obtain ⟨s, rest, hp, hlen, rfl⟩ := printString_eq_ok.mp h
    exact ⟨_, printString_eq_ok.mpr ⟨s, rest, hargs.trans hp, hlen, rfl⟩, rfl⟩
  | number base unsigned =>
    obtain ⟨v, rest, hp, rfl⟩ := printNumber_eq_ok.mp h
    exact ⟨_, printNumber_eq_ok.mpr ⟨v, rest, hargs.trans hp, rfl⟩, rfl⟩
  | unknown =>
    cases h
    exact ⟨_, rfl, hargs⟩

theorem scan_ok (h : scan fmt p = .ok q) (hargs : p'.args = p.args) :
    ∃ q', scan fmt p' = .ok q' := by
  induction fmt using format_induction generalizing p p' with
  | nil => exact ⟨p', rfl⟩
  | literal c fmt hc ih =>
    rw [scan_literal hc] at h ⊢
    exact ih h hargs
  | dangling =>
    rw [scan_dangling] at h
    cases h
  | directive d fmt ih =>
    rw [scan_directive, directive_eq] at h ⊢
    obtain ⟨p₁, h₁, h₂⟩ := bind_eq_ok.mp h
    obtain ⟨p₂, h₃, hargs₂⟩ := print_ok hargs h₁
    obtain ⟨q', hq'⟩ := ih h₂ hargs₂
    exact ⟨q', bind_eq_ok.mpr ⟨p₂, h₃, hq'⟩⟩

theorem scan_prefix (h : scan fmt p = .ok q) : ∃ t, q.str = p.str ++ t := by
  obtain ⟨q₀, hq₀⟩ : ∃ q₀, scan fmt ⟨[], p.args, p.isUnsigned, []⟩ = .ok q₀ :=
    scan_ok h rfl
  have hp : Printer.within p.str [] p.nested ⟨[], p.args, p.isUnsigned, []⟩ = p := by
    simp [Printer.within]
  have hwithin := scan_within p.str [] p.nested hq₀
  rw [hp, h] at hwithin
  cases hwithin
  exact ⟨q₀.str, rfl⟩

theorem print_isUnsigned (h : k.print p = .ok q) :
    q.isUnsigned = (p.isUnsigned || k.unsigned) := by
  cases k with
  | character =>
    obtain ⟨v, rest, hp, rfl⟩ := printCharacter_eq_ok.mp h
    simp [Kind.unsigned]
  | string =>
    obtain ⟨s, rest, hp, hlen, rfl⟩ := printString_eq_ok.mp h
    simp [Kind.unsigned]
  | number base unsigned =>
    obtain ⟨v, rest, hp, rfl⟩ := printNumber_eq_ok.mp h
    rfl
  | unknown =>
    cases h
    simp [Kind.unsigned, Printer.log]

/-- **the flag is never reset** -/
theorem scan_isUnsigned (h : scan fmt p = .ok q) :
    q.isUnsigned = (p.isUnsigned || hasUnsigned fmt) := by
  induction fmt using format_induction generalizing p with
  | nil =>
    cases h
    simp [hasUnsigned]
  | literal c fmt hc ih =>
    rw [scan_literal hc] at h
    rw [hasUnsigned_literal hc]
    have hflag := ih h
    exact hflag
  | dangling =>
    rw [scan_dangling] at h
    cases h
  | directive d fmt ih =>
    rw [scan_directive, directive_eq] at h
    obtain ⟨p₁, h₁, h₂⟩ := bind_eq_ok.mp h
    rw [ih h₂, print_isUnsigned h₁, hasUnsigned_directive, Bool.or_assoc]

theorem scan_takes (h : Takes fmt p.args) : ∃ q, scan fmt p = .ok q ∧ q.args = [] := by
  induction fmt using format_induction generalizing p with
  | nil => exact ⟨p, rfl, h⟩
  | literal c fmt hc ih =>
    rw [takes_literal hc] at h
    rw [scan_literal hc]
    exact ih (show Takes fmt (p.write [c]).args from h)
  | dangling =>
    rw [Takes.eq_def] at h
    simp at h
  | directive d fmt ih =>
    have hrest : ∀ p₁, (kind d).print p = .ok p₁ → Takes fmt p₁.args →
        ∃ q, scan (ch '%' :: d :: fmt) p = .ok q ∧ q.args = [] := by
      intro p₁ h₁ ht
      obtain ⟨q, hq, hargs⟩ := ih ht
      rw [scan_directive, directive_eq]
      exact ⟨q, bind_eq_ok.mpr ⟨p₁, h₁, hq⟩, hargs⟩
    rw [takes_directive] at h
    split at h
    · next v rest hk hp =>
      exact hrest _ (by rw [hk]; exact printCharacter_eq_ok.mpr ⟨v, rest, hp, rfl⟩) h
    · next base unsigned v rest hk hp =>
      exact hrest _ (by rw [hk]; exact printNumber_eq_ok.mpr ⟨v, rest, hp, rfl⟩) h
    · next s rest hk hp =>
      exact hrest _ (by rw [hk]; exact printString_eq_ok.mpr ⟨s, rest, hp, h.1, rfl⟩) h.2
    · exact h.elim

/-! ## what the flag changes -/

def Printer.flagged (p : Printer) : Printer := { p with isUnsigned := true }

theorem scan_signed {base : BitVec 32} (hu : p.isUnsigned = false) (h2 : 2 ≤ base.toNat)
    (h16 : base.toNat ≤ 16) {v : BitVec 64} {rest : List VaArg} (hp : p.args = .int v :: rest)
    (hneg : (v.setWidth 32).slt 0#32)
    (h : (printNumber base p >>= scan fmt) = .ok q) :
    ∃ q', (printNumber base p.flagged >>= scan fmt) = .ok q' ∧ q'.str ≠ q.str := by
  obtain ⟨p₁, h₁, h₂⟩ := bind_eq_ok.mp h
  have hnum : printNumber base p.flagged = .ok ⟨p.str ++ sprintInteger (v.setWidth 32) base true,
      rest, true, p.nested⟩ := printNumber_eq_ok.mpr ⟨v, rest, hp, rfl⟩
  have hnum₀ : printNumber base p = .ok ⟨p.str ++ sprintInteger (v.setWidth 32) base false,
      rest, false, p.nested⟩ := printNumber_eq_ok.mpr ⟨v, rest, hp, by rw [hu]⟩
  rw [hnum₀] at h₁
  cases h₁
  obtain ⟨q', hq'⟩ : ∃ q', scan fmt ⟨p.str ++ sprintInteger (v.setWidth 32) base true, rest, true,
      p.nested⟩ = .ok q' := scan_ok h₂ rfl
  refine ⟨q', bind_eq_ok.mpr ⟨_, hnum, hq'⟩, fun heq => ?_⟩
  obtain ⟨t, ht⟩ := scan_prefix h₂
  obtain ⟨t', ht'⟩ := scan_prefix hq'
  obtain ⟨r, hr⟩ : ∃ r, sprintInteger (v.setWidth 32) base false = ch '-' :: r :=
    sprintInteger_signed hneg
  obtain ⟨c, r', hr', hc⟩ := sprintInteger_unsigned hneg h2 h16
  rw [ht, ht', hr, hr'] at heq
  simp only [List.append_assoc, List.append_cancel_left_eq, List.cons_append, List.cons.injEq] at heq
  exact hc heq.1

/-- **what the flag does to a directive**: nothing if the directive sets it itself, and nothing but to
stay if no sign is shown -/
theorem print_flag {d : Byte} {p₁ : Printer} (h : (kind d).print p = .ok p₁)
    (hu : p.isUnsigned = false) :
    ((kind d).print p.flagged = .ok p₁ ∧
      ∀ fmt, showsSign (ch '%' :: d :: fmt) p.args = false) ∨
    ((kind d).print p.flagged = .ok p₁.flagged ∧ p₁.isUnsigned = false ∧
      ∀ fmt, showsSign (ch '%' :: d :: fmt) p.args = showsSign fmt p₁.args) ∨
    ∃ base v rest, kind d = .number base false ∧ p.args = .int v :: rest ∧
      (v.setWidth 32).slt 0#32 = true := by
  simp only [showsSign_directive]
  cases hk : kind d with
  | character =>
    rw [hk] at h
    obtain ⟨v, rest, hp, rfl⟩ := printCharacter_eq_ok.mp h
    refine Or.inr (Or.inl ⟨printCharacter_eq_ok.mpr ⟨v, rest, hp, rfl⟩, hu, fun fmt => ?_⟩)
    rw [hp]
  | string =>
    rw [hk] at h
    obtain ⟨s, rest, hp, hlen, rfl⟩ := printString_eq_ok.mp h
    refine Or.inr (Or.inl ⟨printString_eq_ok.mpr ⟨s, rest, hp, hlen, rfl⟩, hu, fun fmt => ?_⟩)
    rw [hp]
  | number base unsigned =>
    rw [hk] at h
    obtain ⟨v, rest, hp, rfl⟩ := printNumber_eq_ok.mp h
    cases unsigned with
    | true =>
      have hsame : (Kind.number base true).print p.flagged = (Kind.number base true).print p := by
        simp [Kind.print, Printer.flagged]
      rw [hsame]
      exact Or.inl ⟨h, fun fmt => by simp⟩
    | false =>
      cases hneg : (v.setWidth 32).slt 0#32 with
      | true => exact Or.inr (Or.inr ⟨base, v, rest, rfl, hp, hneg⟩)
      | false =>
        have htext : sprintInteger (v.setWidth 32) base true
            = sprintInteger (v.setWidth 32) base false := sprintInteger_nonneg hneg
        refine Or.inr (Or.inl ⟨printNumber_eq_ok.mpr ⟨v, rest, hp, ?_⟩, by simp [hu], fun fmt => ?_⟩)
        · simp [Printer.flagged, hu, htext]
        · rw [show p.args = .int v :: rest from hp]
          simp [hneg]
  | unknown =>
    rw [hk] at h
    cases h
    exact Or.inr (Or.inl ⟨rfl, hu, fun fmt => rfl⟩)

/-- **with the flag set beforehand the text is the same exactly if no sign is shown** -/
theorem scan_flag (h : scan fmt p = .ok q) (hu : p.isUnsigned = false) :
    ∃ q', scan fmt p.flagged = .ok q' ∧ (q'.str = q.str ↔ showsSign fmt p.args = false) := by
  induction fmt using format_induction generalizing p with
  | nil =>
    cases h
    exact ⟨_, rfl, by simp [showsSign, Printer.flagged]⟩
  | literal c fmt hc ih =>
    rw [scan_literal hc] at h
    rw [scan_literal hc, showsSign_literal hc]
    exact ih h hu
  | dangling =>
    rw [scan_dangling] at h
    cases h
  | directive d fmt ih =>
    rw [scan_directive, directive_eq] at h
    rw [scan_directive, directive_eq]
    obtain ⟨p₁, h₁, h₂⟩ := bind_eq_ok.mp h
    rcases print_flag h₁ hu with ⟨hf, hs⟩ | ⟨hf, hu₁, hs⟩ | ⟨base, v, rest, hk, hp, hneg⟩
    · exact ⟨q, bind_eq_ok.mpr ⟨p₁, hf, h₂⟩, by simp [hs]⟩
    · obtain ⟨q', hq', hiff⟩ := ih h₂ hu₁
      rw [hs]
      exact ⟨q', bind_eq_ok.mpr ⟨_, hf, hq'⟩, hiff⟩
    · -- the texts part at the sign
      obtain ⟨h2, h16⟩ := kind_base hk
      have hprint : ∀ p : Printer, (Kind.number base false).print p = printNumber base p := by
        simp [Kind.print]
      rw [hk, hprint] at h
      obtain ⟨q', hq', hne⟩ := scan_signed hu h2 h16 hp hneg h
      rw [hk, hprint, showsSign_directive, hk, hp]
      exact ⟨q', hq', by simp [hne, hneg]⟩

end

/-! ## two formats -/

section
variable {f g : CString} {a b : List VaArg} {p q : Printer}

theorem text_eq_ok {t : List Byte} : text f a = .ok t ↔ ∃ q, vsprintf f a = .ok q ∧ q.str = t := by
  unfold text
  cases vsprintf f a with
  | error e =>
    refine ⟨fun h => ?_, ?_⟩
    · cases h
    · rintro ⟨q, h, -⟩
      cases h
  | ok q =>
    constructor
    · intro h
      cases h
      exact ⟨q, rfl, rfl⟩
    · rintro ⟨q', h, rfl⟩
      cases h
      rfl

/-- the loop over both formats starts the second one behind the first text, with the flag of the
first format -/
theorem append_str_iff (hf : vsprintf f a = .ok p) (ha : p.args = []) (hg : vsprintf g b = .ok q) :
    ∃ r, vsprintf (f ++ g) (a ++ b) = .ok r ∧
      (r.str = p.str ++ q.str ↔ ¬ (hasUnsigned f.bytes ∧ showsSign g.bytes b)) := by
  have hfirst : scan f.bytes ⟨[], a ++ b, false, []⟩ = .ok ⟨p.str, b, p.isUnsigned, p.nested⟩ := by
    have hw := scan_within [] b [] hf
    simpa [Printer.within, ha] using hw
  have hflag : p.isUnsigned = hasUnsigned f.bytes := by
    have h := scan_isUnsigned hf
    simpa using h
  have hboth : vsprintf (f ++ g) (a ++ b) = scan g.bytes ⟨p.str, b, p.isUnsigned, p.nested⟩ :=
    scan_append hfirst
  rw [hboth, hflag]
  cases hu : hasUnsigned f.bytes with
  | false =>
    have hw := scan_within p.str [] p.nested hg
    refine ⟨q.within p.str [] p.nested, ?_, ?_⟩
    · simpa [Printer.within] using hw
    · simp [Printer.within]
  | true =>
    obtain ⟨q', hq', hiff⟩ := scan_flag hg rfl
    have hw := scan_within p.str [] p.nested hq'
    refine ⟨q'.within p.str [] p.nested, ?_, ?_⟩
    · simpa [Printer.within, Printer.flagged] using hw
    · simpa [Printer.within] using hiff

/-- **the text of two formats is that of the one and then of the other** exactly if there is no `%u`
or `%U` in the first one, or no sign for it to take in the second -/
theorem vsprintf_append_iff (f g : CString) (a b : List VaArg) (t : List Byte)
    (hf : Takes f.bytes a) (hg : text g b = .ok t) : ∃ s, text f a = .ok s ∧
      (text (f ++ g) (a ++ b) = .ok (s ++ t) ↔ ¬ (hasUnsigned f.bytes ∧ showsSign g.bytes b)) := by
  obtain ⟨p, hp, ha⟩ : ∃ p, vsprintf f a = .ok p ∧ p.args = [] := scan_takes hf
  obtain ⟨q, hq, rfl⟩ := text_eq_ok.mp hg
  obtain ⟨r, hr, hiff⟩ := append_str_iff hp ha hq
  refine ⟨p.str, text_eq_ok.mpr ⟨p, hp, rfl⟩, ?_⟩
  rw [← hiff, text_eq_ok, hr]
  exact ⟨fun ⟨r', h, heq⟩ => by cases h; exact heq, fun heq => ⟨r, rfl, heq⟩⟩

end

def single (d : Byte) (h : d ≠ 0#8) : CString where
  bytes := [ch '%', d]
  nonzero := by
    intro c hc
    rcases List.mem_cons.mp hc with rfl | hc
    · decide
    · rw [List.mem_singleton.mp hc]
      exact h

def percentU : CString := single (ch 'u') (by decide)
def percentD : CString := single (ch 'd') (by decide)

theorem prints_single {d : Byte} {h : d ≠ 0#8} {base : BitVec 32} {u : Bool}
    (hk : kind d = .number base u) (v : BitVec 64) : Takes (single d h).bytes [.int v] ∧
    ∃ p, vsprintf (single d h) [.int v] = .ok p ∧ p.args = [] := by
  have htakes : Takes (single d h).bytes [.int v] := by
    show Takes (ch '%' :: d :: []) _
    rw [takes_directive, hk]
    rfl
  exact ⟨htakes, scan_takes htakes⟩

theorem prints_percentU (v : BitVec 64) : Takes percentU.bytes [.int v] ∧
    ∃ p, vsprintf percentU [.int v] = .ok p ∧ p.args = [] :=
  prints_single (show kind (ch 'u') = .number 16#32 true by decide) v

theorem prints_percentD (v : BitVec 64) : Takes percentD.bytes [.int v] ∧
    ∃ p, vsprintf percentD [.int v] = .ok p ∧ p.args = [] :=
  prints_single (show kind (ch 'd') = .number 10#32 false by decide) v

theorem vsprintf_append_iff_signed : ∃ t, text percentD [.int (-1#64)] = .ok t ∧
    ∃ s, text percentU [.int 1#64] = .ok s ∧
      (text (percentU ++ percentD) ([.int 1#64] ++ [.int (-1#64)]) = .ok (s ++ t) ↔
        ¬ (hasUnsigned percentU.bytes ∧ showsSign percentD.bytes [.int (-1#64)])) := by
  obtain ⟨-, q, hq, -⟩ := prints_percentD (-1#64)
  exact ⟨q.str, text_eq_ok.mpr ⟨q, hq, rfl⟩, vsprintf_append_iff _ _ _ _ _
    (prints_percentU 1#64).1 (text_eq_ok.mpr ⟨q, hq, rfl⟩)⟩

/-- **`%u` takes the sign of what follows**: `"%u"` with `1` before `"%d"` with `-1` -/
theorem unsigned_not_reset : ¬ ∀ (f g : CString) (a b : List VaArg) (s t : List Byte),
    Takes f.bytes a → text f a = .ok s → text g b = .ok t →
    text (f ++ g) (a ++ b) = .ok (s ++ t) := by
  intro h
  obtain ⟨htakes, p, hp, ha⟩ := prints_percentU 1#64
  obtain ⟨-, q, hq, -⟩ := prints_percentD (-1#64)
  obtain ⟨r, hr, hiff⟩ := append_str_iff hp ha hq
  have hall := h _ _ _ _ _ _ htakes (text_eq_ok.mpr ⟨p, hp, rfl⟩) (text_eq_ok.mpr ⟨q, hq, rfl⟩)
  obtain ⟨r', hr', heq⟩ := text_eq_ok.mp hall
  rw [hr] at hr'
  cases hr'
  exact hiff.mp heq ⟨by decide, by decide⟩

end HyperC.Print
