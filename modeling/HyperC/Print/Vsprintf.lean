import HyperC.Print.Integer

/-!
# `vsprintf`

The loop over the format carries the output, the arguments that are left and the flag `is_unsigned`.
The log lines that it asks for on the way are kept in their order.

* `CString`, `VaArg`        the strings and the arguments of a call;
* `directive`, `scan`, `vsprintf`   the `switch`, the loop and the function;
* `Trap`                    where the C code leaves its strings or its arguments;
* `Kind`, `directive_eq`    the nine branches of the `switch` are four;
* `scan_within`, `scan_append`   a longer output, more arguments and a longer format.
-/

namespace HyperC.Print

/-- a string without its terminator -/
structure CString where
  bytes : List Byte
  nonzero : ∀ c ∈ bytes, c ≠ 0#8

def CString.append (f g : CString) : CString where
  bytes := f.bytes ++ g.bytes
  nonzero := fun c hc => (List.mem_append.mp hc).elim (f.nonzero c) (g.nonzero c)

instance : Append CString := ⟨CString.append⟩

/-- an argument: the eight bytes of an `int`, or a pointer to a string -/
inductive VaArg where
  | int (v : BitVec 64)
  | str (s : CString)

/-- the loop steps over the terminator of the format, the arguments do not match, or the length of a
string is no `int` -/
inductive Trap where
  | pastFormat | wrongArgument | longString
deriving DecidableEq

/-- what the loop carries: the text so far, the arguments left, the flag, and the nested log lines -/
structure Printer where
  str : List Byte
  args : List VaArg
  isUnsigned : Bool
  nested : List LogLine

def vaInt : List VaArg → Except Trap (BitVec 32 × List VaArg)
  | .int v :: args => .ok (v.setWidth 32, args)
  | _ => .error .wrongArgument

def vaStr : List VaArg → Except Trap (CString × List VaArg)
  | .str s :: args => .ok (s, args)
  | _ => .error .wrongArgument

def Printer.write (p : Printer) (t : List Byte) : Printer := { p with str := p.str ++ t }

def Printer.log (p : Printer) (level : LogLevel) (fmt : String) : Printer :=
  { p with nested := p.nested ++ [⟨level, fmt, []⟩] }

def printCharacter (p : Printer) : Except Trap Printer := do
  let p := p.log .debug "printing a character"
  let (c, args) ← vaInt p.args
  return { p with args := args }.write [c.setWidth 8]

def printString (p : Printer) : Except Trap Printer := do
  let (buffer, args) ← vaStr p.args
  if buffer.bytes.length < 2 ^ 31 then return { p with args := args }.write buffer.bytes
  else throw .longString

/-- `hex_print`, `binary_print` and the decimal case -/
def printNumber (base : BitVec 32) (p : Printer) : Except Trap Printer := do
  let (number, args) ← vaInt p.args
  return { p with args := args }.write (sprintInteger number base p.isUnsigned)

/-- the `switch` on the byte behind `%` -/
def directive (d : Byte) (p : Printer) : Except Trap Printer :=
  if d = ch 'c' then printCharacter p
  else if d = ch 's' then printString p
  else if d = ch 'd' then printNumber 10#32 p
  else if d = ch 'b' then printNumber 2#32 p
  else if d = ch 'x' then printNumber 16#32 p
  else if d = ch 'p' then printNumber 16#32 p
  else if d = ch 'u' then printNumber 16#32 { p with isUnsigned := true }
  else if d = ch 'U' then printNumber 2#32 { p with isUnsigned := true }
  else .ok (p.log .error "unknown format character")

/-- the loop; the byte behind a last `%` is the terminator, and the loop goes on behind it -/
def scan : List Byte → Printer → Except Trap Printer
  | [], p => .ok p
  | c :: fmt, p =>
    if c ≠ ch '%' then scan fmt (p.write [c])
    else match fmt with
      | [] => .error .pastFormat
      | d :: fmt => do scan fmt (← directive d p)

def vsprintf (fmt : CString) (args : List VaArg) : Except Trap Printer :=
  scan fmt.bytes ⟨[], args, false, []⟩

def text (fmt : CString) (args : List VaArg) : Except Trap (List Byte) :=
  (vsprintf fmt args).map Printer.str

/-! ## the loop, by cases -/

section
variable {c d : Byte} {fmt : List Byte} {p q : Printer}

theorem bind_eq_ok {ε α β : Type} {x : Except ε α} {f : α → Except ε β} {b : β} :
    x >>= f = .ok b ↔ ∃ a, x = .ok a ∧ f a = .ok b := by
  cases x with
  | error e =>
    refine ⟨fun h => ?_, fun ⟨a, h, _⟩ => ?_⟩ <;> cases h
  | ok a =>
    refine ⟨fun h => ⟨a, rfl, h⟩, ?_⟩
    rintro ⟨a', h, h'⟩
    cases h
    exact h'

theorem scan_literal (h : c ≠ ch '%') : scan (c :: fmt) p = scan fmt (p.write [c]) := by
  rw [scan.eq_def]
  exact if_pos h

theorem scan_directive : scan (ch '%' :: d :: fmt) p = (directive d p >>= scan fmt) := by
  rw [scan.eq_def]
  exact if_neg (by simp)

theorem scan_dangling : scan [ch '%'] p = .error .pastFormat := by
  rw [scan.eq_def]
  exact if_neg (by simp)

@[elab_as_elim]
theorem format_induction {P : List Byte → Prop} (fmt : List Byte) (nil : P [])
    (literal : ∀ c fmt, c ≠ ch '%' → P fmt → P (c :: fmt)) (dangling : P [ch '%'])
    (directive : ∀ d fmt, P fmt → P (ch '%' :: d :: fmt)) : P fmt := by
  induction hlen : fmt.length using Nat.strongRecOn generalizing fmt with
  | ind n ih =>
    subst hlen
    cases fmt with
    | nil => exact nil
    | cons c fmt =>
      by_cases h : c = ch '%'
      · subst h
        cases fmt with
        | nil => exact dangling
        | cons d fmt => exact directive d fmt (ih _ (by rw [List.length_cons, List.length_cons]; omega)
          fmt rfl)
      · exact literal c fmt h (ih _ (by simp) fmt rfl)

end

/-! ## the kinds of directives -/

/-- what a directive prints; a number in a base, and the directive may set the flag -/
inductive Kind where
  | character
  | string
  | number (base : BitVec 32) (unsigned : Bool)
  | unknown
deriving DecidableEq

def kind (d : Byte) : Kind :=
  if d = ch 'c' then .character
  else if d = ch 's' then .string
  else if d = ch 'd' then .number 10#32 false
  else if d = ch 'b' then .number 2#32 false
  else if d = ch 'x' ∨ d = ch 'p' then .number 16#32 false
  else if d = ch 'u' then .number 16#32 true
  else if d = ch 'U' then .number 2#32 true
  else .unknown

def Kind.print : Kind → Printer → Except Trap Printer
  | .character, p => printCharacter p
  | .string, p => printString p
  | .number base unsigned, p => printNumber base { p with isUnsigned := p.isUnsigned || unsigned }
  | .unknown, p => .ok (p.log .error "unknown format character")

/-- whether the flag is set afterwards -/
def Kind.unsigned : Kind → Bool
  | .number _ unsigned => unsigned
  | _ => false

theorem directive_eq (d : Byte) (p : Printer) : directive d p = (kind d).print p := by
  unfold directive kind
  split_ifs <;> simp_all [Kind.print]

/-! ## a longer output and more arguments -/

section
variable {k : Kind} {d : Byte} {fmt : List Byte} {p q : Printer}

theorem vaInt_eq_ok {args : List VaArg} {r : BitVec 32 × List VaArg} :
    vaInt args = .ok r ↔ ∃ v rest, args = .int v :: rest ∧ r = (v.setWidth 32, rest) := by
  constructor
  · intro h
    cases args with
    | nil => cases h
    | cons x rest =>
      cases x with
      | str s => cases h
      | int v =>
        cases h
        exact ⟨v, rest, rfl, rfl⟩
  · rintro ⟨v, rest, rfl, rfl⟩
    rfl

theorem vaStr_eq_ok {args : List VaArg} {r : CString × List VaArg} :
    vaStr args = .ok r ↔ ∃ s rest, args = .str s :: rest ∧ r = (s, rest) := by
  constructor
  · intro h
    cases args with
    | nil => cases h
    | cons x rest =>
      cases x with
      | int v => cases h
      | str s =>
        cases h
        exact ⟨s, rest, rfl, rfl⟩
  · rintro ⟨s, rest, rfl, rfl⟩
    rfl

/-- a function that takes an `int` and goes on with a printer -/
theorem vaInt_bind_eq_ok {args : List VaArg} {f : BitVec 32 × List VaArg → Printer} :
    (vaInt args >>= fun r => .ok (f r)) = .ok q ↔
      ∃ v rest, args = .int v :: rest ∧ q = f (v.setWidth 32, rest) := by
  constructor
  · intro h
    obtain ⟨r, hr, h⟩ := bind_eq_ok.mp h
    obtain ⟨v, rest, hargs, rfl⟩ := vaInt_eq_ok.mp hr
    cases h
    exact ⟨v, rest, hargs, rfl⟩
  · rintro ⟨v, rest, hargs, rfl⟩
    exact bind_eq_ok.mpr ⟨_, vaInt_eq_ok.mpr ⟨v, rest, hargs, rfl⟩, rfl⟩

theorem printCharacter_eq_ok : printCharacter p = .ok q ↔ ∃ v args, p.args = .int v :: args ∧
    q = ⟨p.str ++ [(v.setWidth 32).setWidth 8], args, p.isUnsigned,
      p.nested ++ [⟨.debug, "printing a character", []⟩]⟩ := vaInt_bind_eq_ok

theorem printNumber_eq_ok {base : BitVec 32} : printNumber base p = .ok q ↔
    ∃ v args, p.args = .int v :: args ∧
      q = ⟨p.str ++ sprintInteger (v.setWidth 32) base p.isUnsigned, args, p.isUnsigned,
        p.nested⟩ := vaInt_bind_eq_ok

theorem printString_eq_ok : printString p = .ok q ↔ ∃ s args, p.args = .str s :: args ∧
    s.bytes.length < 2 ^ 31 ∧ q = ⟨p.str ++ s.bytes, args, p.isUnsigned, p.nested⟩ := by
  constructor
  · intro h
    obtain ⟨r, hr, h⟩ := bind_eq_ok.mp h
    obtain ⟨s, rest, hargs, rfl⟩ := vaStr_eq_ok.mp hr
    dsimp only at h
    split at h
    · next hlen =>
      cases h
      exact ⟨s, rest, hargs, hlen, rfl⟩
    · cases h
  · rintro ⟨s, rest, hargs, hlen, rfl⟩
    exact bind_eq_ok.mpr ⟨_, vaStr_eq_ok.mpr ⟨s, rest, hargs, rfl⟩, if_pos hlen⟩

/-- the printer with text and log lines before its own, and arguments behind -/
def Printer.within (s : List Byte) (b : List VaArg) (n : List LogLine) (p : Printer) : Printer :=
  ⟨s ++ p.str, p.args ++ b, p.isUnsigned, n ++ p.nested⟩

section
variable (s : List Byte) (b : List VaArg) (n : List LogLine)

theorem print_within (h : k.print p = .ok q) : k.print (p.within s b n) = .ok (q.within s b n) := by
  cases k with
  | character =>
    obtain ⟨v, args, hargs, rfl⟩ := printCharacter_eq_ok.mp h
    exact printCharacter_eq_ok.mpr ⟨v, args ++ b, congrArg (· ++ b) hargs,
      by simp [Printer.within]⟩
  | string =>
    obtain ⟨t, args, hargs, hlen, rfl⟩ := printString_eq_ok.mp h
    exact printString_eq_ok.mpr ⟨t, args ++ b, congrArg (· ++ b) hargs, hlen,
      by simp [Printer.within]⟩
  | number base unsigned =>
    obtain ⟨v, args, hargs, rfl⟩ := printNumber_eq_ok.mp h
    exact printNumber_eq_ok.mpr ⟨v, args ++ b, congrArg (· ++ b) hargs, by simp [Printer.within]⟩
  | unknown =>
    cases h
    simp [Kind.print, Printer.log, Printer.within]

/-- **the loop does not look at what is written already, nor at arguments it does not take** -/
theorem scan_within (h : scan fmt p = .ok q) : scan fmt (p.within s b n) = .ok (q.within s b n) := by
  induction fmt using format_induction generalizing p with
  | nil =>
    cases h
    rfl
  | literal c fmt hc ih =>
    rw [scan_literal hc] at h ⊢
    have hw : (p.within s b n).write [c] = (p.write [c]).within s b n := by
      simp [Printer.write, Printer.within]
    rw [hw]
    exact ih h
  | dangling =>
    rw [scan_dangling] at h
    cases h
  | directive d fmt ih =>
    rw [scan_directive, directive_eq] at h ⊢
    obtain ⟨p₁, h₁, h₂⟩ := bind_eq_ok.mp h
    exact bind_eq_ok.mpr ⟨_, print_within s b n h₁, ih h₂⟩

end

/-! ## a longer format -/

/-- **the loop over two formats is the loop over the one and then over the other** -/
theorem scan_append {g : List Byte} (h : scan fmt p = .ok q) : scan (fmt ++ g) p = scan g q := by
  induction fmt using format_induction generalizing p with
  | nil =>
    cases h
    rfl
  | literal c fmt hc ih =>
    rw [scan_literal hc] at h
    rw [List.cons_append, scan_literal hc]
    exact ih h
  | dangling =>
    rw [scan_dangling] at h
    cases h
  | directive d fmt ih =>
    rw [scan_directive] at h
    obtain ⟨p₁, h₁, h₂⟩ := bind_eq_ok.mp h
    rw [List.cons_append, List.cons_append, scan_directive, h₁]
    exact ih h₂

end

end HyperC.Print
