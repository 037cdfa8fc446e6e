import HyperC.Print.Compose
import HyperC.Print.Log
import HyperC.Print.ReadNumber

/-!
# The buffers of `log_log`

`log_log` formats into `buffer[0x100]` and then into `log_message[0x400]`, and nothing bounds the text:
a string that the format prints may have any length.

* `numberLength`, `renderedLength`   the length of a text, from the format and the arguments;
* `scan_length`           the formatter prints so many characters;
* `logLog_within_iff`     when a call, and the calls it makes, stay within their buffers.
-/

namespace HyperC.Print

/-- the number of characters of a number: its sign, its prefix and its digits -/
def numberLength (number base : BitVec 32) (isUnsigned : Bool) : ℕ :=
  (if number.toInt < 0 ∧ isUnsigned = false then 1 else 0) + (basePrefix base).length
    + (Nat.log base.toNat (shown number isUnsigned).natAbs + 1)

/-- the number of characters that a format prints, with the flag of the start; if `stops` is set, only
of those before the first NUL that a `%c` prints -/
def renderedLength (stops : Bool) : List Byte → List VaArg → Bool → ℕ
  | [], _, _ => 0
  | c :: fmt, args, isUnsigned =>
    if c ≠ ch '%' then renderedLength stops fmt args isUnsigned + 1
    else match fmt with
      | [] => 0
      | d :: fmt => match kind d, args with
        | .character, .int v :: args =>
          if stops ∧ (v.setWidth 32).setWidth 8 = 0#8 then 0
          else renderedLength stops fmt args isUnsigned + 1
        | .string, .str s :: args =>
          s.bytes.length + renderedLength stops fmt args isUnsigned
        | .number base unsigned, .int v :: args =>
          numberLength (v.setWidth 32) base (isUnsigned || unsigned)
            + renderedLength stops fmt args (isUnsigned || unsigned)
        | .unknown, args => renderedLength stops fmt args isUnsigned
        | _, _ => 0

/-! ## numbers -/

section
variable {base : BitVec 32} (h2 : 2 ≤ base.toNat) (h16 : base.toNat ≤ 16)
include h2

theorem digitText_length (value : BitVec 32) :
    (digitText base value).length = Nat.log base.toNat value.toNat + 1 := by
  unfold digitText
  split
  · next h =>
    rw [h, List.length_singleton, show (0#32).toNat = 0 from rfl, Nat.log_zero_right]
  · next h =>
    have hv : value.toNat ≠ 0 := fun h0 => h (BitVec.eq_of_toNat_eq h0)
    rw [List.length_reverse, List.length_map, Nat.length_digits _ _ (by omega) hv]

include h16

theorem sprintInteger_length (number : BitVec 32) (isUnsigned : Bool) :
    (sprintInteger number base isUnsigned).length = numberLength number base isUnsigned := by
  have habs : (shown number isUnsigned).natAbs
      = (if number.toInt < 0 ∧ isUnsigned = false then -number else number).toNat := by
    cases isUnsigned with
    | true => simp [shown]
    | false =>
      by_cases hneg : number.toInt < 0
      · rw [if_pos ⟨hneg, rfl⟩, shown, if_neg Bool.false_ne_true, ← toInt_eq_of_neg hneg,
          Int.natAbs_neg, Int.natAbs_natCast]
      · rw [if_neg fun h => hneg h.1, shown, if_neg Bool.false_ne_true, ← toInt_eq_of_nonneg hneg,
          Int.natAbs_natCast]
  rw [sprintInteger_eq number isUnsigned h2 h16, List.length_append, List.length_append,
    digitText_length h2, numberLength, habs]
  split <;> rfl

end

/-- whatever the base, a number is short -/
theorem numberLength_le (number base : BitVec 32) (isUnsigned : Bool) :
    numberLength number base isUnsigned ≤ 35 := by
  have habs : (shown number isUnsigned).natAbs < 2 ^ 32 := by
    have hnat := number.isLt
    have hlo := BitVec.le_toInt number
    have hhi := BitVec.toInt_lt (x := number)
    unfold shown
    split <;> omega
  have hlog : Nat.log base.toNat (shown number isUnsigned).natAbs < 32 := by
    by_cases hbase : 1 < base.toNat
    · exact Nat.log_lt_of_lt_pow' (by decide) (habs.trans_le (Nat.pow_le_pow_left hbase 32))
    · rw [Nat.log_of_left_le_one (Nat.le_of_not_lt hbase)]
      decide
  have hprefix : (basePrefix base).length ≤ 2 := by
    unfold basePrefix
    split_ifs <;> decide
  unfold numberLength
  split <;> omega

/-! ## texts -/

section
variable {c d : Byte} {fmt : List Byte} {args : List VaArg} {p q : Printer} {u stops : Bool}

theorem renderedLength_literal (h : c ≠ ch '%') :
    renderedLength stops (c :: fmt) args u = renderedLength stops fmt args u + 1 := by
  rw [renderedLength.eq_def]
  exact if_pos h

theorem renderedLength_directive : renderedLength stops (ch '%' :: d :: fmt) args u
    = match kind d, args with
      | .character, .int v :: args =>
        if stops ∧ (v.setWidth 32).setWidth 8 = 0#8 then 0 else renderedLength stops fmt args u + 1
      | .string, .str s :: args => s.bytes.length + renderedLength stops fmt args u
      | .number base unsigned, .int v :: args =>
        numberLength (v.setWidth 32) base (u || unsigned)
          + renderedLength stops fmt args (u || unsigned)
      | .unknown, args => renderedLength stops fmt args u
      | _, _ => 0 := by
  rw [renderedLength.eq_def]
  exact if_neg (by simp)

theorem cut_append {s t : List Byte} (h : ∀ c ∈ s, c ≠ 0#8) :
    (cut (s ++ t)).bytes = s ++ (cut t).bytes :=
  List.takeWhile_append_of_pos fun c hc => bne_iff_ne.mpr (h c hc)

/-- what a directive prints: all of it, or up to its first NUL -/
structure Printed (t : List Byte) (n m : ℕ) : Prop where
  length : t.length = n
  cut : (cut t).bytes.length = m

theorem Printed.append {s t : List Byte} {n m : ℕ} (h : ∀ c ∈ s, c ≠ 0#8) (ht : Printed t n m) :
    Printed (s ++ t) (s.length + n) (s.length + m) := by
  refine ⟨?_, ?_⟩
  · rw [List.length_append, ht.length]
  · rw [cut_append h, List.length_append, ht.cut]

/-- **the formatter prints so many characters** -/
theorem scan_length (h0 : ∀ c ∈ fmt, c ≠ 0#8) (h : scan fmt p = .ok q) : ∃ t, q.str = p.str ++ t ∧
    Printed t (renderedLength false fmt p.args p.isUnsigned)
      (renderedLength true fmt p.args p.isUnsigned) := by
  induction fmt using format_induction generalizing p with
  | nil =>
    cases h
    exact ⟨[], (List.append_nil _).symm, rfl, rfl⟩
  | literal c fmt hc ih =>
    rw [scan_literal hc] at h
    obtain ⟨t, ht, hprinted⟩ := ih (fun c hc => h0 c (List.mem_cons_of_mem _ hc)) h
    refine ⟨[c] ++ t, ?_, ?_⟩
    · rw [ht, ← List.append_assoc]
      rfl
    · rw [renderedLength_literal hc, renderedLength_literal hc, Nat.add_comm _ 1, Nat.add_comm _ 1]
      exact hprinted.append fun x hx => by
        rw [List.mem_singleton.mp hx]
        exact h0 c List.mem_cons_self
  | dangling =>
    rw [scan_dangling] at h
    cases h
  | directive d fmt ih =>
    rw [scan_directive, directive_eq] at h
    obtain ⟨p₁, h₁, h₂⟩ := bind_eq_ok.mp h
    obtain ⟨t, ht, hprinted⟩ :=
      ih (fun c hc => h0 c (List.mem_cons_of_mem _ (List.mem_cons_of_mem _ hc))) h₂
    simp only [renderedLength_directive]
    cases hk : kind d with
    | character =>
      rw [hk] at h₁
      obtain ⟨v, rest, hargs, rfl⟩ := printCharacter_eq_ok.mp h₁
      rw [hargs]
      refine ⟨[(v.setWidth 32).setWidth 8] ++ t, ?_, ?_⟩
      · rw [ht, List.append_assoc]
      · dsimp only
        generalize (v.setWidth 32).setWidth 8 = b
        by_cases hb : b = 0#8
        · -- nothing behind the NUL belongs to the string
          subst hb
          exact ⟨by simp [hprinted.length], by simp [cut]⟩
        · have hone := hprinted.append (s := [b]) fun x hx => by
            rw [List.mem_singleton.mp hx]
            exact hb
          simpa [hb, Nat.add_comm] using hone
    | string =>
      rw [hk] at h₁
      obtain ⟨s, rest, hargs, hlen, rfl⟩ := printString_eq_ok.mp h₁
      rw [hargs]
      refine ⟨s.bytes ++ t, ?_, hprinted.append s.nonzero⟩
      rw [ht, List.append_assoc]
    | number base unsigned =>
      rw [hk] at h₁
      obtain ⟨v, rest, hargs, rfl⟩ := printNumber_eq_ok.mp h₁
      obtain ⟨h2, h16⟩ := kind_base hk
      rw [show p.args = .int v :: rest from hargs]
      refine ⟨sprintInteger (v.setWidth 32) base (p.isUnsigned || unsigned) ++ t, ?_, ?_⟩
      · rw [ht, List.append_assoc]
      · have hnumber := hprinted.append
          (sprintInteger_nonzero (v.setWidth 32) (p.isUnsigned || unsigned) h2 h16)
        rw [sprintInteger_length h2 h16] at hnumber
        exact hnumber
    | unknown =>
      rw [hk] at h₁
      cases h₁
      exact ⟨t, ht, hprinted⟩

/-- a short text has short strings -/
theorem short_of_rendered (h : Matches fmt args)
    (hlen : renderedLength false fmt args u < 2 ^ 31) : Short args := by
  induction h generalizing u with
  | nil => exact fun s hs => absurd hs List.not_mem_nil
  | literal hc hmatch ih =>
    rw [renderedLength_literal hc] at hlen
    exact ih (u := u) (by omega)
  | @directive d fmt args rest htaken hmatch ih =>
    rw [renderedLength_directive] at hlen
    generalize kind d = k at htaken hlen
    cases htaken with
    | character v args =>
      simp only [Bool.false_eq_true, false_and, if_false] at hlen
      exact short_int v (ih (u := u) (by omega))
    | string s args =>
      have hsum : s.bytes.length + renderedLength false fmt rest u < 2 ^ 31 := hlen
      intro t ht
      rcases List.mem_cons.mp ht with heq | ht
      · cases heq
        omega
      · exact ih (u := u) (by omega) t ht
    | number base unsigned v args =>
      have hsum : numberLength (v.setWidth 32) base (u || unsigned)
          + renderedLength false fmt rest (u || unsigned) < 2 ^ 31 := hlen
      exact short_int v (ih (u := u || unsigned) (by omega))
    | unknown args => exact ih hlen
  | dangling => exact fun s hs => absurd hs List.not_mem_nil

end

/-! ## the buffers -/

/-- the text fits `buffer`, and the message with it fits `log_message` -/
def Fits (call : LogCall) : Prop :=
  renderedLength false call.fmt.bytes call.args false < 0x100 ∧
  (levelString call.level).bytes.length + call.file.bytes.length + numberLength call.line 10#32 false
    + renderedLength true call.fmt.bytes call.args false + 7 < 0x400

section
variable {call : LogCall} {l : Logger} {buffer : List Byte} {p : Printer}

theorem messageText_length : (messageText call buffer).length
    = (levelString call.level).bytes.length + call.file.bytes.length
      + numberLength call.line 10#32 false + (cut buffer).bytes.length + 7 := by
  have hline : (sprintInteger call.line 10#32 false).length = numberLength call.line 10#32 false :=
    sprintInteger_length (by decide) (by decide) _ _
  simp only [messageText, List.length_append, List.length_cons, List.length_nil, hline]
  omega

theorem buffer_length (h : vsprintf call.fmt call.args = .ok p) :
    Printed p.str (renderedLength false call.fmt.bytes call.args false)
      (renderedLength true call.fmt.bytes call.args false) := by
  obtain ⟨t, ht, hprinted⟩ := scan_length call.fmt.nonzero h
  rw [ht]
  exact hprinted

/-- a call that stays within its buffers has been filtered, or its texts fit -/
theorem fits_of_within {l' : Logger} (hret : logLog 2 call l = .ok l') (hwithin : Within l l') :
    call.level.toNat < l.minLevel.toNat ∨ Fits call := by
  refine or_iff_not_imp_left.mpr fun hlevel => ?_
  obtain ⟨l₁, hl₁, hcall⟩ := logLog_two call l hlevel
  rw [hret] at hcall
  cases hbuffer : vsprintf call.fmt call.args with
  | error e =>
    rw [hbuffer] at hcall
    cases hcall
  | ok p =>
    rw [hbuffer] at hcall
    change _ = trapped (vsprintf messageFormat (messageArgs call p.str) >>= _) at hcall
    rw [vsprintf_message] at hcall
    split at hcall
    · split at hcall
      · cases hcall
        -- the last frame is that of this call
        obtain ⟨new₁, hnew₁, -⟩ := hl₁.frames
        obtain ⟨new, hnew, hfit⟩ := hwithin.frames
        have hframes : new = new₁ ++ [⟨p.str.length + 1, (messageText call p.str).length + 1⟩] := by
          refine List.append_cancel_left (hnew.symm.trans ?_)
          rw [← List.append_assoc, ← hnew₁]
          rfl
        have hlast := hfit ⟨p.str.length + 1, (messageText call p.str).length + 1⟩
          (by rw [hframes]; simp)
        rw [messageText_length, (buffer_length hbuffer).length, (buffer_length hbuffer).cut] at hlast
        exact ⟨hlast.1, hlast.2⟩
      · cases hcall
    · cases hcall

theorem within_of_fits (h : Matches call.fmt.bytes call.args)
    (hd : dangling call.fmt.bytes = false)
    (hfits : call.level.toNat < l.minLevel.toNat ∨ Fits call) :
    ∃ l', logLog 2 call l = .ok l' ∧ Within l l' := by
  by_cases hlevel : call.level.toNat < l.minLevel.toNat
  · exact ⟨l, logLog_filtered hlevel, Within.refl l⟩
  · obtain ⟨hbuffer, hmessage⟩ := hfits.resolve_left hlevel
    obtain ⟨l₁, hl₁, hcall⟩ := logLog_two call l hlevel
    have hshort : Short call.args := short_of_rendered h (u := false) (by omega)
    have hscan := scan_matches (p := ⟨[], call.args, false, []⟩) h hd
    obtain ⟨p, hp⟩ := hscan.resolve_right fun herr => herr.2 hshort
    have hprinted : Printed p.str _ _ := buffer_length hp
    have hret : logLog 2 call l = .ok (l₁.printed p.str (messageText call p.str)) := by
      rw [hcall, show vsprintf call.fmt call.args = .ok p from hp]
      show trapped (vsprintf messageFormat (messageArgs call p.str) >>= _) = _
      rw [vsprintf_message, if_pos (by omega), if_pos (by rw [hprinted.cut]; omega)]
      rfl
    refine ⟨_, hret, Within.trans _ _ _ hl₁ (Within.printed ?_ ?_)⟩
    · rw [hprinted.length]
      exact hbuffer
    · rw [messageText_length, hprinted.cut]
      exact hmessage

end

/-- **logging stays within its buffers** exactly if the level is filtered or the two texts fit -/
theorem logLog_within_iff (depth : ℕ) (call : LogCall) (l : Logger)
    (h : Matches call.fmt.bytes call.args) (hd : dangling call.fmt.bytes = false) :
    (∃ l', logLog (depth + 2) call l = .ok l' ∧ Within l l') ↔
      call.level.toNat < l.minLevel.toNat ∨ Fits call := by
  rw [logLog_depth]
  exact ⟨fun ⟨l', hret, hwithin⟩ => fits_of_within hret hwithin, within_of_fits h hd⟩

/-- `LOG_INFO("mbr: %s", mbr)` -/
def logMbr (mbr : CString) : LogCall where
  level := .info
  file := ⟨['s', 'r', 'c', '/', 'v', 'm', 'm', '/', 'i', 'n', 'i', 't', 'i', 'a', 'l', 'i', 'z', 'e', '_',
    'h', 'o', 's', 't', '.', 'c'].map ch, by decide⟩
  line := 92#32
  fmt := ⟨['m', 'b', 'r', ':', ' ', '%', 's'].map ch, by decide⟩
  args := [.str mbr]

theorem logMbr_matches (mbr : CString) : Matches (logMbr mbr).fmt.bytes (logMbr mbr).args :=
  .literal (by decide) (.literal (by decide) (.literal (by decide) (.literal (by decide)
    (.literal (by decide) (.directive (.string mbr []) .nil)))))

theorem logMbr_length (mbr : CString) (stops : Bool) :
    renderedLength stops (logMbr mbr).fmt.bytes (logMbr mbr).args false = mbr.bytes.length + 5 := rfl

/-- a boot sector without a zero byte -/
def fullSector : CString where
  bytes := List.replicate 512 0x90#8
  nonzero := fun c hc => by
    rw [List.eq_of_mem_replicate hc]
    decide

theorem logLog_within_iff_mbr :
    (∃ l', logLog 3 (logMbr fullSector) ⟨.debug, [], []⟩ = .ok l' ∧ Within ⟨.debug, [], []⟩ l') ↔
      (logMbr fullSector).level.toNat < LogLevel.debug.toNat ∨ Fits (logMbr fullSector) :=
  logLog_within_iff 1 (logMbr fullSector) ⟨.debug, [], []⟩ (logMbr_matches fullSector) (by decide)

/-- **a full boot sector does not fit `buffer`** -/
theorem mbr_overflows : ¬ ∀ (call : LogCall) (l : Logger), Matches call.fmt.bytes call.args →
    dangling call.fmt.bytes = false → ∃ depth l', logLog (depth + 2) call l = .ok l' ∧ Within l l' := by
  intro h
  obtain ⟨depth, l', hret, hwithin⟩ :=
    h (logMbr fullSector) ⟨.debug, [], []⟩ (logMbr_matches fullSector) (by decide)
  rw [logLog_depth] at hret
  rcases fits_of_within hret hwithin with hlevel | hfits
  · exact absurd hlevel (by decide)
  · have h512 : fullSector.bytes.length = 512 := List.length_replicate
    have hfit := hfits.1
    rw [logMbr_length, h512] at hfit
    omega

end HyperC.Print
