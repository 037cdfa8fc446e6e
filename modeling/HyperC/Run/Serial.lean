import HyperC.Print.Transcript
import HyperC.Run.Audit

/-!
# What a run sends

The lines of the log leave the machine as text.  A call of `log_log` prints its arguments as `int`s,
so of a number in the log the lower half arrives, and all else does.

* `stringBytes`, `chars`   a string as bytes, and bytes as characters;
* `Sites`, `Sites.call`   the files and lines the log is called from, and a line of the log as a call;
* `LogLine.low`, `Event.low`   what is left of them once they have been printed;
* `Prints`                what a line sends;
* `lineOf`, `Event.told`  how it is read: the lines of an event can be told by their texts;
* `serial_records_run`    so what a run sends can be read back, as the events of the virtual machine.
-/

namespace HyperC
open Code Print Simulation

/-! ## strings -/

def stringBytes (s : String) : List Byte := s.toList.map ch

def chars (t : List Byte) : List Char := t.map fun b => Char.ofNat b.toNat

/-- a character of eight bits that is no directive and ends neither a string nor a line -/
def plainChar (c : Char) : Bool := c != '%' && c != '\n' && c.toNat != 0 && c.toNat < 256

/-- a short string of such characters -/
structure PlainString (s : String) : Prop where
  plain : s.toList.all plainChar = true
  short : s.toList.length ≤ 100

section
variable {s : String} {c : Char}

theorem ch_inj {d : Char} (h : ch c = ch d) (hc : c.toNat < 256) (hd : d.toNat < 256) : c = d := by
  have hnat := congrArg BitVec.toNat h
  simp only [ch, BitVec.toNat_ofNat] at hnat
  exact Char.toNat_inj.mp (by omega)

theorem PlainString.char (h : PlainString s) (hc : c ∈ s.toList) :
    c ≠ '%' ∧ c ≠ '\n' ∧ c.toNat ≠ 0 ∧ c.toNat < 256 := by
  have hplain := List.all_eq_true.mp h.plain c hc
  simpa [plainChar, and_assoc] using hplain

theorem PlainString.not_mem (h : PlainString s) (hc : c.toNat < 256) (hmem : c ∉ s.toList) :
    ch c ∉ stringBytes s := by
  intro hin
  obtain ⟨d, hd, heq⟩ := List.mem_map.mp hin
  exact hmem (ch_inj heq (h.char hd).2.2.2 hc ▸ hd)

theorem PlainString.directive (h : PlainString s) : ch '%' ∉ stringBytes s :=
  h.not_mem (by decide) fun hin => (h.char hin).1 rfl

theorem PlainString.oneLine (h : PlainString s) : ch '\n' ∉ stringBytes s :=
  h.not_mem (by decide) fun hin => (h.char hin).2.1 rfl

theorem PlainString.nonzero (h : PlainString s) : ∀ b ∈ stringBytes s, b ≠ 0#8 := by
  intro b hb h0
  obtain ⟨d, hd, rfl⟩ := List.mem_map.mp hb
  have hnat := congrArg BitVec.toNat h0
  have hchar := h.char hd
  simp only [ch, BitVec.toNat_ofNat] at hnat
  omega

theorem chars_stringBytes (h : PlainString s) : chars (stringBytes s) = s.toList := by
  have hchar : ∀ c ∈ s.toList, ((fun b : Byte => Char.ofNat b.toNat) ∘ ch) c = id c := by
    intro c hc
    show Char.ofNat (BitVec.ofNat 8 c.toNat).toNat = c
    rw [BitVec.toNat_ofNat, Nat.mod_eq_of_lt (h.char hc).2.2.2, Char.ofNat_toNat]
  rw [chars, stringBytes, List.map_map, List.map_congr_left hchar, List.map_id]

theorem stringBytes_length : (stringBytes s).length = s.toList.length := List.length_map _

end

def cstr (s : String) : CString := cut (stringBytes s)

theorem cut_of_nonzero {t : List Byte} (h : ∀ c ∈ t, c ≠ 0#8) : (cut t).bytes = t :=
  List.takeWhile_eq_self_iff.mpr fun c hc => bne_iff_ne.mpr (h c hc)

theorem cstr_plain {s : String} (h : PlainString s) : (cstr s).bytes = stringBytes s :=
  cut_of_nonzero h.nonzero

/-- a format that ends in a directive -/
theorem cstr_directive {s d : String} (h : PlainString s) (hd : ∀ c ∈ stringBytes d, c ≠ 0#8) :
    (cstr (s ++ d)).bytes = stringBytes s ++ stringBytes d := by
  have happend : stringBytes (s ++ d) = stringBytes s ++ stringBytes d := by
    rw [stringBytes, String.toList_append, List.map_append]
    rfl
  rw [cstr, happend]
  exact cut_of_nonzero fun c hc => (List.mem_append.mp hc).elim (h.nonzero c) (hd c)

/-- an argument of a call; a pointer to no string is as good as a number -/
def LogArg.arg : LogArg → VaArg
  | .int v => .int v
  | .str (some s) => .str (cstr s)
  | .str none => .int 0#64

/-- where the calls of `log_log` stand; there is one for each format -/
structure Sites where
  file : String → CString
  line : String → BitVec 32
  file_short : ∀ fmt, (file fmt).bytes.length ≤ 512
  file_colon : ∀ fmt, ch ':' ∉ (file fmt).bytes

/-- the line of the log as the call that made it -/
def Sites.call (sites : Sites) (l : LogLine) : LogCall :=
  ⟨l.level, sites.file l.fmt, sites.line l.fmt, cstr l.fmt, l.args.map LogArg.arg⟩

/-- the half of a number that is printed -/
def lowHalf (v : BitVec 64) : BitVec 64 := (v.setWidth 32).setWidth 64

def LogArg.low : LogArg → LogArg
  | .int v => .int (lowHalf v)
  | .str s => .str s

def LogLine.low (l : LogLine) : LogLine := { l with args := l.args.map LogArg.low }

def Event.low : Event → Event
  | .readMsr rcx => .readMsr (lowHalf rcx)
  | .writeMsr rcx => .writeMsr (lowHalf rcx)
  | .violation gpa => .violation (lowHalf gpa)
  | .misconfig gpa => .misconfig (lowHalf gpa)
  | e => e

theorem Event.lines_low (e : Event) : e.low.lines = e.lines.map LogLine.low := by
  cases e <;> rfl

theorem stream_low (es : List Event) : Records.stream Event.lines (es.map Event.low)
    = (Records.stream Event.lines es).map LogLine.low := by
  unfold Records.stream
  rw [List.flatMap_map, List.map_flatMap]
  exact congrArg (es.flatMap ·) (funext Event.lines_low)

/-! ## formats with one directive -/

section
variable {t fmt : List Byte} {args : List VaArg} {p : Printer} {stops u : Bool}

theorem scan_text (h : ch '%' ∉ t) : scan (t ++ fmt) p = scan fmt (p.write t) := by
  induction t generalizing p with
  | nil =>
    show scan fmt p = scan fmt { p with str := p.str ++ [] }
    rw [List.append_nil]
  | cons c t ih =>
    rw [List.mem_cons, not_or] at h
    rw [List.cons_append, scan_literal (Ne.symm h.1), ih h.2]
    show scan fmt { p with str := p.str ++ [c] ++ t } = scan fmt { p with str := p.str ++ c :: t }
    rw [List.append_assoc]
    rfl

theorem renderedLength_text (h : ch '%' ∉ t) :
    renderedLength stops (t ++ fmt) args u = t.length + renderedLength stops fmt args u := by
  induction t with
  | nil => exact (Nat.zero_add _).symm
  | cons c t ih =>
    rw [List.mem_cons, not_or] at h
    rw [List.cons_append, renderedLength_literal (Ne.symm h.1), ih h.2, List.length_cons]
    omega

theorem matches_text (h : ch '%' ∉ t) (hm : Matches fmt args) : Matches (t ++ fmt) args := by
  induction t with
  | nil => exact hm
  | cons c t ih =>
    rw [List.mem_cons, not_or] at h
    exact .literal (Ne.symm h.1) (ih h.2)

theorem dangling_text (h : ch '%' ∉ t) : dangling (t ++ fmt) = dangling fmt := by
  induction t with
  | nil => rfl
  | cons c t ih =>
    rw [List.mem_cons, not_or] at h
    rw [List.cons_append, dangling.eq_def]
    exact (if_pos (Ne.symm h.1)).trans (ih h.2)

theorem nestedCalls_text (h : ch '%' ∉ t) : nestedCalls (t ++ fmt) = nestedCalls fmt := by
  induction t with
  | nil => rfl
  | cons c t ih =>
    rw [List.mem_cons, not_or] at h
    rw [List.cons_append, nestedCalls_literal (Ne.symm h.1), ih h.2]

end

/-! ## what a line sends -/

/-- the line prints this text, without calls of its own, and the text can be told from what follows -/
structure Prints (l : LogLine) (t : List Byte) : Prop where
  args : Matches (cstr l.fmt).bytes (l.args.map LogArg.arg)
  ends : dangling (cstr l.fmt).bytes = false
  quiet : nestedCalls (cstr l.fmt).bytes = []
  short : ∀ stops, renderedLength stops (cstr l.fmt).bytes (l.args.map LogArg.arg) false ≤ 200
  text : Print.text (cstr l.fmt) (l.args.map LogArg.arg) = .ok t
  oneLine : ch '\n' ∉ t
  nonzero : ∀ c ∈ t, c ≠ 0#8

/-- no digit ends a line -/
theorem oneLine_number (number : BitVec 32) : ch '\n' ∉ sprintInteger number 16#32 true :=
  not_mem_sprintInteger number true (by decide) (by decide) (by decide) (by decide) (by decide)

section
variable {level : LogLevel} {s : String}

theorem prints_plain (h : PlainString s) : Prints ⟨level, s, []⟩ (stringBytes s) := by
  have hnil := List.append_nil (stringBytes s)
  have hlength := stringBytes_length (s := s)
  have hshort := h.short
  refine ⟨?_, ?_, ?_, fun stops => ?_, ?_, h.oneLine, h.nonzero⟩
  all_goals simp only [cstr_plain h, List.map_nil, text, vsprintf]
  · exact hnil ▸ matches_text h.directive .nil
  · rw [← hnil, dangling_text h.directive]
    rfl
  · rw [← hnil, nestedCalls_text h.directive]
    rfl
  · rw [← hnil, renderedLength_text h.directive]
    show (stringBytes s).length + 0 ≤ 200
    omega
  · rw [← hnil, scan_text h.directive, hnil]
    rfl

theorem prints_number (h : PlainString s) (v : BitVec 64) :
    Prints ⟨level, s ++ "%u", [.int v]⟩ (stringBytes s ++ sprintInteger (v.setWidth 32) 16#32 true) := by
  have hbytes : (cstr (s ++ "%u")).bytes = stringBytes s ++ [ch '%', ch 'u'] :=
    cstr_directive h (by decide)
  have hdigits : ∀ c ∈ sprintInteger (v.setWidth 32) 16#32 true, c ≠ 0#8 :=
    sprintInteger_nonzero _ _ (by decide) (by decide)
  have hline : ch '\n' ∉ stringBytes s ++ sprintInteger (v.setWidth 32) 16#32 true := by
    rw [List.mem_append, not_or]
    exact ⟨h.oneLine, oneLine_number _⟩
  refine ⟨?_, ?_, ?_, fun stops => ?_, ?_, hline,
    fun c hc => (List.mem_append.mp hc).elim (h.nonzero c) (hdigits c)⟩
  all_goals simp only [hbytes, List.map_cons, List.map_nil, LogArg.arg, text, vsprintf]
  · exact matches_text h.directive (.directive (.number 16#32 true v []) .nil)
  · exact dangling_text h.directive
  · exact nestedCalls_text h.directive
  · have hshort := h.short
    have hlength := stringBytes_length (s := s)
    have hnumber := numberLength_le (v.setWidth 32) 16#32 true
    rw [renderedLength_text h.directive, renderedLength_directive]
    show (stringBytes s).length + (numberLength (v.setWidth 32) 16#32 true + 0) ≤ 200
    omega
  · rw [scan_text h.directive, scan_directive]
    rfl

theorem prints_string (h : PlainString s) {name : String} (hname : PlainString name) :
    Prints ⟨level, s ++ "%s", [.str (some name)]⟩ (stringBytes s ++ stringBytes name) := by
  have hbytes : (cstr (s ++ "%s")).bytes = stringBytes s ++ [ch '%', ch 's'] :=
    cstr_directive h (by decide)
  have hshort := h.short
  have hlength := stringBytes_length (s := s)
  have hnameShort : (cstr name).bytes.length ≤ 100 := by
    rw [cstr_plain hname, stringBytes_length]
    exact hname.short
  have hline : ch '\n' ∉ stringBytes s ++ stringBytes name := by
    rw [List.mem_append, not_or]
    exact ⟨h.oneLine, hname.oneLine⟩
  refine ⟨?_, ?_, ?_, fun stops => ?_, ?_, hline,
    fun c hc => (List.mem_append.mp hc).elim (h.nonzero c) (hname.nonzero c)⟩
  all_goals simp only [hbytes, List.map_cons, List.map_nil, LogArg.arg, text, vsprintf]
  · exact matches_text h.directive (.directive (.string (cstr name) []) .nil)
  · exact dangling_text h.directive
  · exact nestedCalls_text h.directive
  · rw [renderedLength_text h.directive, renderedLength_directive]
    show (stringBytes s).length + ((cstr name).bytes.length + 0) ≤ 200
    omega
  · have hint : (cstr name).bytes.length < 2 ^ 31 := by omega
    rw [scan_text h.directive, scan_directive]
    show Except.map Printer.str (printString _ >>= scan []) = _
    unfold printString
    show Except.map Printer.str ((if (cstr name).bytes.length < 2 ^ 31 then _ else _) >>= scan []) = _
    rw [if_pos hint, ← cstr_plain hname]
    rfl

end

/-! ## how it is read -/

/-- what stands before the numbers -/
def numberTexts : List String := ["handling rdmsr from msr: ", "handling wrmsr from msr: ",
  "tried to update guest physical address ", "guest tried to access physical address at "]

def reasonText : String := "VM-exit reason: "

/-- the line that sends this text -/
def lineOf (level : LogLevel) (t : List Byte) : LogLine :=
  match numberTexts.find? fun s => s.toList <+: chars t with
  | some s =>
    let number := BitVec.ofInt 32 (readNumber 16#32 (t.drop s.toList.length))
    ⟨level, s ++ "%u", [.int (number.setWidth 64)]⟩
  | none =>
    if reasonText.toList <+: chars t then
      ⟨level, reasonText ++ "%s", [.str (some (String.ofList (chars (t.drop reasonText.toList.length))))]⟩
    else ⟨level, String.ofList (chars t), []⟩

/-- the line prints a text that it can be told by -/
def Told (l : LogLine) : Prop := ∃ t, Prints l t ∧ lineOf l.level t = l.low

section
variable {level : LogLevel} {s : String}

theorem plain_texts : ∀ s ∈ reasonText :: numberTexts, PlainString s := by
  intro s hs
  simp only [numberTexts, reasonText, List.mem_cons, List.not_mem_nil, or_false] at hs
  rcases hs with rfl | rfl | rfl | rfl | rfl
  all_goals exact ⟨by simp [plainChar], by simp⟩

/-- no text begins another one -/
theorem texts_apart : (reasonText :: numberTexts).Pairwise fun s s' =>
    ¬ s.toList <+: s'.toList ∧ ¬ s'.toList <+: s.toList := by
  simp [numberTexts, reasonText]

theorem not_prefix_append {x y : List Char} (r : List Char) (h : ¬ x <+: y) (h' : ¬ y <+: x) :
    ¬ x <+: y ++ r :=
  fun hx => (List.prefix_or_prefix_of_prefix hx (List.prefix_append y r)).elim h h'

theorem not_prefix {s' : String} (h : s ∈ reasonText :: numberTexts) (h' : s' ∈ reasonText :: numberTexts)
    (hne : s' ≠ s) (r : List Byte) : ¬ s'.toList <+: chars (stringBytes s ++ r) := by
  have : Std.Symm fun s s' : String => ¬ s.toList <+: s'.toList ∧ ¬ s'.toList <+: s.toList :=
    ⟨fun _ _ h => h.symm⟩
  have hapart := texts_apart.forall h' h hne
  have hchars : chars (stringBytes s ++ r) = s.toList ++ chars r := by
    rw [chars, List.map_append, ← chars, ← chars, chars_stringBytes (plain_texts s h)]
  rw [hchars]
  exact not_prefix_append _ hapart.1 hapart.2

theorem find_number (h : s ∈ numberTexts) (r : List Byte) :
    numberTexts.find? (fun s' => s'.toList <+: chars (stringBytes s ++ r)) = some s := by
  have hprefix : s.toList <+: chars (stringBytes s ++ r) := by
    rw [chars, List.map_append, ← chars, chars_stringBytes (plain_texts s (List.mem_cons_of_mem _ h))]
    exact List.prefix_append _ _
  have hsome : (numberTexts.find? fun s' => s'.toList <+: chars (stringBytes s ++ r)).isSome := by
    rw [List.find?_isSome]
    exact ⟨s, h, decide_eq_true hprefix⟩
  obtain ⟨s', hs'⟩ := Option.isSome_iff_exists.mp hsome
  have hfound := List.find?_some hs'
  have hmem := List.mem_of_find?_eq_some hs'
  rw [hs']
  by_contra hne
  exact not_prefix (List.mem_cons_of_mem _ h) (List.mem_cons_of_mem _ hmem)
    (fun heq => hne (congrArg some heq)) r (of_decide_eq_true hfound)

theorem told_number (h : s ∈ numberTexts) (v : BitVec 64) : Told ⟨level, s ++ "%u", [.int v]⟩ := by
  refine ⟨_, prints_number (plain_texts s (List.mem_cons_of_mem _ h)) v, ?_⟩
  have hvalue : BitVec.ofInt 32 (readNumber 16#32 (sprintInteger (v.setWidth 32) 16#32 true))
      = v.setWidth 32 := by
    rw [readNumber_sprintInteger _ true (by decide) (by decide)]
    show BitVec.ofInt 32 ((v.setWidth 32).toNat : ℤ) = _
    rw [BitVec.ofInt_natCast, BitVec.ofNat_toNat, BitVec.setWidth_eq]
  rw [lineOf, find_number h]
  show LogLine.mk level (s ++ "%u") [.int ((BitVec.ofInt 32 (readNumber 16#32 _)).setWidth 64)] = _
  rw [← stringBytes_length, List.drop_left, hvalue]
  rfl

/-- what is read of a text that no number follows -/
theorem lineOf_none {t : List Byte} (h : ∀ s ∈ numberTexts, ¬ s.toList <+: chars t) :
    lineOf level t = if reasonText.toList <+: chars t then ⟨level, reasonText ++ "%s",
        [.str (some (String.ofList (chars (t.drop reasonText.toList.length))))]⟩
      else ⟨level, String.ofList (chars t), []⟩ := by
  have hnone : numberTexts.find? (fun s => s.toList <+: chars t) = none :=
    List.find?_eq_none.mpr fun s hs => by
      rw [decide_eq_true_iff]
      exact h s hs
  rw [lineOf, hnone]

theorem told_reason (h : PlainString s) : Told ⟨level, reasonText ++ "%s", [.str (some s)]⟩ := by
  have hreason : PlainString reasonText := plain_texts _ List.mem_cons_self
  have hne : ∀ s' ∈ numberTexts, s' ≠ reasonText := by simp [numberTexts, reasonText]
  have hprefix : reasonText.toList <+: chars (stringBytes reasonText ++ stringBytes s) := by
    rw [chars, List.map_append, ← chars, chars_stringBytes hreason]
    exact List.prefix_append _ _
  refine ⟨_, prints_string hreason h, ?_⟩
  rw [lineOf_none fun s' hs' => not_prefix List.mem_cons_self (List.mem_cons_of_mem _ hs') (hne s' hs') _,
    if_pos hprefix, ← stringBytes_length, List.drop_left, chars_stringBytes h, String.ofList_toList]
  rfl

theorem told_plain (h : PlainString s)
    (hother : ∀ s' ∈ reasonText :: numberTexts, ¬ s'.toList <+: s.toList) : Told ⟨level, s, []⟩ := by
  obtain ⟨hreason, hnumber⟩ := List.forall_mem_cons.mp hother
  refine ⟨_, prints_plain h, ?_⟩
  rw [← chars_stringBytes h] at hreason
  rw [lineOf_none fun s' hs' => by rw [chars_stringBytes h]; exact hnumber s' hs', if_neg hreason,
    chars_stringBytes h, String.ofList_toList]
  rfl

end

/-- the reason of the exit has a name -/
def Event.Known (e : Event) : Prop := ∀ reason, e = .unknown reason → ∃ s, reason = some s ∧ PlainString s

theorem told_reasonLine {s : String} (h : PlainString s) : Told (Event.reasonLine (some s)) := by
  have hfmt : Event.reasonLine (some s) = ⟨.info, reasonText ++ "%s", [.str (some s)]⟩ := by
    simp [Event.reasonLine, reasonText]
  rw [hfmt]
  exact told_reason h

theorem told_numberLine {level : LogLevel} {fmt s : String} (v : BitVec 64) (hfmt : fmt = s ++ "%u")
    (h : s ∈ numberTexts) : Told ⟨level, fmt, [.int v]⟩ := by
  rw [hfmt]
  exact told_number h v

theorem told_exit {reason : ℕ} (h : reason ∈ [exitReasonHlt, exitReasonMsrRead, exitReasonMsrWrite,
    exitReasonEptViolation, exitReasonEptMisconfig, exitReasonVmcall]) :
    Told (Event.reasonLine (exitReasonString reason)) := by
  have hname : ∀ s ∈ ["EXIT_REASON_HLT", "EXIT_REASON_MSR_READ", "EXIT_REASON_MSR_WRITE",
      "EXIT_REASON_EPT_VIOLATION", "EXIT_REASON_EPT_MISCONFIG", "EXIT_REASON_VMCALL"],
      PlainString s := by
    intro s hs
    simp only [List.mem_cons, List.not_mem_nil, or_false] at hs
    rcases hs with rfl | rfl | rfl | rfl | rfl | rfl
    all_goals exact ⟨by simp [plainChar], by simp⟩
  simp only [List.mem_cons, List.not_mem_nil, or_false] at h
  rcases h with rfl | rfl | rfl | rfl | rfl | rfl
  all_goals exact told_reasonLine (hname _ (by simp))

/-- the lines that are all text -/
theorem told_textLine {level : LogLevel} {s : String} (h : s ∈ ["handling halt",
    "protecting IA32_SYSENTER_EIP and IA32_LSTAR msrs from writes", "unsupported vmcall",
    "Faild to handle VM-exit", "unsupported exit reason"]) : Told ⟨level, s, []⟩ := by
  simp only [List.mem_cons, List.not_mem_nil, or_false] at h
  rcases h with rfl | rfl | rfl | rfl | rfl
  all_goals exact told_plain ⟨by simp [plainChar], by simp⟩ (by simp [numberTexts, reasonText])

/-- **the lines of an event can be told by what they send** -/
theorem Event.told {e : Event} (h : e.Known) : ∀ l ∈ e.lines, Told l := by
  intro l hl
  cases e with
  | unknown reason =>
    obtain ⟨s, rfl, hs⟩ := h reason rfl
    rcases List.mem_pair.mp hl with rfl | rfl
    · exact told_reasonLine hs
    · exact told_textLine (by simp)
  | halt =>
    rcases List.mem_pair.mp hl with rfl | rfl
    · exact told_exit (by decide)
    · exact told_textLine (by simp)
  | protect =>
    rcases List.mem_pair.mp hl with rfl | rfl
    · exact told_exit (by decide)
    · exact told_textLine (by simp)
  | unsupported =>
    rcases List.mem_cons.mp hl with rfl | hl
    · exact told_exit (by decide)
    rcases List.mem_pair.mp hl with rfl | rfl
    · exact told_textLine (by simp)
    · exact told_textLine (by simp)
  | table =>
    rw [List.mem_singleton.mp hl]
    exact told_exit (by decide)
  | readMsr rcx =>
    rcases List.mem_pair.mp hl with rfl | rfl
    · exact told_exit (by decide)
    · exact told_numberLine rcx (s := "handling rdmsr from msr: ") (by simp) (by simp [numberTexts])
  | writeMsr rcx =>
    rcases List.mem_pair.mp hl with rfl | rfl
    · exact told_exit (by decide)
    · exact told_numberLine rcx (s := "handling wrmsr from msr: ") (by simp) (by simp [numberTexts])
  | violation gpa =>
    rcases List.mem_pair.mp hl with rfl | rfl
    · exact told_exit (by decide)
    · exact told_numberLine gpa (s := "tried to update guest physical address ") (by simp)
        (by simp [numberTexts])
  | misconfig gpa =>
    rcases List.mem_pair.mp hl with rfl | rfl
    · exact told_exit (by decide)
    · exact told_numberLine gpa (s := "guest tried to access physical address at ") (by simp)
        (by simp [numberTexts])

/-! ## runs -/

/-- the events behind the bytes on the serial line -/
def readTrail (t : List Byte) : Option (List Event) :=
  (Records.readAll Entry.bytes Entry.guess t).bind fun es =>
    Records.readAll Event.lines Event.guess (es.map fun e => lineOf e.level e.text)

section
variable {l : LogLine} {t : List Byte} (sites : Sites)

theorem Prints.printedText (h : Prints l t) : Print.printedText (sites.call l) = t := by
  unfold Print.printedText
  rw [show Print.text (sites.call l).fmt (sites.call l).args = .ok t from h.text]

theorem Prints.wellFormed (h : Prints l t) : WellFormed .debug (sites.call l) := by
  refine ⟨h.args, h.ends, .inr ⟨?_, ?_⟩⟩
  · exact lt_of_le_of_lt (h.short false) (by decide)
  · have hfile := sites.file_short l.fmt
    have hshort := h.short true
    have hline := numberLength_le (sites.line l.fmt) 10#32 false
    have hlevel : (levelString l.level).bytes.length ≤ 5 := by cases l.level <;> decide
    show (levelString l.level).bytes.length + (sites.file l.fmt).bytes.length
      + numberLength (sites.line l.fmt) 10#32 false
      + renderedLength true (cstr l.fmt).bytes (l.args.map LogArg.arg) false + 7 < 0x400
    omega

theorem Prints.readable (h : Prints l t) : Readable (sites.call l) := by
  refine ⟨sites.file_colon l.fmt, ?_⟩
  rw [h.printedText sites, cut_of_nonzero h.nonzero]
  exact h.oneLine

theorem Prints.messages (h : Prints l t) : Print.messages .debug (sites.call l)
    = [⟨l.level, (sites.file l.fmt).bytes, sites.line l.fmt, t⟩] := by
  have hshown : Shown .debug (sites.call l) := Nat.not_lt_zero _
  have hquiet : nestedCalls (sites.call l).fmt.bytes = [] := h.quiet
  rw [Print.messages, if_pos hshown, hquiet, h.printedText sites, message, cut_of_nonzero h.nonzero]
  rfl

end

/-- **what is sent can be read back** as the lines that have been sent -/
theorem lines_read (sites : Sites) {ls : List LogLine} (h : ∀ l ∈ ls, Told l) :
    ((ls.map sites.call).flatMap (messages .debug)).map (fun m => lineOf m.level m.text)
      = ls.map LogLine.low := by
  induction ls with
  | nil => rfl
  | cons l ls ih =>
    obtain ⟨hl, hls⟩ := List.forall_mem_cons.mp h
    obtain ⟨t, hprints, htold⟩ := hl
    rw [List.map_cons, List.flatMap_cons, List.map_append, ih hls, hprints.messages sites,
      List.map_cons, List.map_cons, htold]
    rfl

theorem trail_read (sites : Sites) (depth : ℕ) {es : List Event} (h : ∀ e ∈ es, e.Known) {l : Logger}
    (hl : l.minLevel = .debug) : ∃ l' t,
      logAll (depth + 2) ((Records.stream Event.lines es).map sites.call) l = .ok l' ∧
      l'.serial = l.serial ++ t ∧ readTrail t = some (es.map Event.low) := by
  have htold : ∀ line ∈ Records.stream Event.lines es, Told line := by
    intro line hline
    obtain ⟨e, he, hline⟩ := List.mem_flatMap.mp hline
    exact Event.told (h e he) line hline
  have hcalls : ∀ call ∈ (Records.stream Event.lines es).map sites.call,
      WellFormed .debug call ∧ Readable call := by
    intro call hcall
    obtain ⟨line, hline, rfl⟩ := List.mem_map.mp hcall
    obtain ⟨t, hprints, -⟩ := htold line hline
    exact ⟨hprints.wellFormed sites, hprints.readable sites⟩
  obtain ⟨l', t, entries, hrun, hserial, hreads, hentries⟩ := logAll_reads depth _ l
    (fun call hcall => hl ▸ (hcalls call hcall).1) fun call hcall => (hcalls call hcall).2
  refine ⟨l', t, hrun, hserial, ?_⟩
  have hlines : entries.map (fun e => lineOf e.level e.text)
      = (Records.stream Event.lines es).map LogLine.low := by
    rw [← lines_read sites htold, ← hl, ← hentries, List.map_map]
    rfl
  rw [readTrail, hreads, Option.bind_some, hlines, ← stream_low, Records.readAll_iff events_guess]

theorem plain_tripleFault : PlainString "EXIT_REASON_TRIPLE_FAULT" := ⟨by simp [plainChar], by simp⟩

theorem known_event (env : GuestEnv) (v : Vm) (i : GuestInstr) : ∀ e ∈ v.event env i, e.Known := by
  have hfault : Event.tripleFault.Known := fun reason heq =>
    ⟨"EXIT_REASON_TRIPLE_FAULT", (Event.unknown.inj heq).symm, plain_tripleFault⟩
  intro e he
  by_cases hf : e = .tripleFault
  · rw [hf]
    exact hfault
  intro reason heq
  rw [heq] at he hf
  cases i with
  | compute f => exact absurd he List.not_mem_nil
  | hlt => simp [Vm.event] at he
  | _ =>
    simp only [Vm.event] at he
    split_ifs at he
    all_goals first | exact absurd (List.mem_singleton.mp he) hf | simp at he

theorem known_outputs (env : GuestEnv) (v : Vm) (is : List GuestInstr) :
    ∀ e ∈ outputs (Vm.step env) (Vm.event env) v is, e.Known := by
  induction is generalizing v with
  | nil => exact fun e he => absurd he List.not_mem_nil
  | cons i is ih =>
    intro e he
    unfold outputs at he
    rcases List.mem_append.mp he with he | he
    · exact known_event env v i e he
    · cases hstep : Vm.step env v i with
      | none =>
        rw [hstep] at he
        exact absurd he List.not_mem_nil
      | some v' =>
        rw [hstep] at he
        exact ih v' e he

/-- **what a run sends through the serial port can be read back**, as the events of the virtual machine
with the lower halves of their numbers -/
theorem serial_records_run (u : VmxUnit) (env : GuestEnv) (s s₀ : Machine) (sites : Sites)
    (hz : s.mem.ZeroOn (CpuData.epts cpuDataAddress) extendedPagingTablesT.size)
    (hboot : Boots u env.img s s₀) (is : List GuestInstr) (hfair : ∀ i ∈ is, i.Fair env.img) (l : Logger)
    (hl : l.minLevel = .debug) (depth : ℕ) :
    ∃ ls l' t, ((guestRuns env is).run s₀).state.log = s₀.log ++ ls ∧
      logAll (depth + 2) (ls.map sites.call) l = .ok l' ∧ l'.serial = l.serial ++ t ∧
      readTrail t = some ((outputs (Vm.step env) (Vm.event env) (vmOf s₀) is).map Event.low) := by
  obtain ⟨l', t, hrun, hserial, htrail⟩ := trail_read sites depth (known_outputs env (vmOf s₀) is) hl
  exact ⟨_, l', t, log_run hz hboot hfair, hrun, hserial, htrail⟩

/-- every line from line 1 of a file -/
def sampleSites : Sites := ⟨fun _ => printFile, fun _ => 1#32, fun _ => by decide, fun _ => by decide⟩

theorem serial_records_run_sample : ∃ s₀ ls l' t,
    Boots plainUnit sampleImage (bootMachine fun _ => 0#8) s₀ ∧
      ((guestRuns plainEnv sampleGuest).run s₀).state.log = s₀.log ++ ls ∧
      logAll 2 (ls.map sampleSites.call) ⟨.debug, [], []⟩ = .ok l' ∧ l'.serial = [] ++ t ∧
      readTrail t = some ((outputs (Vm.step plainEnv) (Vm.event plainEnv) (vmOf s₀) sampleGuest).map Event.low) := by
  obtain ⟨s₀, hboot⟩ := boots_boot fun _ => 0#8
  obtain ⟨ls, l', t, hlog, hrun, hserial, hread⟩ := serial_records_run plainUnit plainEnv
    (bootMachine fun _ => 0#8) s₀ sampleSites (fun _ _ _ => rfl) hboot sampleGuest sampleGuest_fair
    ⟨.debug, [], []⟩ rfl 0
  exact ⟨s₀, ls, l', t, hboot, hlog, hrun, hserial, hread⟩

end HyperC
