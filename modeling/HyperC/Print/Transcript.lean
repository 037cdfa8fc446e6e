import HyperC.Lib.Records
import HyperC.Print.LogBuffers

/-!
# What comes out of the serial port

A call of `log_log` sends `[LEVEL] file:line: text` and a newline.  No symbol is escaped, so a text
without a newline from a file without a colon can be told from what follows it.

* `Message`, `Entry`     the parts of a message; an entry is one that can be read back;
* `Entry.bytes`, `Entry.guess`, `entries_guess`   the message, and how it is read;
* `nestedCalls`, `scanWith_nested`   the calls the formatter makes, one by one;
* `messages`, `logLog_serial`   what one call of `log_log` sends, its nested calls included;
* `logAll_reads`         so the output of any sequence of calls can be read back.
-/

namespace HyperC.Print
open Records

/-! ## messages -/

/-- the parts of a message -/
structure Message where
  level : LogLevel
  file : List Byte
  line : BitVec 32
  text : List Byte
deriving DecidableEq

/-- a message that can be read back -/
structure Entry extends Message where
  file_ok : ch ':' ∉ toMessage.file
  text_ok : ch '\n' ∉ toMessage.text

def Message.bytes (e : Message) : List Byte :=
  [ch '['] ++ (levelString e.level).bytes ++ [ch ']', ch ' '] ++ e.file ++ [ch ':']
    ++ sprintInteger e.line 10#32 false ++ [ch ':', ch ' '] ++ e.text ++ [ch '\n']

namespace Entry

def bytes (e : Entry) : List Byte := e.toMessage.bytes

def levels : List LogLevel := [.debug, .info, .warn, .error, .fatal]

/-- the entry at the front: its four parts end in a bracket, two colons and a newline -/
def guess (s : List Byte) : Option Entry :=
  let level := field (ch ']') s.tail
  let file := field (ch ':') level.2.tail
  let line := field (ch ':') file.2
  let text := field (ch '\n') line.2.tail
  (levels.find? fun l => (levelString l).bytes = level.1).map fun l =>
    ⟨⟨l, file.1, BitVec.ofInt 32 (readNumber 10#32 line.1), text.1⟩, not_mem_field _ _, not_mem_field _ _⟩

end Entry

theorem find_level (level : LogLevel) :
    Entry.levels.find? (fun l => (levelString l).bytes = (levelString level).bytes) = some level := by
  cases level <;> decide

theorem bracket_level (level : LogLevel) : ch ']' ∉ (levelString level).bytes := by
  cases level <;> decide

theorem colon_number (number : BitVec 32) : ch ':' ∉ sprintInteger number 10#32 false :=
  not_mem_sprintInteger number false (by decide) (by decide) (by decide) (by decide) (by decide)

theorem read_line (number : BitVec 32) :
    BitVec.ofInt 32 (readNumber 10#32 (sprintInteger number 10#32 false)) = number := by
  rw [readNumber_sprintInteger number false (by decide) (by decide)]
  exact BitVec.ofInt_toInt

/-- **a stream of messages gives its first entry away** -/
theorem entries_guess : Guesses Entry.bytes Entry.guess where
  ne_nil e := by simp [Entry.bytes, Message.bytes]
  front e es := by
    have hsplit : e.bytes ++ stream Entry.bytes es = ch '[' :: ((levelString e.level).bytes ++ ch ']' ::
        ch ' ' :: (e.file ++ ch ':' :: (sprintInteger e.line 10#32 false ++ ch ':' :: ch ' ' ::
          (e.text ++ ch '\n' :: stream Entry.bytes es)))) := by
      simp [Entry.bytes, Message.bytes]
    rw [hsplit, Entry.guess]
    simp only [List.tail_cons, field_append _ (bracket_level e.level), field_append _ e.file_ok,
      field_append _ (colon_number e.line), field_append _ e.text_ok, find_level, read_line,
      Option.map_some]

/-- messages that can be read back, read back -/
theorem readAll_messages {ms : List Message} (hfile : ∀ m ∈ ms, ch ':' ∉ m.file)
    (htext : ∀ m ∈ ms, ch '\n' ∉ m.text) : ∃ es, es.map Entry.toMessage = ms ∧
      readAll Entry.bytes Entry.guess (ms.flatMap Message.bytes) = some es := by
  obtain ⟨es, rfl⟩ : ∃ es : List Entry, es.map Entry.toMessage = ms := by
    induction ms with
    | nil => exact ⟨[], rfl⟩
    | cons m ms ih =>
      obtain ⟨es, hes⟩ := ih (fun m hm => hfile m (List.mem_cons_of_mem _ hm))
        fun m hm => htext m (List.mem_cons_of_mem _ hm)
      refine ⟨⟨m, hfile m List.mem_cons_self, htext m List.mem_cons_self⟩ :: es, ?_⟩
      rw [List.map_cons, hes]
  refine ⟨es, rfl, ?_⟩
  rw [readAll_iff entries_guess, List.flatMap_map]
  rfl

/-! ## nested calls -/

/-- the calls the formatter makes -/
def nestedCalls : List Byte → List LogCall
  | [] => []
  | c :: fmt =>
    if c ≠ ch '%' then nestedCalls fmt
    else match fmt with
      | [] => []
      | d :: fmt => (kind d).logCall.toList ++ nestedCalls fmt

section
variable {c d : Byte} {fmt : List Byte} {p : Printer} {l : Logger}

theorem nestedCalls_literal (h : c ≠ ch '%') : nestedCalls (c :: fmt) = nestedCalls fmt := by
  rw [nestedCalls.eq_def]
  exact if_pos h

theorem nestedCalls_directive :
    nestedCalls (ch '%' :: d :: fmt) = (kind d).logCall.toList ++ nestedCalls fmt := by
  rw [nestedCalls.eq_def]
  exact if_neg (by simp)

theorem nestedCalls_kind {call : LogCall} (h : call ∈ nestedCalls fmt) :
    ∃ k, Kind.logCall k = some call := by
  induction fmt using format_induction with
  | nil => exact absurd h List.not_mem_nil
  | literal c fmt hc ih => exact ih (nestedCalls_literal hc ▸ h)
  | dangling =>
    rw [nestedCalls.eq_def] at h
    simp at h
  | directive d fmt ih =>
    rw [nestedCalls_directive] at h
    rcases List.mem_append.mp h with h | h
    · exact ⟨kind d, Option.mem_toList.mp h⟩
    · exact ih h

def plainLogs (calls : List LogCall) (l : Logger) : Logger := calls.foldl (fun l call => plainLog call l) l

/-- **the formatter makes its calls one by one**, and they do not change what it prints -/
theorem scanWith_nested (depth : ℕ) : scanWith (logLog (depth + 1)) fmt p l
    = (trapped (scan fmt p) >>= fun q => .ok (q, plainLogs (nestedCalls fmt) l)) := by
  induction fmt using format_induction generalizing p l with
  | nil => rfl
  | literal c fmt hc ih => rw [scanWith_literal hc, scan_literal hc, nestedCalls_literal hc, ih]
  | dangling =>
    rw [scanWith_dangling, scan_dangling]
    rfl
  | directive d fmt ih =>
    have hcall : callLog (logLog (depth + 1)) (kind d).logCall l
        = .ok (plainLogs (kind d).logCall.toList l) := by
      cases hk : (kind d).logCall with
      | none => rfl
      | some call => exact (nested_returns _ call l hk).1 depth
    rw [scanWith_directive, directiveWith_eq hcall, scan_directive, trapped_bind, nestedCalls_directive]
    cases directive d p with
    | error e => rfl
    | ok q =>
      show scanWith _ fmt q _ = _
      rw [ih, plainLogs, plainLogs, plainLogs, List.foldl_append]
      rfl

end

/-! ## calls -/

/-- the message of a call that has printed this text -/
def message (call : LogCall) (buffer : List Byte) : Message :=
  ⟨call.level, call.file.bytes, call.line, (cut buffer).bytes⟩

/-- the text of a call, which its formatter leaves in `buffer` -/
def printedText (call : LogCall) : List Byte :=
  match text call.fmt call.args with
  | .ok t => t
  | .error _ => []

/-- the level lets the call through -/
def Shown (min : LogLevel) (call : LogCall) : Prop := ¬ call.level.toNat < min.toNat

instance (min : LogLevel) (call : LogCall) : Decidable (Shown min call) :=
  inferInstanceAs (Decidable (¬ _))

/-- what a call sends: the calls of the formatter first -/
def messages (min : LogLevel) (call : LogCall) : List Message :=
  if Shown min call then
    ((nestedCalls call.fmt.bytes).filter fun c => Shown min c).map (fun c => message c c.fmt.bytes)
      ++ [message call (printedText call)]
  else []

section
variable {call : LogCall} {l : Logger} {buffer : List Byte}

theorem cut_messageText : (cut (messageText call buffer)).bytes = messageText call buffer := by
  have hline : ∀ c ∈ sprintInteger call.line 10#32 false, c ≠ 0#8 :=
    sprintInteger_nonzero call.line false (by decide) (by decide)
  refine List.takeWhile_eq_self_iff.mpr fun c hc => bne_iff_ne.mpr ?_
  simp only [messageText, List.mem_append, List.mem_cons, List.not_mem_nil, or_false] at hc
  rcases hc with (((((((rfl | hc) | rfl | rfl) | hc) | rfl) | hc) | rfl | rfl) | hc) | rfl
  · decide
  · exact (levelString call.level).nonzero c hc
  · decide
  · decide
  · exact call.file.nonzero c hc
  · decide
  · exact hline c hc
  · decide
  · decide
  · exact (cut buffer).nonzero c hc
  · decide

theorem serial_printed : (l.printed buffer (messageText call buffer)).serial
    = l.serial ++ (message call buffer).bytes := by
  show l.serial ++ (cut (messageText call buffer)).bytes = _
  rw [cut_messageText]
  rfl

theorem serial_plainLogs (calls : List LogCall) (l : Logger) :
    (plainLogs calls l).minLevel = l.minLevel ∧ (plainLogs calls l).serial = l.serial ++
      ((calls.filter fun c => Shown l.minLevel c).map fun c => message c c.fmt.bytes).flatMap
        Message.bytes := by
  induction calls generalizing l with
  | nil => exact ⟨rfl, (List.append_nil _).symm⟩
  | cons call calls ih =>
    obtain ⟨hmin, hserial⟩ := ih (plainLog call l)
    have hlevel : (plainLog call l).minLevel = l.minLevel := by
      unfold plainLog
      split <;> rfl
    refine ⟨hmin.trans hlevel, ?_⟩
    show (plainLogs calls (plainLog call l)).serial = _
    rw [hserial, hlevel]
    by_cases hshown : Shown l.minLevel call
    · have hplain : plainLog call l = l.printed call.fmt.bytes (messageText call call.fmt.bytes) :=
        if_neg hshown
      rw [hplain, serial_printed, List.filter_cons_of_pos (by simpa using hshown), List.map_cons,
        List.flatMap_cons, List.append_assoc]
    · have hplain : plainLog call l = l := if_pos (not_not.mp hshown)
      rw [hplain, List.filter_cons_of_neg (by simpa using hshown)]

/-- the call is one the C code serves: its arguments are those of the format, which does not end behind
a `%`, and its texts fit their buffers -/
structure WellFormed (min : LogLevel) (call : LogCall) : Prop where
  args : Matches call.fmt.bytes call.args
  ends : dangling call.fmt.bytes = false
  fits : ¬ Shown min call ∨ Fits call

/-- its message can be read back -/
structure Readable (call : LogCall) : Prop where
  file : ch ':' ∉ call.file.bytes
  text : ch '\n' ∉ (cut (printedText call)).bytes

/-- **what one call sends** -/
theorem logLog_serial (depth : ℕ) (h : WellFormed l.minLevel call) : ∃ l',
    logLog (depth + 2) call l = .ok l' ∧ l'.minLevel = l.minLevel ∧
      l'.serial = l.serial ++ (messages l.minLevel call).flatMap Message.bytes := by
  rw [logLog_depth]
  by_cases hshown : Shown l.minLevel call
  · obtain ⟨hbuffer, hmessage⟩ := h.fits.resolve_left (not_not.mpr hshown)
    have hshort : Short call.args := short_of_rendered h.args (u := false) (by omega)
    have hscan := scan_matches (p := ⟨[], call.args, false, []⟩) h.args h.ends
    obtain ⟨p, hp⟩ := hscan.resolve_right fun herr => herr.2 hshort
    have hformat : vsprintf call.fmt call.args = .ok p := hp
    have htext : printedText call = p.str := by
      rw [printedText, text, hformat]
      rfl
    have hprinted := buffer_length hformat
    obtain ⟨hmin, hserial⟩ := serial_plainLogs (nestedCalls call.fmt.bytes) l
    have hret : logLog 2 call l
        = .ok ((plainLogs (nestedCalls call.fmt.bytes) l).printed p.str (messageText call p.str)) := by
      rw [logLog_body hshown (scanWith_nested 0), hformat]
      show trapped (vsprintf messageFormat (messageArgs call p.str) >>= _) = _
      rw [vsprintf_message, if_pos (by omega), if_pos (by rw [hprinted.cut]; omega)]
      rfl
    refine ⟨_, hret, hmin, ?_⟩
    rw [serial_printed, hserial, messages, if_pos hshown, htext, List.flatMap_append, List.append_assoc]
    simp only [List.flatMap_cons, List.flatMap_nil, List.append_nil]
  · refine ⟨l, logLog_filtered (not_not.mp hshown), rfl, ?_⟩
    rw [messages, if_neg hshown]
    exact (List.append_nil _).symm

theorem messages_readable {min : LogLevel} (h : Readable call) {m : Message}
    (hm : m ∈ messages min call) : ch ':' ∉ m.file ∧ ch '\n' ∉ m.text := by
  unfold messages at hm
  split at hm
  · rcases List.mem_append.mp hm with hm | hm
    · obtain ⟨c, hc, rfl⟩ := List.mem_map.mp hm
      obtain ⟨k, hk⟩ := nestedCalls_kind (List.mem_of_mem_filter hc)
      cases k with
      | character =>
        cases hk
        exact ⟨by decide, by decide⟩
      | unknown =>
        cases hk
        exact ⟨by decide, by decide⟩
      | string => cases hk
      | number base unsigned => cases hk
    · rw [List.mem_singleton.mp hm]
      exact ⟨h.file, h.text⟩
  · exact absurd hm List.not_mem_nil

end

/-! ## runs -/

/-- the calls one after the other -/
def logAll (depth : ℕ) : List LogCall → Logger → Except Fault Logger
  | [], l => .ok l
  | call :: calls, l => logLog depth call l >>= logAll depth calls

theorem logAll_serial (depth : ℕ) (calls : List LogCall) (l : Logger)
    (h : ∀ call ∈ calls, WellFormed l.minLevel call) : ∃ l', logAll (depth + 2) calls l = .ok l' ∧
      l'.serial = l.serial ++ (calls.flatMap (messages l.minLevel)).flatMap Message.bytes := by
  induction calls generalizing l with
  | nil => exact ⟨l, rfl, (List.append_nil _).symm⟩
  | cons call calls ih =>
    obtain ⟨hcall, hcalls⟩ := List.forall_mem_cons.mp h
    obtain ⟨l₁, hrun, hmin, hserial₁⟩ := logLog_serial depth hcall
    rw [← hmin] at hcalls
    obtain ⟨l', hruns, hserial⟩ := ih l₁ hcalls
    refine ⟨l', ?_, ?_⟩
    · rw [logAll, hrun]
      exact hruns
    · rw [hserial, hserial₁, hmin, List.flatMap_cons, List.flatMap_append, List.append_assoc]

/-- **what comes out of the serial port can be read back**: the messages of the calls that the level lets
through, in their order, each behind those of the calls that its formatter makes -/
theorem logAll_reads (depth : ℕ) (calls : List LogCall) (l : Logger)
    (h : ∀ call ∈ calls, WellFormed l.minLevel call) (hread : ∀ call ∈ calls, Readable call) :
    ∃ l' t es, logAll (depth + 2) calls l = .ok l' ∧ l'.serial = l.serial ++ t ∧
      readAll Entry.bytes Entry.guess t = some es ∧
      es.map Entry.toMessage = calls.flatMap (messages l.minLevel) := by
  obtain ⟨l', hrun, hserial⟩ := logAll_serial depth calls l h
  have hmessages : ∀ m ∈ calls.flatMap (messages l.minLevel), ch ':' ∉ m.file ∧ ch '\n' ∉ m.text := by
    intro m hm
    obtain ⟨call, hcall, hm⟩ := List.mem_flatMap.mp hm
    exact messages_readable (hread call hcall) hm
  obtain ⟨es, hes, hreads⟩ := readAll_messages (fun m hm => (hmessages m hm).1)
    fun m hm => (hmessages m hm).2
  exact ⟨l', _, es, hrun, hserial, hreads, hes⟩

theorem matches_plain {fmt : List Byte} (h : ch '%' ∉ fmt) : Matches fmt [] := by
  induction fmt with
  | nil => exact .nil
  | cons c fmt ih =>
    exact .literal (fun hc => h (hc ▸ List.mem_cons_self)) (ih fun hfmt => h (List.mem_cons_of_mem c hfmt))

/-- a line below the level, a character, and a line that looks like a message itself -/
def sampleCalls : List LogCall :=
  [⟨.debug, printFile, 5#32, printingCharacter, []⟩, percentC,
    ⟨.error, printFile, -1#32, ⟨[ch '[', ch ']', ch ' ', ch ':'], by decide⟩, []⟩]

theorem logAll_reads_sample : ∃ l' t es, logAll 2 sampleCalls ⟨.info, [], []⟩ = .ok l' ∧
    l'.serial = [] ++ t ∧ readAll Entry.bytes Entry.guess t = some es ∧
      es.map Entry.toMessage = sampleCalls.flatMap (messages .info) := by
  refine logAll_reads 0 sampleCalls ⟨.info, [], []⟩ ?_ ?_
  · intro call hcall
    simp only [sampleCalls, List.mem_cons, List.not_mem_nil, or_false] at hcall
    rcases hcall with rfl | rfl | rfl
    · exact ⟨matches_plain (by decide), by decide, Or.inl (by decide)⟩
    · exact ⟨.directive (.character 65#64 []) .nil, by decide, Or.inr ⟨by decide, by decide⟩⟩
    · exact ⟨matches_plain (by decide), by decide, Or.inr ⟨by decide, by decide⟩⟩
  · intro call hcall
    simp only [sampleCalls, List.mem_cons, List.not_mem_nil, or_false] at hcall
    rcases hcall with rfl | rfl | rfl
    all_goals exact ⟨by decide, by decide⟩

end HyperC.Print
