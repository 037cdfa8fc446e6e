import HyperC.Print.Cursor

/-!
# `log_log` and the formatter

`vsprintf` calls `log_log` at `%c` and at a directive that it does not know, and `log_log` calls
`vsprintf` and `sprintf`.  The formatter takes the logger as a parameter here, and `logLog depth` is
the logger whose calls may be nested `depth` deep.

* `scanWith`, `vsprintfWith`   the formatter over a logger;
* `logLog`                `log_log`, with the level and the serial port that the calls share;
* `Quiet`, `scanWith_quiet`    a format that does not log is formatted as if there were no logger;
* `Within`                what a call does to the shared state: frames that fit their buffers;
* `nested_returns`        the calls that the formatter makes return;
* `scanWith_eq`           so the formatter does what it does without them;
* `logLog_nested`         **the recursion ends**.
-/

namespace HyperC.Print

/-- the parameters of a call of `log_log` -/
structure LogCall where
  level : LogLevel
  file : CString
  line : BitVec 32
  fmt : CString
  args : List VaArg

/-- how many bytes a call stores in `buffer` and in `log_message`, the terminators included -/
structure Frame where
  buffer : ℕ
  logMessage : ℕ
deriving DecidableEq

/-- what the calls share: the level, the bytes sent to the serial port, and the frames of the calls
that have returned -/
structure Logger where
  minLevel : LogLevel
  serial : List Byte
  frames : List Frame

/-- the C code leaves its strings or its arguments, or the calls are nested too deep -/
inductive Fault where
  | trap (t : Trap)
  | deep
deriving DecidableEq

abbrev LogLog := LogCall → Logger → Except Fault Logger

def trapped {α : Type} (x : Except Trap α) : Except Fault α := x.mapError Fault.trap

/-- `__FILE__` -/
def printFile : CString where
  bytes := ['s', 'r', 'c', '/', 'l', 'i', 'b', '/', 'p', 'r', 'i', 'n', 't', '.', 'c'].map ch
  nonzero := by decide

def printingCharacter : CString where
  bytes := ['p', 'r', 'i', 'n', 't', 'i', 'n', 'g', ' ', 'a', ' ', 'c', 'h', 'a', 'r', 'a', 'c', 't',
    'e', 'r'].map ch
  nonzero := by decide

def unknownCharacter : CString where
  bytes := ['u', 'n', 'k', 'n', 'o', 'w', 'n', ' ', 'f', 'o', 'r', 'm', 'a', 't', ' ', 'c', 'h', 'a',
    'r', 'a', 'c', 't', 'e', 'r'].map ch
  nonzero := by decide

/-- the call of `log_log` in a branch of the `switch` -/
def Kind.logCall : Kind → Option LogCall
  | .character => some ⟨.debug, printFile, 81#32, printingCharacter, []⟩
  | .unknown => some ⟨.error, printFile, 129#32, unknownCharacter, []⟩
  | _ => none

def callLog (log : LogLog) : Option LogCall → Logger → Except Fault Logger
  | some call, l => log call l
  | none, l => .ok l

/-- a branch of the `switch`: it logs first -/
def directiveWith (log : LogLog) (d : Byte) (p : Printer) (l : Logger) :
    Except Fault (Printer × Logger) := do
  let l ← callLog log (kind d).logCall l
  let p ← trapped (directive d p)
  return (p, l)

def scanWith (log : LogLog) : List Byte → Printer → Logger → Except Fault (Printer × Logger)
  | [], p, l => .ok (p, l)
  | c :: fmt, p, l =>
    if c ≠ ch '%' then scanWith log fmt (p.write [c]) l
    else match fmt with
      | [] => .error (.trap .pastFormat)
      | d :: fmt => do
        let r ← directiveWith log d p l
        scanWith log fmt r.1 r.2

def vsprintfWith (log : LogLog) (fmt : CString) (args : List VaArg) (l : Logger) :
    Except Fault (Printer × Logger) :=
  scanWith log fmt.bytes ⟨[], args, false, []⟩ l

/-- `level_strings` -/
def levelString : LogLevel → CString
  | .debug => ⟨['D', 'E', 'B', 'U', 'G'].map ch, by decide⟩
  | .info => ⟨['I', 'N', 'F', 'O'].map ch, by decide⟩
  | .warn => ⟨['W', 'A', 'R', 'N'].map ch, by decide⟩
  | .error => ⟨['E', 'R', 'R', 'O', 'R'].map ch, by decide⟩
  | .fatal => ⟨['F', 'A', 'T', 'A', 'L'].map ch, by decide⟩

/-- the format of `log_message` -/
def messageFormat : CString where
  bytes := ['[', '%', 's', ']', ' ', '%', 's', ':', '%', 'd', ':', ' ', '%', 's', '\n'].map ch
  nonzero := by decide

/-- the string at a buffer that holds the text: it ends at the first NUL -/
def cut (t : List Byte) : CString where
  bytes := t.takeWhile (· != 0#8)
  nonzero := fun c hc => by simpa using List.mem_takeWhile_imp hc

/-- the arguments of the `sprintf` of `log_message` -/
def messageArgs (call : LogCall) (buffer : List Byte) : List VaArg :=
  [.str (levelString call.level), .str call.file, .int (call.line.signExtend 64), .str (cut buffer)]

def serialPrint (s : CString) (l : Logger) : Logger := { l with serial := l.serial ++ s.bytes }

/-- `log_log`; the calls that it makes are nested less deep -/
def logLog : ℕ → LogLog
  | 0, _, _ => .error .deep
  | depth + 1, call, l =>
    if call.level.toNat < l.minLevel.toNat then .ok l
    else do
      let (buffer, l) ← vsprintfWith (logLog depth) call.fmt call.args l
      let (message, l) ← vsprintfWith (logLog depth) messageFormat (messageArgs call buffer.str) l
      return serialPrint (cut message.str) { l with
        frames := l.frames ++ [⟨buffer.str.length + 1, message.str.length + 1⟩] }

/-! ## the formatter over a logger -/

section
variable {α β : Type} {log : LogLog} {c d : Byte} {fmt : List Byte} {p q : Printer} {l l' : Logger}

theorem trapped_bind (x : Except Trap α) (f : α → Except Trap β) :
    trapped (x >>= f) = (trapped x >>= fun a => trapped (f a)) := by
  cases x <;> rfl

theorem scanWith_literal (h : c ≠ ch '%') :
    scanWith log (c :: fmt) p l = scanWith log fmt (p.write [c]) l := by
  rw [scanWith.eq_def]
  exact if_pos h

theorem scanWith_directive : scanWith log (ch '%' :: d :: fmt) p l
    = (directiveWith log d p l >>= fun r => scanWith log fmt r.1 r.2) := by
  rw [scanWith.eq_def]
  exact if_neg (by simp)

theorem scanWith_dangling : scanWith log [ch '%'] p l = .error (.trap .pastFormat) := by
  rw [scanWith.eq_def]
  exact if_neg (by simp)

/-- no directive of the format logs -/
def quiet : List Byte → Bool
  | [] => true
  | c :: fmt =>
    if c ≠ ch '%' then quiet fmt
    else match fmt with
      | [] => true
      | d :: fmt => (kind d).logCall.isNone && quiet fmt

theorem quiet_literal (h : c ≠ ch '%') : quiet (c :: fmt) = quiet fmt := by
  rw [quiet.eq_def]
  exact if_pos h

theorem quiet_directive :
    quiet (ch '%' :: d :: fmt) = ((kind d).logCall.isNone && quiet fmt) := by
  rw [quiet.eq_def]
  exact if_neg (by simp)

theorem directiveWith_eq (h : callLog log (kind d).logCall l = .ok l') :
    directiveWith log d p l = (trapped (directive d p) >>= fun q => .ok (q, l')) := by
  rw [directiveWith, h]
  rfl

/-- **a format that does not log** is formatted as if there were no logger -/
theorem scanWith_quiet (h : quiet fmt = true) :
    scanWith log fmt p l = (trapped (scan fmt p) >>= fun q => .ok (q, l)) := by
  induction fmt using format_induction generalizing p with
  | nil => rfl
  | literal c fmt hc ih =>
    rw [scanWith_literal hc, scan_literal hc]
    exact ih (quiet_literal hc ▸ h)
  | dangling =>
    rw [scanWith_dangling, scan_dangling]
    rfl
  | directive d fmt ih =>
    rw [quiet_directive, Bool.and_eq_true, Option.isNone_iff_eq_none] at h
    have hdir : directiveWith log d p l = (trapped (directive d p) >>= fun q => .ok (q, l)) :=
      directiveWith_eq (by rw [h.1, callLog])
    rw [scanWith_directive, scan_directive, hdir, trapped_bind]
    cases directive d p with
    | error e => rfl
    | ok q => exact ih h.2

/-- **if the calls of the formatter return**, it does what it does without them -/
theorem scanWith_eq {R : Logger → Logger → Prop} (refl : ∀ l, R l l)
    (trans : ∀ l₁ l₂ l₃, R l₁ l₂ → R l₂ l₃ → R l₁ l₃)
    (hlog : ∀ k call l, Kind.logCall k = some call → ∃ l', log call l = .ok l' ∧ R l l') :
    ∃ l', R l l' ∧ scanWith log fmt p l = (trapped (scan fmt p) >>= fun q => .ok (q, l')) := by
  induction fmt using format_induction generalizing p l with
  | nil => exact ⟨l, refl l, rfl⟩
  | literal c fmt hc ih =>
    rw [scanWith_literal hc, scan_literal hc]
    exact ih
  | dangling =>
    rw [scanWith_dangling, scan_dangling]
    exact ⟨l, refl l, rfl⟩
  | directive d fmt ih =>
    obtain ⟨l₁, hl₁, hdir⟩ : ∃ l₁, R l l₁ ∧
        directiveWith log d p l = (trapped (directive d p) >>= fun q => .ok (q, l₁)) := by
      cases hcall : (kind d).logCall with
      | none => exact ⟨l, refl l, directiveWith_eq (by rw [hcall, callLog])⟩
      | some call =>
        obtain ⟨l₁, hl₁, hR⟩ := hlog _ _ l hcall
        exact ⟨l₁, hR, directiveWith_eq (by rw [hcall, callLog, hl₁])⟩
    rw [scanWith_directive, scan_directive, hdir, trapped_bind]
    cases directive d p with
    | error e => exact ⟨l₁, hl₁, rfl⟩
    | ok q =>
      obtain ⟨l₂, hl₂, hrest⟩ := ih (p := q) (l := l₁)
      exact ⟨l₂, trans _ _ _ hl₁ hl₂, hrest⟩

/-- the formatter with its calls removed -/
theorem scanWith_removed :
    scanWith (fun _ l => .ok l) fmt p l = (trapped (scan fmt p) >>= fun q => .ok (q, l)) := by
  obtain ⟨l', rfl, h⟩ : ∃ l', l = l' ∧ scanWith (fun _ l => .ok l) fmt p l
      = (trapped (scan fmt p) >>= fun q => .ok (q, l')) :=
    scanWith_eq (fun _ => rfl) (fun _ _ _ => Eq.trans) fun _ _ l _ => ⟨l, rfl, rfl⟩
  exact h

end

/-! ## the message -/

section
variable {call : LogCall} {buffer : List Byte} {l : Logger}

/-- the text of `log_message` -/
def messageText (call : LogCall) (buffer : List Byte) : List Byte :=
  [ch '['] ++ (levelString call.level).bytes ++ [ch ']', ch ' '] ++ call.file.bytes ++ [ch ':']
    ++ sprintInteger call.line 10#32 false ++ [ch ':', ch ' '] ++ (cut buffer).bytes ++ [ch '\n']

theorem levelString_short (level : LogLevel) : (levelString level).bytes.length < 2 ^ 31 := by
  cases level <;> decide

theorem scan_string (s : CString) (fmt t : List Byte) (args : List VaArg) (u : Bool)
    (n : List LogLine) : scan (ch '%' :: ch 's' :: fmt) ⟨t, .str s :: args, u, n⟩
      = if s.bytes.length < 2 ^ 31 then scan fmt ⟨t ++ s.bytes, args, u, n⟩
        else .error .longString := by
  have hprint : directive (ch 's') ⟨t, .str s :: args, u, n⟩ = if s.bytes.length < 2 ^ 31
      then .ok ⟨t ++ s.bytes, args, u, n⟩ else .error .longString := rfl
  rw [scan_directive, hprint]
  by_cases h : s.bytes.length < 2 ^ 31
  · rw [if_pos h, if_pos h]
    rfl
  · rw [if_neg h, if_neg h]
    rfl

theorem scan_decimal (v : BitVec 64) (fmt t : List Byte) (args : List VaArg) (u : Bool)
    (n : List LogLine) : scan (ch '%' :: ch 'd' :: fmt) ⟨t, .int v :: args, u, n⟩
      = scan fmt ⟨t ++ sprintInteger (v.setWidth 32) 10#32 u, args, u, n⟩ := by
  rw [scan_directive]
  rfl

theorem scan_write (fmt : List Byte) {c : Byte} (hc : c ≠ ch '%') (t : List Byte)
    (args : List VaArg) (u : Bool) (n : List LogLine) :
    scan (c :: fmt) ⟨t, args, u, n⟩ = scan fmt ⟨t ++ [c], args, u, n⟩ :=
  scan_literal hc

/-- **`sprintf` of `log_message`** measures the file name and the text -/
theorem vsprintf_message : vsprintf messageFormat (messageArgs call buffer)
    = if call.file.bytes.length < 2 ^ 31 then
        if (cut buffer).bytes.length < 2 ^ 31 then .ok ⟨messageText call buffer, [], false, []⟩
        else .error .longString
      else .error .longString := by
  have hline : (call.line.signExtend 64).setWidth 32 = call.line := by
    apply BitVec.eq_of_getLsbD_eq
    intro i hi
    rw [BitVec.getLsbD_setWidth, BitVec.getLsbD_signExtend]
    simp [hi, show i < 64 by omega]
  show scan (ch '[' :: ch '%' :: ch 's' :: ch ']' :: ch ' ' :: ch '%' :: ch 's' :: ch ':' :: ch '%' ::
    ch 'd' :: ch ':' :: ch ' ' :: ch '%' :: ch 's' :: ch '\n' :: []) ⟨[], [.str _, .str _, .int _,
    .str _], false, []⟩ = _
  rw [scan_write _ (by decide), scan_string, if_pos (levelString_short _), scan_write _ (by decide),
    scan_write _ (by decide), scan_string]
  by_cases hfile : call.file.bytes.length < 2 ^ 31
  · rw [if_pos hfile, if_pos hfile, scan_write _ (by decide), scan_decimal, hline,
      scan_write _ (by decide), scan_write _ (by decide), scan_string]
    by_cases hbuffer : (cut buffer).bytes.length < 2 ^ 31
    · rw [if_pos hbuffer, if_pos hbuffer, scan_write _ (by decide)]
      simp [messageText, scan]
    · rw [if_neg hbuffer, if_neg hbuffer]
  · rw [if_neg hfile, if_neg hfile]

end

/-! ## nested calls -/

/-- the state after a call: its frame, and the message on the serial port -/
def Logger.printed (l : Logger) (buffer message : List Byte) : Logger :=
  serialPrint (cut message)
    { l with frames := l.frames ++ [⟨buffer.length + 1, message.length + 1⟩] }

/-- calls have been made, and each has stayed within its buffers -/
structure Within (l l' : Logger) : Prop where
  level : l'.minLevel = l.minLevel
  frames : ∃ new, l'.frames = l.frames ++ new ∧
    ∀ f ∈ new, f.buffer ≤ 0x100 ∧ f.logMessage ≤ 0x400

instance (l l' : Logger) : Decidable (Within l l') :=
  decidable_of_iff (l'.minLevel = l.minLevel ∧ l.frames = l'.frames.take l.frames.length ∧
      ∀ f ∈ l'.frames.drop l.frames.length, f.buffer ≤ 0x100 ∧ f.logMessage ≤ 0x400) <| by
    constructor
    · rintro ⟨hlevel, htake, hfit⟩
      refine ⟨hlevel, _, ?_, hfit⟩
      nth_rewrite 1 [← List.take_append_drop l.frames.length l'.frames]
      rw [← htake]
    · rintro ⟨hlevel, new, hnew, hfit⟩
      rw [hnew, List.take_left, List.drop_left]
      exact ⟨hlevel, rfl, hfit⟩

theorem Within.refl (l : Logger) : Within l l :=
  ⟨rfl, [], (List.append_nil _).symm, fun _ hf => absurd hf List.not_mem_nil⟩

theorem Within.trans (l₁ l₂ l₃ : Logger) (h₁ : Within l₁ l₂) (h₂ : Within l₂ l₃) :
    Within l₁ l₃ := by
  obtain ⟨new₁, hnew₁, hfit₁⟩ := h₁.frames
  obtain ⟨new₂, hnew₂, hfit₂⟩ := h₂.frames
  refine ⟨h₂.level.trans h₁.level, new₁ ++ new₂, ?_, fun f hf => ?_⟩
  · rw [hnew₂, hnew₁, List.append_assoc]
  · exact (List.mem_append.mp hf).elim (hfit₁ f) (hfit₂ f)

theorem Within.printed {l : Logger} {buffer message : List Byte} (hbuffer : buffer.length < 0x100)
    (hmessage : message.length < 0x400) : Within l (l.printed buffer message) := by
  refine ⟨rfl, _, rfl, fun f hf => ?_⟩
  rw [List.mem_singleton.mp hf]
  exact ⟨hbuffer, hmessage⟩

section
variable {call : LogCall} {l l₁ : Logger} {depth : ℕ} {fmt : List Byte} {p : Printer}

theorem logLog_filtered (h : call.level.toNat < l.minLevel.toNat) :
    logLog (depth + 1) call l = .ok l := by
  rw [logLog, if_pos h]

/-- **a call whose formatter does what it does without the logger** -/
theorem logLog_body (h : ¬ call.level.toNat < l.minLevel.toNat)
    (hfmt : vsprintfWith (logLog depth) call.fmt call.args l
      = (trapped (vsprintf call.fmt call.args) >>= fun buffer => .ok (buffer, l₁))) :
    logLog (depth + 1) call l = trapped (do
      let buffer ← vsprintf call.fmt call.args
      let message ← vsprintf messageFormat (messageArgs call buffer.str)
      return l₁.printed buffer.str message.str) := by
  have hmessage : ∀ args, vsprintfWith (logLog depth) messageFormat args l₁
      = (trapped (vsprintf messageFormat args) >>= fun message => .ok (message, l₁)) :=
    fun args => scanWith_quiet (by decide)
  rw [logLog, if_neg h, hfmt, trapped_bind]
  cases vsprintf call.fmt call.args with
  | error e => rfl
  | ok buffer =>
    show (vsprintfWith (logLog depth) messageFormat (messageArgs call buffer.str) l₁ >>= _)
      = trapped (vsprintf messageFormat (messageArgs call buffer.str) >>= _)
    rw [hmessage, trapped_bind]
    cases vsprintf messageFormat (messageArgs call buffer.str) with
    | error e => rfl
    | ok message => rfl

theorem scan_plain (h : ch '%' ∉ fmt) :
    quiet fmt = true ∧ ∀ p, scan fmt p = .ok (p.write fmt) := by
  induction fmt with
  | nil => exact ⟨rfl, fun p => by simp [scan, Printer.write]⟩
  | cons c fmt ih =>
    have hc : c ≠ ch '%' := fun hc => h (hc ▸ List.mem_cons_self)
    obtain ⟨hquiet, hscan⟩ := ih fun hfmt => h (List.mem_cons_of_mem c hfmt)
    refine ⟨(quiet_literal hc).trans hquiet, fun p => ?_⟩
    rw [scan_literal hc, hscan]
    simp [Printer.write]

/-- what a call without directives does -/
def plainLog (call : LogCall) (l : Logger) : Logger :=
  if call.level.toNat < l.minLevel.toNat then l
  else l.printed call.fmt.bytes (messageText call call.fmt.bytes)

theorem plain_returns (hplain : ch '%' ∉ call.fmt.bytes) (hargs : call.args = [])
    (hfile : call.file.bytes.length < 2 ^ 31) (hcut : (cut call.fmt.bytes).bytes.length < 2 ^ 31) :
    logLog (depth + 1) call l = .ok (plainLog call l) := by
  by_cases h : call.level.toNat < l.minLevel.toNat
  · rw [logLog_filtered h, plainLog, if_pos h]
  · have hbuffer : vsprintf call.fmt call.args = .ok ⟨call.fmt.bytes, [], false, []⟩ := by
      rw [hargs]
      exact (scan_plain hplain).2 _
    have hwith : vsprintfWith (logLog depth) call.fmt call.args l
        = (trapped (vsprintf call.fmt call.args) >>= fun buffer => .ok (buffer, l)) :=
      scanWith_quiet (scan_plain hplain).1
    rw [logLog_body h hwith, hbuffer, plainLog, if_neg h]
    show trapped (vsprintf messageFormat (messageArgs call call.fmt.bytes) >>= _) = _
    rw [vsprintf_message, if_pos hfile, if_pos hcut]
    rfl

theorem plain_within (hfmt : call.fmt.bytes.length < 0x100)
    (hmessage : (messageText call call.fmt.bytes).length < 0x400) : Within l (plainLog call l) := by
  unfold plainLog
  split
  · exact Within.refl l
  · exact Within.printed hfmt hmessage

/-- **the calls of the formatter return**, however deep they are, and stay within their buffers -/
theorem nested_returns (k : Kind) (call : LogCall) (l : Logger) (h : k.logCall = some call) :
    (∀ depth, logLog (depth + 1) call l = .ok (plainLog call l)) ∧ Within l (plainLog call l) := by
  cases k with
  | character =>
    cases h
    exact ⟨fun _ => plain_returns (by decide) rfl (by decide) (by decide),
      plain_within (by decide) (by decide)⟩
  | unknown =>
    cases h
    exact ⟨fun _ => plain_returns (by decide) rfl (by decide) (by decide),
      plain_within (by decide) (by decide)⟩
  | string => cases h
  | number base unsigned => cases h

/-- so the formatter does what it does without them -/
theorem scanWith_logLog (depth : ℕ) (fmt : List Byte) (p : Printer) (l : Logger) : ∃ l', Within l l' ∧
    scanWith (logLog (depth + 1)) fmt p l = (trapped (scan fmt p) >>= fun q => .ok (q, l')) :=
  scanWith_eq Within.refl Within.trans fun k call l h =>
    ⟨_, (nested_returns k call l h).1 depth, (nested_returns k call l h).2⟩

theorem scanWith_congr {log log' : LogLog}
    (h : ∀ k call l, Kind.logCall k = some call → log call l = log' call l) (fmt : List Byte)
    (p : Printer) (l : Logger) : scanWith log fmt p l = scanWith log' fmt p l := by
  induction fmt using format_induction generalizing p l with
  | nil => rfl
  | literal c fmt hc ih => rw [scanWith_literal hc, scanWith_literal hc, ih]
  | dangling => rw [scanWith_dangling, scanWith_dangling]
  | directive d fmt ih =>
    have hdir : directiveWith log d p l = directiveWith log' d p l := by
      unfold directiveWith
      cases hcall : (kind d).logCall with
      | none => rfl
      | some call => rw [callLog, callLog, h _ _ _ hcall]
    rw [scanWith_directive, scanWith_directive, hdir]
    exact congrArg _ (funext fun r => ih r.1 r.2)

/-- **two levels are enough**: more do not change what a call does -/
theorem logLog_depth (depth : ℕ) (call : LogCall) (l : Logger) :
    logLog (depth + 2) call l = logLog 2 call l := by
  have hwith : ∀ fmt args l, vsprintfWith (logLog (depth + 1)) fmt args l
      = vsprintfWith (logLog 1) fmt args l := fun fmt args l =>
    scanWith_congr (fun k call l h => ((nested_returns k call l h).1 depth).trans
      ((nested_returns k call l h).1 0).symm) _ _ _
  rw [logLog, logLog]
  simp only [hwith]

/-- **a call two levels deep**, from the printed text and the printed message -/
theorem logLog_two (call : LogCall) (l : Logger) (h : ¬ call.level.toNat < l.minLevel.toNat) :
    ∃ l₁, Within l l₁ ∧ logLog 2 call l = trapped (do
      let buffer ← vsprintf call.fmt call.args
      let message ← vsprintf messageFormat (messageArgs call buffer.str)
      return l₁.printed buffer.str message.str) := by
  obtain ⟨l₁, hwithin, hfmt⟩ := scanWith_logLog 0 call.fmt.bytes ⟨[], call.args, false, []⟩ l
  exact ⟨l₁, hwithin, logLog_body h hfmt⟩

end

/-! ## the recursion -/

/-- a string that is measured is too long for an `int`: an argument, the file name or the text -/
def Overlong (call : LogCall) : Prop :=
  ¬ Short call.args ∨ 2 ^ 31 ≤ call.file.bytes.length ∨
    ∃ t, text call.fmt call.args = .ok t ∧ 2 ^ 31 ≤ (cut t).bytes.length

/-- the text, and the arguments that are left -/
def outcome (r : Except Fault (Printer × Logger)) : Except Fault (List Byte × List VaArg) :=
  r.map fun r => (r.1.str, r.1.args)

section
variable (call : LogCall) (l : Logger)

theorem logLog_error (h : Matches call.fmt.bytes call.args) (hd : dangling call.fmt.bytes = false)
    {e : Fault} (he : logLog 2 call l = .error e) : e = .trap .longString ∧ Overlong call := by
  by_cases hlevel : call.level.toNat < l.minLevel.toNat
  · rw [logLog_filtered hlevel] at he
    cases he
  · obtain ⟨l₁, -, hcall⟩ := logLog_two call l hlevel
    rw [he] at hcall
    have hscan := scan_matches (p := ⟨[], call.args, false, []⟩) h hd
    rcases hscan with ⟨buffer, hbuffer⟩ | ⟨herr, hlong⟩
    · rw [show vsprintf call.fmt call.args = .ok buffer from hbuffer] at hcall
      have htext : text call.fmt call.args = .ok buffer.str := by
        rw [text, show vsprintf call.fmt call.args = .ok buffer from hbuffer]
        rfl
      change _ = trapped (vsprintf messageFormat (messageArgs call buffer.str) >>= _) at hcall
      rw [vsprintf_message] at hcall
      split at hcall
      · split at hcall
        · cases hcall
        · next hcut =>
          cases hcall
          exact ⟨rfl, Or.inr (Or.inr ⟨buffer.str, htext, Nat.le_of_not_lt hcut⟩)⟩
      · next hfile =>
        cases hcall
        exact ⟨rfl, Or.inr (Or.inl (Nat.le_of_not_lt hfile))⟩
    · rw [show vsprintf call.fmt call.args = .error .longString from herr] at hcall
      cases hcall
      exact ⟨rfl, Or.inl hlong⟩

/-- **the recursion ends and is harmless**: two levels are enough, the only failure is that of
`strlen`, and the formatter prints and takes what it does without its own calls -/
theorem logLog_nested (h : Matches call.fmt.bytes call.args)
    (hd : dangling call.fmt.bytes = false) :
    (∀ depth, 2 ≤ depth → logLog depth call l = logLog 2 call l) ∧
    (∀ e, logLog 2 call l = .error e → e = .trap .longString ∧ Overlong call) ∧
    outcome (vsprintfWith (logLog 1) call.fmt call.args l)
      = outcome (vsprintfWith (fun _ l => .ok l) call.fmt call.args l) := by
  refine ⟨fun depth hdepth => ?_, fun e he => logLog_error call l h hd he, ?_⟩
  · obtain ⟨n, rfl⟩ := Nat.exists_eq_add_of_le' hdepth
    exact logLog_depth n call l
  · obtain ⟨l₁, -, hwith⟩ :=
      scanWith_logLog 0 call.fmt.bytes ⟨[], call.args, false, []⟩ l
    rw [vsprintfWith, vsprintfWith, hwith, scanWith_removed]
    cases scan call.fmt.bytes ⟨[], call.args, false, []⟩ with
    | error e => rfl
    | ok q => rfl

end

/-- `LOG_INFO("%c", 'A')` -/
def percentC : LogCall := ⟨.info, printFile, 1#32, ⟨[ch '%', ch 'c'], by decide⟩, [.int 65#64]⟩

theorem logLog_nested_percentC :
    (∀ depth, 2 ≤ depth →
      logLog depth percentC ⟨.debug, [], []⟩ = logLog 2 percentC ⟨.debug, [], []⟩) ∧
    (∀ e, logLog 2 percentC ⟨.debug, [], []⟩ = .error e →
      e = .trap .longString ∧ Overlong percentC) ∧
    outcome (vsprintfWith (logLog 1) percentC.fmt percentC.args ⟨.debug, [], []⟩)
      = outcome (vsprintfWith (fun _ l => .ok l) percentC.fmt percentC.args ⟨.debug, [], []⟩) :=
  logLog_nested percentC ⟨.debug, [], []⟩ (.directive (.character 65#64 []) .nil) (by decide)

end HyperC.Print
