import HyperC.Bios.FirmwareCall
import HyperC.Print.LogBuffers
import HyperC.Utils.Memcpy

/-!
# `initialize_bios` and `load_mbr`

The host copies the real-mode code below 1 MiB, has the firmware read the first sector of the disk, and
prints the sector as a string.  That string ends at the first NUL, and nothing else bounds it.

* `Session`, `Frames`     the host with its log, and what its compiled functions leave on the stack;
* `stringAt`              a string in memory;
* `logInfo`               `LOG_INFO`: a text that leaves its buffer overwrites what lies behind it, and
                          the host is lost;
* `initializeBios`, `loadMbr`   the functions;
* `initializeBios_copies`, `loadSector_loads`   the real-mode code is copied and the sector loaded, and
                          all else is the firmware's or the stack's;
* `logMbr_returns_iff`    when the sector can be printed;
* `bios_loads_mbr`        so the two return exactly if it can.
-/

namespace HyperC.Bios
open Code Print

/-- the path of the processor, and the log -/
structure Session where
  path : Path
  log : Logger

/-- what the compiled functions leave in their frames, below `rsp` -/
structure Frames where
  left : Machine → Mem
  outside : ∀ s x, ¬ ((s.cpu.regs .rsp).toNat - hostFrames ≤ x ∧ x < (s.cpu.regs .rsp).toNat) →
    left s x = s.mem x

def onPath (x : Code Path Unit) : Code Session Unit := fun h =>
  match x.run h.path with
  | .ret _ p => .ret () { h with path := p }
  | .halt p => .halt { h with path := p }
  | .leave p => .leave { h with path := p }

/-- the characters up to the first NUL -/
def bytesFrom (m : Mem) : ℕ → ℕ → List Byte
  | 0, _ => []
  | n + 1, a => if m a = 0#8 then [] else m a :: bytesFrom m n (a + 1)

theorem bytesFrom_nonzero (m : Mem) (n a : ℕ) : ∀ c ∈ bytesFrom m n a, c ≠ 0#8 := by
  induction n generalizing a with
  | zero => exact fun c hc => absurd hc List.not_mem_nil
  | succ n ih =>
    intro c hc
    rw [bytesFrom] at hc
    split at hc
    · exact absurd hc List.not_mem_nil
    · next h0 =>
      rcases List.mem_cons.mp hc with rfl | hc
      · exact h0
      · exact ih (a + 1) c hc

/-- the string at the address -/
def stringAt (m : Mem) (a : ℕ) : CString := ⟨bytesFrom m (2 ^ 64 - a) a, bytesFrom_nonzero _ _ _⟩

section
variable (frames : Frames)

/-- `LOG_INFO`.  C does not say where a call ends that leaves its buffers -/
def logInfo (call : Machine → LogCall) : Code Session Unit := fun h =>
  let after : Path := { h.path with machine := { h.path.machine with mem := frames.left h.path.machine } }
  -- the calls are not nested deeper (`logLog_depth`)
  match Print.logLog 2 (call h.path.machine) h.log with
  | .ok l => if Within h.log l then .ret () ⟨after, l⟩ else .leave ⟨after, l⟩
  | .error _ => .leave ⟨after, h.log⟩

namespace RealModeCode
variable (img : RealModeCode)

/-- the line of `initialize_bios` -/
def logCopy : LogCall where
  level := .info
  file := (logMbr ⟨[], by decide⟩).file
  line := 55#32
  fmt := ⟨['c', 'o', 'p', 'y', 'i', 'n', 'g', ' ', 'r', 'e', 'a', 'l', ' ', 'm', 'o', 'd', 'e', ' ', 'c',
    'o', 'd', 'e', ' ', 'f', 'r', 'o', 'm', ' ', '[', '%', 'p', ' ', '-', ' ', '%', 'p', ']', ' ', 't',
    'o', ' ', 't', 'h', 'e', ' ', Char.ofNat 39, 'l', 'o', 'w', ' ', 'm', 'e', 'm', 'o', 'r', 'y',
    Char.ofNat 39, ' ', 'a', 't', ' ', '%', 'x'].map ch, by decide⟩
  args := [.int (BitVec.ofNat 64 img.realModeStart), .int (BitVec.ofNat 64 (img.realModeStart + img.size)),
    .int (BitVec.ofNat 64 realModeBaseAddress)]

/-- `memcpy` of the real-mode code -/
def copyCode (s : Machine) : Machine :=
  { s with mem := (Utils.memcpy (frames.left s) (BitVec.ofNat 64 realModeBaseAddress)
    (BitVec.ofNat 64 img.realModeStart) (BitVec.ofNat 64 img.size)).2.mem }

def initializeBios (fw : Firmware) (smile next : BitVec 64) : Code Session Unit := do
  logInfo frames fun _ => img.logCopy
  onPath do
    instr (img.copyCode frames)
    img.callBack smile next (realModeSmile fw)

/-- `load_mbr` before it logs -/
def loadSector (fw : Firmware) (readDiskAt next : BitVec 64) : Code Path Unit := do
  instr fun s => { s with mem := storePacket s.mem }
  img.callBack readDiskAt next (readDisk fw)

def loadMbr (fw : Firmware) (readDiskAt next : BitVec 64) : Code Session Unit := do
  onPath (img.loadSector fw readDiskAt next)
  logInfo frames fun s => logMbr (stringAt s.mem mbrAddress)

end RealModeCode
end

/-! ## the lines -/

section
variable {m : Mem} {l : Logger}

theorem bytesFrom_length (n : ℕ) {fuel a : ℕ} (h : n ≤ fuel) :
    (bytesFrom m fuel a).length < n ↔ ∃ k < n, m (a + k) = 0#8 := by
  induction n generalizing fuel a with
  | zero => simp
  | succ n ih =>
    obtain ⟨fuel, rfl⟩ : ∃ f, fuel = f + 1 := ⟨fuel - 1, by omega⟩
    rw [bytesFrom]
    by_cases h0 : m a = 0#8
    · rw [if_pos h0]
      exact ⟨fun _ => ⟨0, Nat.succ_pos n, h0⟩, fun _ => Nat.succ_pos n⟩
    · rw [if_neg h0, List.length_cons, Nat.succ_lt_succ_iff, ih (Nat.le_of_succ_le_succ h)]
      constructor
      · rintro ⟨k, hk, hzero⟩
        exact ⟨k + 1, Nat.succ_lt_succ hk, (by rw [← hzero]; congr 1; omega)⟩
      · rintro ⟨k, hk, hzero⟩
        cases k with
        | zero => exact absurd hzero h0
        | succ k => exact ⟨k, Nat.lt_of_succ_lt_succ hk, (by rw [← hzero]; congr 1; omega)⟩

theorem logCopy_matches (img : RealModeCode) : Matches img.logCopy.fmt.bytes img.logCopy.args := by
  iterate 29 refine .literal (by decide) ?_
  refine .directive (.number 16#32 false _ _) ?_
  iterate 3 refine .literal (by decide) ?_
  refine .directive (.number 16#32 false _ _) ?_
  iterate 25 refine .literal (by decide) ?_
  exact .directive (.number 16#32 false _ _) .nil

theorem logCopy_dangling (img : RealModeCode) : dangling img.logCopy.fmt.bytes = false := rfl

theorem logMbr_dangling (mbr : CString) : dangling (logMbr mbr).fmt.bytes = false := rfl

theorem logCopy_fits (img : RealModeCode) : Fits img.logCopy := by
  have hlength : ∀ stops, renderedLength stops img.logCopy.fmt.bytes img.logCopy.args false ≤ 162 := by
    intro stops
    have h₁ := numberLength_le ((BitVec.ofNat 64 img.realModeStart).setWidth 32) 16#32 false
    have h₂ := numberLength_le ((BitVec.ofNat 64 (img.realModeStart + img.size)).setWidth 32) 16#32 false
    have h₃ := numberLength_le ((BitVec.ofNat 64 realModeBaseAddress).setWidth 32) 16#32 false
    show (numberLength _ 16#32 false + ((numberLength _ 16#32 false
      + ((numberLength _ 16#32 false + 0) + 25)) + 3)) + 29 ≤ 162
    omega
  have hline := numberLength_le img.logCopy.line 10#32 false
  have hlevel : (levelString img.logCopy.level).bytes.length = 4 := rfl
  have hfile : img.logCopy.file.bytes.length = 25 := rfl
  refine ⟨(hlength false).trans_lt (by decide), ?_⟩
  have hstops := hlength true
  omega

theorem logMbr_fits_iff (mbr : CString) : Fits (logMbr mbr) ↔ mbr.bytes.length < 251 := by
  have hline := numberLength_le (logMbr mbr).line 10#32 false
  have hlevel : (levelString (logMbr mbr).level).bytes.length = 4 := rfl
  have hfile : (logMbr mbr).file.bytes.length = 25 := rfl
  rw [Fits, logMbr_length, logMbr_length]
  omega

variable {frames : Frames} {call : Machine → LogCall} {p : Path}

/-- the machine behind a line of the log -/
def logged (frames : Frames) (p : Path) : Path :=
  { p with machine := { p.machine with mem := frames.left p.machine } }

variable (frames call p) in
/-- **a line is logged** exactly if it is filtered or fits its buffers -/
theorem logInfo_returns_iff (hmatch : Matches (call p.machine).fmt.bytes (call p.machine).args)
    (hd : dangling (call p.machine).fmt.bytes = false) (q : Path) :
    (∃ l', (logInfo frames call).run ⟨p, l⟩ = .ret () ⟨q, l'⟩) ↔ q = logged frames p ∧
      ((call p.machine).level.toNat < l.minLevel.toNat ∨ Fits (call p.machine)) := by
  have hwithin_iff : (∃ l', Print.logLog 2 (call p.machine) l = .ok l' ∧ Within l l') ↔ _ :=
    ⟨fun ⟨l', hret, hwithin⟩ => fits_of_within hret hwithin, within_of_fits hmatch hd⟩
  rw [← hwithin_iff, run, logInfo]
  dsimp only
  cases hlog : Print.logLog 2 (call p.machine) l with
  | error e => simp
  | ok l' =>
    by_cases hwithin : Within l l'
    · simp only [if_pos hwithin, Outcome.ret.injEq, Session.mk.injEq, true_and, Except.ok.injEq]
      constructor
      · rintro ⟨l'', rfl, rfl⟩
        exact ⟨rfl, l', rfl, hwithin⟩
      · rintro ⟨rfl, -⟩
        exact ⟨l', rfl, rfl⟩
    · simp only [if_neg hwithin, reduceCtorEq, exists_false, false_iff, Except.ok.injEq]
      rintro ⟨-, l'', rfl, h⟩
      exact hwithin h

theorem level_logInfo {q : Path} {l' : Logger} (h : (logInfo frames call).run ⟨p, l⟩ = .ret () ⟨q, l'⟩) :
    l'.minLevel = l.minLevel := by
  rw [run, logInfo] at h
  dsimp only at h
  cases hlog : Print.logLog 2 (call p.machine) l with
  | error e => simp [hlog] at h
  | ok l'' =>
    by_cases hwithin : Within l l''
    · simp only [hlog, if_pos hwithin, Outcome.ret.injEq, Session.mk.injEq, true_and] at h
      rw [← h.2]
      exact hwithin.level
    · simp [hlog, hwithin] at h

theorem run_onPath {x : Code Path Unit} {p' : Path} (h : x.run p = .ret () p') :
    (onPath x).run ⟨p, l⟩ = .ret () ⟨p', l⟩ := by
  show (match x.run p with
    | .ret _ p => _
    | .halt p => _
    | .leave p => _) = _
  rw [h]

end

/-! ## the two functions -/

/-- the bytes below 1 MiB that are the firmware's, the switches' or the disk's, and the stack -/
def Firmware.Touches (fw : Firmware) (s : Machine) (x : ℕ) : Prop :=
  x < 0x510 ∨ (0x600 ≤ x ∧ x < 0x604) ∨ (lowerMemoryStackTop - 10 - fw.depth ≤ x ∧ x < 0x7E00) ∨
    (0x80000 ≤ x ∧ x < 0x100000) ∨
    ((s.cpu.regs .rsp).toNat - hostFrames ≤ x ∧ x < (s.cpu.regs .rsp).toNat) ∨
    (lowerMemoryStackTop - 32 ≤ x ∧ x < lowerMemoryStackTop)

section
variable {fw : Firmware} {disk : Disk} {img : RealModeCode} {s : Machine} {frames : Frames} {l : Logger}

theorem touches_of {c : Machine} (hc : AtCallback s c) {x : ℕ} (hx : ¬ fw.Touches s x) :
    ¬ Traffic s x ∧ ¬ fw.Owns c x := by
  have htop : lowerMemoryStackTop = 0x7BFF := rfl
  have hframes : hostFrames = 0x1000 := rfl
  rw [Firmware.Touches] at hx
  rw [Traffic, Firmware.Owns, hc.sp]
  constructor <;> omega

theorem frames_left {x : ℕ} (hx : ¬ fw.Touches s x) : frames.left s x = s.mem x := by
  rw [Firmware.Touches] at hx
  exact frames.outside s x (by omega)

theorem frames_low (hs : HostCode s) {x : ℕ} (hx : x < 0x100000) : frames.left s x = s.mem x := by
  have habove := hs.above
  exact frames.outside s x (by omega)

/-- the stack lies apart from the code that is copied -/
def StackApart (img : RealModeCode) (s : Machine) : Prop :=
  img.realModeStart + img.size + hostFrames ≤ (s.cpu.regs .rsp).toNat ∨
    (s.cpu.regs .rsp).toNat ≤ img.realModeStart

theorem frames_code (h : StackApart img s) {k : ℕ} (hk : k < img.size) :
    frames.left s (img.realModeStart + k) = s.mem (img.realModeStart + k) := by
  rw [StackApart] at h
  exact frames.outside s _ (by omega)

theorem memcpy_fills (m : Mem) (dst src count : BitVec 64) (hdst : dst.toNat + count.toNat ≤ 2 ^ 64)
    (hsrc : src.toNat + count.toNat ≤ 2 ^ 64)
    (hapart : dst.toNat + count.toNat ≤ src.toNat ∨ src.toNat + count.toNat ≤ dst.toNat)
    (hcount : count.toNat < 2 ^ 31) : Utils.Fills m dst.toNat count.toNat (fun k => m (src.toNat + k))
      (Utils.memcpy m dst src count).2 :=
  (Utils.byteLoop_fills_iff dst count _ m _ hdst (Utils.memcpy_value m dst src count hsrc hapart)).mpr
    hcount

variable (frames) in
/-- **the copy of the real-mode code** -/
theorem copyCode_copies (hstart : 0x100000 ≤ img.realModeStart) (happart : StackApart img s) :
    (∀ k < img.size, (img.copyCode frames s).mem (realModeBaseAddress + k) = s.mem (img.realModeStart + k)) ∧
      ∀ x, x < realModeBaseAddress ∨ realModeBaseAddress + img.size ≤ x →
        (img.copyCode frames s).mem x = frames.left s x := by
  have hsize := img.size_le
  have hbase : realModeBaseAddress = 0x7E00 := rfl
  have hlow := img.start_lt
  have hdst : (BitVec.ofNat 64 realModeBaseAddress).toNat = realModeBaseAddress := by decide
  have hsrc : (BitVec.ofNat 64 img.realModeStart).toNat = img.realModeStart := by
    rw [BitVec.toNat_ofNat]
    omega
  have hcount : (BitVec.ofNat 64 img.size).toNat = img.size := by
    rw [BitVec.toNat_ofNat]
    omega
  have hfills := memcpy_fills (frames.left s) (BitVec.ofNat 64 realModeBaseAddress)
    (BitVec.ofNat 64 img.realModeStart) (BitVec.ofNat 64 img.size) (by omega) (by omega) (by omega)
    (by omega)
  rw [hdst, hcount, hsrc] at hfills
  exact ⟨fun k hk => (hfills.inside k hk).trans (frames_code happart hk), fun x hx => hfills.outside x hx⟩

variable (frames) in
/-- **`initialize_bios` copies the real-mode code** -/
theorem initializeBios_copies (h : fw.Documented disk) (smile next : BitVec 64) (hs : HostCode s)
    (hnext : next.toNat < 2 ^ 32) (hstart : 0x100000 ≤ img.realModeStart) (happart : StackApart img s)
    (hle : img.realModeStart ≤ smile.toNat) (hlt : smile.toNat < img.realModeStart + img.size) : ∃ c t l',
    (img.initializeBios frames fw smile next).run ⟨⟨s, []⟩, l⟩ = .ret () ⟨⟨t, [c]⟩, l'⟩ ∧
      l'.minLevel = l.minLevel ∧ Returned next s t ∧
      (∀ k < img.size, t.mem (realModeBaseAddress + k) = s.mem (img.realModeStart + k)) ∧
      ∀ x, ¬ fw.Touches s x → (x < realModeBaseAddress ∨ realModeBaseAddress + img.size ≤ x) →
        t.mem x = s.mem x := by
  have hsize := img.size_le
  have hbase : realModeBaseAddress = 0x7E00 := rfl
  have hdepth := fw.depth_le
  have htop : lowerMemoryStackTop = 0x7BFF := rfl
  have habove := hs.above
  have hframes : hostFrames = 0x1000 := rfl
  obtain ⟨l', hlog⟩ := (logInfo_returns_iff frames (fun _ => img.logCopy) ⟨s, []⟩ (l := l)
    (logCopy_matches img) (logCopy_dangling img) _).mpr ⟨rfl, .inr (logCopy_fits img)⟩
  -- the machine behind the line, and behind the copy
  let s₁ : Machine := { s with mem := frames.left s }
  obtain ⟨hcopy, hrest⟩ := copyCode_copies frames (s := s₁) hstart happart
  have hs' : HostCode (img.copyCode frames s₁) := ⟨hs.bits, hs.above, hs.rsp_lt, hs.rbp_lt⟩
  obtain ⟨c, t, hrun, hc, hret, hmem⟩ := callBack_runs smile next hs' hnext hle hlt
    (fun x hx => hx.elim) fun c hc => realModeSmile_leaves h hc.ready
  have hkept : ∀ x, ¬ fw.Touches s x → t.mem x = (img.copyCode frames s₁).mem x := by
    intro x hx
    obtain ⟨htraffic, hown⟩ := touches_of (s := img.copyCode frames s₁) hc hx
    rw [hmem x htraffic, (realModeSmile_leaves h hc.ready).mem x hown id, hc.mem x htraffic]
  refine ⟨c, t, l', ?_, level_logInfo hlog, ⟨hret.bits, hret.rip, hret.rsp, hret.rbp⟩, fun k hk => ?_,
    fun x hx hout => ?_⟩
  · unfold RealModeCode.initializeBios
    rw [bind_of_ret hlog]
    refine run_onPath ?_
    rw [run_instr_bind]
    exact hrun
  · rw [hkept _ (by rw [Firmware.Touches]; omega), hcopy k hk]
    exact frames_code happart hk
  · rw [hkept x hx, hrest x hout]
    exact (frames_left (s := s₁) hx).trans (frames_left hx)

/-- **`load_mbr` loads the first sector**, and all else is as before that is not the firmware's -/
theorem loadSector_loads (h : fw.Documented disk) (hdisk : 0 < disk.sectors 0x80#8)
    (readDiskAt next : BitVec 64) (hs : HostCode s) (hnext : next.toNat < 2 ^ 32)
    (hle : img.realModeStart ≤ readDiskAt.toNat)
    (hlt : readDiskAt.toNat < img.realModeStart + img.size) : ∃ c t,
    (img.loadSector fw readDiskAt next).run ⟨s, []⟩ = .ret () ⟨t, [c]⟩ ∧ Returned next s t ∧
      (∀ k < 512, t.mem (mbrAddress + k) = disk.byte 0x80#8 0 k) ∧
      ∀ x, ¬ fw.Touches s x → t.mem x = s.mem x := by
  have htop : lowerMemoryStackTop = 0x7BFF := rfl
  have hmbr : mbrAddress = 0x7C00 := rfl
  have hframes : hostFrames = 0x1000 := rfl
  have habove := hs.above
  unfold RealModeCode.loadSector
  rw [run_instr_bind]
  have hs' : HostCode { s with mem := storePacket s.mem } := ⟨hs.bits, hs.above, hs.rsp_lt, hs.rbp_lt⟩
  have hread : ∀ c, AtCallback { s with mem := storePacket s.mem } c →
      fw.LeavesRest (fun x => 0x7C00 ≤ x ∧ x < 0x7E00) c (readDisk fw c) ∧
        ∀ k < 512, (readDisk fw c).mem (mbrAddress + k) = disk.byte 0x80#8 0 k := by
    intro c hc
    refine readDisk_reads h hdisk (m := s.mem) hc.ready hc.zero.ds ?_ fun x hlo hhi => hc.mem x ?_
    · rw [hc.sp]
      decide
    · rw [Traffic]
      show ¬ (_ ∨ ((s.cpu.regs .rsp).toNat - 16 ≤ x ∧ x < (s.cpu.regs .rsp).toNat))
      omega
  obtain ⟨c, t, hrun, hc, hret, hmem⟩ := callBack_runs readDiskAt next hs' hnext hle hlt
    (fun x hx => ⟨by omega, by omega⟩) fun c hc => (hread c hc).1
  obtain ⟨hrest, hsector⟩ := hread c hc
  refine ⟨c, t, hrun, ⟨hret.bits, hret.rip, hret.rsp, hret.rbp⟩, fun k hk => ?_, fun x hx => ?_⟩
  · rw [hmem _ ?_]
    · exact hsector k hk
    · rw [Traffic]
      show ¬ (_ ∨ ((s.cpu.regs .rsp).toNat - 16 ≤ _ ∧ _ < (s.cpu.regs .rsp).toNat))
      omega
  · obtain ⟨htraffic, hown⟩ := touches_of (s := { s with mem := storePacket s.mem }) hc hx
    rw [Firmware.Touches] at hx
    rw [hmem x htraffic, hrest.mem x hown (by omega), hc.mem x htraffic]
    exact storePacket_outside (by omega)

/-- the sector can be printed: the level filters the line, or it has a NUL near its front -/
def Printable (disk : Disk) (l : Logger) : Prop :=
  LogLevel.info.toNat < l.minLevel.toNat ∨ ∃ k < 251, disk.byte 0x80#8 0 k = 0#8

variable (frames) in
theorem logMbr_returns_iff {p : Path} (hsector : ∀ k < 512, p.machine.mem (mbrAddress + k) = disk.byte 0x80#8 0 k)
    (q : Path) : (∃ l', (logInfo frames fun s => logMbr (stringAt s.mem mbrAddress)).run ⟨p, l⟩ = .ret () ⟨q, l'⟩) ↔
      q = logged frames p ∧ Printable disk l := by
  have hlength : (stringAt p.machine.mem mbrAddress).bytes.length < 251
      ↔ ∃ k < 251, disk.byte 0x80#8 0 k = 0#8 := by
    rw [stringAt, bytesFrom_length 251 (by decide)]
    refine exists_congr fun k => and_congr_right fun hk => ?_
    rw [hsector k (by omega)]
  rw [logInfo_returns_iff frames _ p (logMbr_matches _) (logMbr_dangling _), logMbr_fits_iff, hlength]
  rfl

/-- **the two of them one after the other**: the real-mode code is copied, `initialize_bios` returns, and
`load_mbr` returns, with the sector loaded, exactly if the sector can be printed -/
theorem bios_loads_mbr (fw : Firmware) (disk : Disk) (img : RealModeCode) (frames : Frames) (s : Machine)
    (l : Logger) (smile readDiskAt next next' : BitVec 64) (h : fw.Documented disk)
    (hdisk : 0 < disk.sectors 0x80#8) (hs : HostCode s) (hstart : 0x100000 ≤ img.realModeStart)
    (happart : StackApart img s)
    (hsmile : img.realModeStart ≤ smile.toNat ∧ smile.toNat < img.realModeStart + img.size)
    (hread : img.realModeStart ≤ readDiskAt.toNat ∧ readDiskAt.toNat < img.realModeStart + img.size)
    (hnext : next.toNat < 2 ^ 32) (hnext' : next'.toNat < 2 ^ 32) : ∃ c₁ t₁ l₁,
    (img.initializeBios frames fw smile next).run ⟨⟨s, []⟩, l⟩ = .ret () ⟨⟨t₁, [c₁]⟩, l₁⟩ ∧
      Returned next s t₁ ∧
      ((∃ c₂ t₂ l₂, (img.loadMbr frames fw readDiskAt next').run ⟨⟨t₁, []⟩, l₁⟩
          = .ret () ⟨⟨t₂, [c₂]⟩, l₂⟩ ∧ Returned next' t₁ t₂ ∧
        (∀ k < img.size, t₂.mem (realModeBaseAddress + k) = s.mem (img.realModeStart + k)) ∧
        (∀ k < 512, t₂.mem (mbrAddress + k) = disk.byte 0x80#8 0 k) ∧
        ∀ x, ¬ fw.Touches s x → (x < realModeBaseAddress ∨ realModeBaseAddress + img.size ≤ x) →
          t₂.mem x = s.mem x) ↔ Printable disk l) := by
  have hsize := img.size_le
  have hbase : realModeBaseAddress = 0x7E00 := rfl
  have hmbr : mbrAddress = 0x7C00 := rfl
  have htop : lowerMemoryStackTop = 0x7BFF := rfl
  have hframes : hostFrames = 0x1000 := rfl
  have habove := hs.above
  obtain ⟨c₁, t₁, l₁, hrun₁, hlevel, hret₁, hcopy, hkept₁⟩ :=
    initializeBios_copies frames (l := l) h smile next hs hnext hstart happart hsmile.1 hsmile.2
  obtain ⟨c₂, t₂, hrun₂, hret₂, hsector, hkept₂⟩ :=
    loadSector_loads h hdisk readDiskAt next' (hret₁.hostCode hs) hnext' hread.1 hread.2
  have htouches : ∀ x, fw.Touches t₁ x ↔ fw.Touches s x := by
    intro x
    rw [Firmware.Touches, Firmware.Touches, hret₁.rsp]
  have hrsp : t₂.cpu.regs .rsp = s.cpu.regs .rsp := hret₂.rsp.trans hret₁.rsp
  have hreturns := fun q => logMbr_returns_iff frames (l := l₁) (p := ⟨t₂, [c₂]⟩) hsector q
  have hprintable : Printable disk l₁ ↔ Printable disk l := by rw [Printable, hlevel, Printable]
  have hload : (img.loadMbr frames fw readDiskAt next').run ⟨⟨t₁, []⟩, l₁⟩
      = (logInfo frames fun s => logMbr (stringAt s.mem mbrAddress)).run ⟨⟨t₂, [c₂]⟩, l₁⟩ :=
    bind_of_ret (run_onPath hrun₂) _
  refine ⟨c₁, t₁, l₁, hrun₁, hret₁, ?_⟩
  rw [hload, ← hprintable]
  constructor
  · rintro ⟨c, t, l₂, hrun, -⟩
    exact ((hreturns _).mp ⟨l₂, hrun⟩).2
  · intro hp
    obtain ⟨l₂, hrun⟩ := (hreturns _).mpr ⟨rfl, hp⟩
    have hlow : ∀ x, x < 0x100000 → frames.left t₂ x = t₂.mem x :=
      fun x hx => frames_low (hret₂.hostCode (hret₁.hostCode hs)) hx
    refine ⟨c₂, _, l₂, hrun, ⟨hret₂.bits, hret₂.rip, hret₂.rsp, hret₂.rbp⟩, fun k hk => ?_, fun k hk => ?_,
      fun x hx hout => ?_⟩
    · rw [← hcopy k hk, ← hkept₂ _ (by rw [htouches, Firmware.Touches]; omega)]
      exact hlow _ (by omega)
    · rw [← hsector k hk]
      exact hlow _ (by omega)
    · rw [← hkept₁ x hx hout, ← hkept₂ x (fun hx' => hx ((htouches x).mp hx'))]
      refine frames_left fun hx' : fw.Touches t₂ x => hx ?_
      rw [Firmware.Touches, hrsp] at hx'
      exact hx'

end

/-- functions that clear their frames -/
def sampleFrames : Frames where
  left s x := if (s.cpu.regs .rsp).toNat - hostFrames ≤ x ∧ x < (s.cpu.regs .rsp).toNat then 0#8 else s.mem x
  outside _ _ hx := if_neg hx

/-- the byte 128 of the sector is zero -/
theorem bios_loads_mbr_sample : ∃ c₁ t₁ l₁,
    (sampleCode.initializeBios sampleFrames sampleFirmware 0x101800#64 0x102000#64).run
        ⟨⟨sampleMachine 0x11F000#64, []⟩, ⟨.debug, [], []⟩⟩ = .ret () ⟨⟨t₁, [c₁]⟩, l₁⟩ ∧
      Returned 0x102000#64 (sampleMachine 0x11F000#64) t₁ ∧
      ∃ c₂ t₂ l₂, (sampleCode.loadMbr sampleFrames sampleFirmware 0x101900#64 0x102040#64).run
          ⟨⟨t₁, []⟩, l₁⟩ = .ret () ⟨⟨t₂, [c₂]⟩, l₂⟩ ∧ Returned 0x102040#64 t₁ t₂ ∧
        (∀ k < sampleCode.size, t₂.mem (realModeBaseAddress + k)
          = (sampleMachine 0x11F000#64).mem (sampleCode.realModeStart + k)) ∧
        (∀ k < 512, t₂.mem (mbrAddress + k) = sampleDisk.byte 0x80#8 0 k) ∧
        ∀ x, ¬ sampleFirmware.Touches (sampleMachine 0x11F000#64) x →
          (x < realModeBaseAddress ∨ realModeBaseAddress + sampleCode.size ≤ x) →
          t₂.mem x = (sampleMachine 0x11F000#64).mem x := by
  have hs : HostCode (sampleMachine 0x11F000#64) := by
    have hcalled := sampleMachine_called 0x11F000#64 (by decide)
    exact ⟨hcalled.bits, (by decide : 0x101000 ≤ (0x11F000#64).toNat), hcalled.rsp_lt, hcalled.rbp_lt⟩
  have happart : StackApart sampleCode (sampleMachine 0x11F000#64) :=
    .inl (by decide : 0x101000 + 0x1000 + 0x1000 ≤ (0x11F000#64).toNat)
  obtain ⟨c₁, t₁, l₁, hrun, hret, hload⟩ := bios_loads_mbr sampleFirmware sampleDisk sampleCode sampleFrames
    _ ⟨.debug, [], []⟩ 0x101800#64 0x101900#64 0x102000#64 0x102040#64 sampleFirmware_documented (by decide)
    hs (by decide) happart (by decide) (by decide) (by decide) (by decide)
  exact ⟨c₁, t₁, l₁, hrun, hret, hload.mpr (.inr ⟨128, by decide, by decide⟩)⟩

end HyperC.Bios
