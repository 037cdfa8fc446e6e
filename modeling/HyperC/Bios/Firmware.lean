import HyperC.Bios.RealModeCallback

/-!
# The firmware

The host asks the firmware for the first sector of the disk.  The firmware is a parameter: it is called
in real mode, with room for its own frames on the stack; it leaves the machine in real mode, the stack
where it was and alone all that is not its own, and an extended read of `int 0x13` delivers the sectors
that the packet asks for.

* `Firmware`, `Ready`, `CanRead`, `Documented`   the firmware, the calls it takes, and what it is
                          documented to do;
* `realModeSmile`, `readDisk`   the callbacks;
* `storePacket`, `readDap_storePacket`   the packet, as it is stored and as it is read;
* `realModeSmile_leaves`, `readDisk_reads`   what the callbacks leave alone and deliver;
* `sampleFirmware`        a firmware that pushes the frame of the interrupt.
-/

namespace HyperC.Bios
open Code

def dapAddress : ℕ := 0x500
def driveNumberAddress : ℕ := 0x600
def driveA : BitVec 32 := 0x80#32
def mbrAddress : ℕ := 0x7C00

/-- what `int 0x10` and `int 0x13` make of the machine, and how much of the stack they use -/
structure Firmware where
  int10 : Machine → Machine
  int13 : Machine → Machine
  depth : ℕ
  depth_le : depth ≤ 0x7000

/-- the vectors and the data of the firmware, its part of the first MiB, and the stack below `sp` -/
def Firmware.Owns (fw : Firmware) (s : Machine) (x : ℕ) : Prop :=
  x < 0x500 ∨ (0x80000 ≤ x ∧ x < 0x100000) ∨ (stackPointer s - fw.depth ≤ x ∧ x < stackPointer s)

/-- an address in real mode -/
def segmented (segment offset : BitVec 16) : ℕ := segment.toNat * 16 + offset.toNat

/-- `disk_address_packet_t` -/
structure DiskAddressPacket where
  size : BitVec 8
  unused : BitVec 8
  sectorCount : BitVec 16
  destinationAddr : BitVec 16
  destinationSegment : BitVec 16
  sectorLba : BitVec 64

def DiskAddressPacket.destination (dap : DiskAddressPacket) : ℕ :=
  segmented dap.destinationSegment dap.destinationAddr

/-- the buffer of the packet -/
def DiskAddressPacket.Buffer (dap : DiskAddressPacket) (x : ℕ) : Prop :=
  dap.destination ≤ x ∧ x < dap.destination + 512 * dap.sectorCount.toNat

def readDap (m : Mem) (a : ℕ) : DiskAddressPacket :=
  ⟨m a, m (a + 1), m.load (a + 2) 2, m.load (a + 4) 2, m.load (a + 6) 2, m.load64 (a + 8)⟩

/-- the packet at `ds:si` -/
def packet (s : Machine) : DiskAddressPacket :=
  readDap s.mem (segmented s.cpu.ds ((s.cpu.regs .rsi).extractLsb' 0 16))

def ah (s : Machine) : BitVec 8 := (s.cpu.regs .rax).extractLsb' 8 8
def dl (s : Machine) : BitVec 8 := (s.cpu.regs .rdx).extractLsb' 0 8

/-- how many sectors a drive has, and their bytes -/
structure Disk where
  sectors : BitVec 8 → ℕ
  byte : BitVec 8 → ℕ → ℕ → BitVec 8

/-- a call that leaves the rest of the machine alone -/
structure Firmware.LeavesRest (fw : Firmware) (mine : ℕ → Prop) (s t : Machine) : Prop where
  real : protection t = false
  cs : t.cpu.cs = s.cpu.cs
  ss : t.cpu.ss = s.cpu.ss
  rsp : t.cpu.regs .rsp = s.cpu.regs .rsp
  rbp : t.cpu.regs .rbp = s.cpu.regs .rbp
  mem : ∀ x, ¬ fw.Owns s x → ¬ mine x → t.mem x = s.mem x

/-- the firmware can be called: in real mode, with its frames on the stack -/
structure Firmware.Ready (fw : Firmware) (s : Machine) : Prop where
  real : protection s = false
  ss : s.cpu.ss = 0#16
  room : fw.depth ≤ stackPointer s

/-- an extended read of sectors that the drive has, into a buffer that is not the firmware's own -/
structure Firmware.CanRead (fw : Firmware) (disk : Disk) (s : Machine) : Prop extends fw.Ready s where
  function : ah s = 0x42#8
  size : (packet s).size = 0x10#8
  count : (packet s).sectorCount.toNat ≤ 127
  segment : (packet s).destinationAddr.toNat + 512 * (packet s).sectorCount.toNat ≤ 0x10000
  buffer : ∀ x, (packet s).Buffer x → ¬ fw.Owns s x
  sectors : (packet s).sectorLba.toNat + (packet s).sectorCount.toNat ≤ disk.sectors (dl s)

/-- the functions 0 and 0Eh of `int 0x10`, and the function 42h of `int 0x13` -/
structure Firmware.Documented (fw : Firmware) (disk : Disk) : Prop where
  leaves10 : ∀ s, fw.Ready s → ah s = 0#8 ∨ ah s = 0x0e#8 → fw.LeavesRest (fun _ => False) s (fw.int10 s)
  leaves13 : ∀ s, fw.CanRead disk s → fw.LeavesRest (packet s).Buffer s (fw.int13 s)
  reads : ∀ s, fw.CanRead disk s → ∀ i < (packet s).sectorCount.toNat, ∀ k < 512,
    (fw.int13 s).mem ((packet s).destination + 512 * i + k)
      = disk.byte (dl s) ((packet s).sectorLba.toNat + i) k

/-! ## the callbacks -/

/-- a write of the second byte of a register -/
def putHigh (r : Reg) (b : BitVec 8) (s : Machine) : Machine :=
  putReg r ((s.cpu.regs r &&& ~~~ 0xFF00#64) ||| (b.setWidth 64 <<< 8)) s

def putLow (r : Reg) (b : BitVec 8) (s : Machine) : Machine :=
  putReg r ((s.cpu.regs r &&& ~~~ 0xFF#64) ||| b.setWidth 64) s

def putWord (r : Reg) (w : BitVec 16) (s : Machine) : Machine :=
  putReg r (resize 16 (s.cpu.regs r) (w.setWidth 64)) s

section
variable (fw : Firmware)

def realModeSmile : Callback := fun s =>
  let s := fw.int10 (putWord .rax 0#16 s)
  let s := fw.int10 (putLow .rax 0x3A#8 (putHigh .rax 0x0e#8 s))
  fw.int10 (putLow .rax 0x29#8 (putHigh .rax 0x0e#8 s))

def readDisk : Callback := fun s =>
  let s := putHigh .rax 0x42#8 (putWord .rsi (BitVec.ofNat 16 dapAddress) s)
  fw.int13 (putLow .rdx (s.mem (segmented s.cpu.ds (BitVec.ofNat 16 driveNumberAddress))) s)

end

/-- what `load_mbr` stores, in its order -/
def storePacket (m : Mem) : Mem :=
  let m := @Mem.store m dapAddress 1 0x10#8
  let m := @Mem.store m (dapAddress + 1) 1 0#8
  let m := @Mem.store m (dapAddress + 2) 2 1#16
  let m := @Mem.store m (dapAddress + 4) 2 0x7c00#16
  let m := @Mem.store m (dapAddress + 6) 2 0#16
  let m := m.store64 (dapAddress + 8) 0#64
  @Mem.store m driveNumberAddress 4 driveA

/-! ## parts of registers -/

section
variable {v m x : BitVec 64} {b : BitVec 8} {lo n : ℕ}

/-- the bits that a write replaces -/
theorem extract_written (h : ∀ i < n, m.getLsbD (lo + i) = false) :
    ((v &&& m) ||| x).extractLsb' lo n = x.extractLsb' lo n := by
  apply BitVec.eq_of_getLsbD_eq
  intro i hi
  rw [BitVec.getLsbD_extractLsb', BitVec.getLsbD_extractLsb', BitVec.getLsbD_or, BitVec.getLsbD_and, h i hi,
    Bool.and_false, Bool.false_or]

/-- the bits that it leaves alone -/
theorem extract_kept (h : ∀ i < n, m.getLsbD (lo + i) = true) (hx : ∀ i < n, x.getLsbD (lo + i) = false) :
    ((v &&& m) ||| x).extractLsb' lo n = v.extractLsb' lo n := by
  apply BitVec.eq_of_getLsbD_eq
  intro i hi
  rw [BitVec.getLsbD_extractLsb', BitVec.getLsbD_extractLsb', BitVec.getLsbD_or, BitVec.getLsbD_and, h i hi,
    hx i hi, Bool.and_true, Bool.or_false]

theorem extract_high : ((v &&& ~~~ 0xFF00#64) ||| (b.setWidth 64 <<< 8)).extractLsb' 8 8 = b := by
  rw [extract_written (by decide)]
  apply BitVec.eq_of_getLsbD_eq
  intro i hi
  have h64 : 8 + i < 64 ∧ i < 64 := by omega
  simp [hi, h64]

theorem extract_low : ((v &&& ~~~ 0xFF#64) ||| b.setWidth 64).extractLsb' 0 8 = b := by
  rw [extract_written (by decide)]
  apply BitVec.eq_of_getLsbD_eq
  intro i hi
  simp [hi]
  omega

/-- a write of the first byte leaves the second one alone -/
theorem extract_high_low : ((v &&& ~~~ 0xFF#64) ||| b.setWidth 64).extractLsb' 8 8 = v.extractLsb' 8 8 := by
  refine extract_kept (by decide) fun i _ => ?_
  rw [BitVec.getLsbD_setWidth, BitVec.getLsbD_of_ge b _ (Nat.le_add_right 8 i), Bool.and_false]

theorem extract_word {w : BitVec 16} : (resize 16 v (w.setWidth 64)).extractLsb' 0 16 = w := by
  have hmask : ∀ i < 16, (0xFFFF#64).getLsbD i = true := by decide
  rw [resize, if_pos rfl, extract_written (by decide)]
  apply BitVec.eq_of_getLsbD_eq
  intro i hi
  rw [BitVec.getLsbD_extractLsb', Nat.zero_add, BitVec.getLsbD_and, hmask i hi, Bool.and_true,
    BitVec.getLsbD_setWidth]
  simp [hi]
  omega

/-- the second byte of a word that is zero -/
theorem extract_high_zero : (resize 16 v ((0#16).setWidth 64)).extractLsb' 8 8 = 0#8 := by
  rw [resize, if_pos rfl, extract_written (by decide)]
  rfl

end

/-! ## callbacks that leave the machine alone -/

section
variable {fw : Firmware} {disk : Disk} {mine mine' : ℕ → Prop} {s t u : Machine}

theorem stackPointer_real (h : protection s = false) : stackPointer s = (low 16 (s.cpu.regs .rsp)).toNat := by
  have hbits : stackBits s = 16 := by
    rw [stackBits, codeBits_real h, h]
    rfl
  rw [stackPointer, hbits]

theorem Firmware.LeavesRest.sp (h : fw.LeavesRest mine s t) (hs : protection s = false) :
    stackPointer t = stackPointer s := by
  rw [stackPointer_real h.real, stackPointer_real hs, h.rsp]

theorem Firmware.LeavesRest.owns (h : fw.LeavesRest mine s t) (hs : protection s = false) (x : ℕ) :
    fw.Owns t x ↔ fw.Owns s x := by
  rw [Firmware.Owns, Firmware.Owns, h.sp hs]

theorem Firmware.LeavesRest.ready (h : fw.LeavesRest mine s t) (hs : fw.Ready s) : fw.Ready t where
  real := h.real
  ss := h.ss.trans hs.ss
  room := by
    rw [h.sp hs.real]
    exact hs.room

theorem Firmware.LeavesRest.trans (h₁ : fw.LeavesRest mine s t) (h₂ : fw.LeavesRest mine t u)
    (hs : protection s = false) : fw.LeavesRest mine s u where
  real := h₂.real
  cs := h₂.cs.trans h₁.cs
  ss := h₂.ss.trans h₁.ss
  rsp := h₂.rsp.trans h₁.rsp
  rbp := h₂.rbp.trans h₁.rbp
  mem x hx hmine := by rw [h₂.mem x (fun hown => hx ((h₁.owns hs x).mp hown)) hmine, h₁.mem x hx hmine]

theorem Firmware.LeavesRest.mono (h : fw.LeavesRest mine s t) (hsub : ∀ x, mine x → mine' x) :
    fw.LeavesRest mine' s t :=
  ⟨h.real, h.cs, h.ss, h.rsp, h.rbp, fun x hx hmine => h.mem x hx fun hm => hmine (hsub x hm)⟩

theorem leavesRest_putReg {r : Reg} {v : BitVec 64} (hs : protection s = false) (hsp : .rsp ≠ r)
    (hbp : .rbp ≠ r) : fw.LeavesRest mine s (putReg r v s) where
  real := hs
  cs := rfl
  ss := rfl
  rsp := Function.update_of_ne hsp _ _
  rbp := Function.update_of_ne hbp _ _
  mem _ _ _ := rfl

/-- a character -/
theorem int10_leaves (h : fw.Documented disk) (b : BitVec 8) (hs : fw.Ready s) :
    fw.LeavesRest (fun _ => False) s (fw.int10 (putLow .rax b (putHigh .rax 0x0e#8 s))) := by
  have h₁ : fw.LeavesRest (fun _ => False) s (putHigh .rax 0x0e#8 s) :=
    leavesRest_putReg hs.real (by decide) (by decide)
  have h₂ : fw.LeavesRest (fun _ => False) s (putLow .rax b (putHigh .rax 0x0e#8 s)) :=
    h₁.trans (leavesRest_putReg h₁.real (by decide) (by decide)) hs.real
  have hfunction : ah (putLow .rax b (putHigh .rax 0x0e#8 s)) = 0x0e#8 := by
    simp only [ah, putLow, putHigh, putReg, Function.update_self]
    rw [extract_high_low, extract_high]
  exact h₂.trans (h.leaves10 _ (h₂.ready hs) (.inr hfunction)) hs.real

/-- the smile -/
theorem realModeSmile_leaves (h : fw.Documented disk) (hs : fw.Ready s) :
    fw.LeavesRest (fun _ => False) s (realModeSmile fw s) := by
  have h₀ : fw.LeavesRest (fun _ => False) s (putWord .rax 0#16 s) :=
    leavesRest_putReg hs.real (by decide) (by decide)
  have hmode : ah (putWord .rax 0#16 s) = 0#8 := by
    simp only [ah, putWord, putReg, Function.update_self]
    exact extract_high_zero
  have h₁ := h₀.trans (h.leaves10 _ (h₀.ready hs) (.inl hmode)) hs.real
  have h₂ := h₁.trans (int10_leaves h 0x3A#8 (h₁.ready hs)) hs.real
  exact h₂.trans (int10_leaves h 0x29#8 (h₂.ready hs)) hs.real

end

/-! ## the packet -/

section
variable {m m' : Mem}

theorem readDap_congr {a : ℕ} (h : ∀ x, a ≤ x → x < a + 16 → m' x = m x) : readDap m' a = readDap m a := by
  have hword : ∀ b n, a ≤ b → b + n ≤ a + 16 → m'.load b n = m.load b n := fun b n hlo hhi =>
    Mem.load_congr fun k hk => h _ (by omega) (by omega)
  have hqword : m'.load64 (a + 8) = m.load64 (a + 8) :=
    Mem.load64_congr fun k hk => h _ (by omega) (by omega)
  rw [readDap, readDap, h a (by omega) (by omega), h (a + 1) (by omega) (by omega),
    hword (a + 2) 2 (by omega) (by omega), hword (a + 4) 2 (by omega) (by omega),
    hword (a + 6) 2 (by omega) (by omega), hqword]

theorem readDap_storePacket :
    readDap (storePacket m) dapAddress = ⟨0x10#8, 0#8, 1#16, 0x7c00#16, 0#16, 0#64⟩ := by
  have hsize : storePacket m dapAddress = 0x10#8 := rfl
  have hunused : storePacket m (dapAddress + 1) = 0#8 := rfl
  have hcount : (storePacket m).load (dapAddress + 2) 2 = 1#16 := by
    simp (disch := decide) only [storePacket, Mem.store64, Mem.load_store_disjoint]
    exact Mem.load_store_same _ _ _
  have haddr : (storePacket m).load (dapAddress + 4) 2 = 0x7c00#16 := by
    simp (disch := decide) only [storePacket, Mem.store64, Mem.load_store_disjoint]
    exact Mem.load_store_same _ _ _
  have hsegment : (storePacket m).load (dapAddress + 6) 2 = 0#16 := by
    simp (disch := decide) only [storePacket, Mem.store64, Mem.load_store_disjoint]
    exact Mem.load_store_same _ _ _
  have hlba : (storePacket m).load64 (dapAddress + 8) = 0#64 := by
    unfold storePacket
    exact (Mem.load_store_disjoint _ _ _ _ (by decide)).trans (Mem.load64_store64_same _ _ _)
  rw [readDap, hsize, hunused, hcount, haddr, hsegment, hlba]

theorem driveNumber_storePacket : storePacket m driveNumberAddress = 0x80#8 := rfl

theorem storePacket_outside {x : ℕ} (h : x < 0x500 ∨ (0x510 ≤ x ∧ x < 0x600) ∨ 0x604 ≤ x) :
    storePacket m x = m x := by
  have hdap : dapAddress = 0x500 := rfl
  have hdrive : driveNumberAddress = 0x600 := rfl
  unfold storePacket
  rw [Mem.store_outside _ _ _ _ (by omega), Mem.store64_outside _ _ _ _ (by omega),
    Mem.store_outside _ _ _ _ (by omega), Mem.store_outside _ _ _ _ (by omega),
    Mem.store_outside _ _ _ _ (by omega), Mem.store_outside _ _ _ _ (by omega),
    Mem.store_outside _ _ _ _ (by omega)]

end

section
variable {fw : Firmware} {disk : Disk} {c : Machine}

/-- the state at `int 0x13` -/
def atInt13 (c : Machine) : Machine :=
  putLow .rdx 0x80#8 (putHigh .rax 0x42#8 (putWord .rsi (BitVec.ofNat 16 dapAddress) c))

theorem readDisk_eq (h : c.mem (segmented c.cpu.ds (BitVec.ofNat 16 driveNumberAddress)) = 0x80#8) :
    readDisk fw c = fw.int13 (atInt13 c) := by
  rw [atInt13, ← h]
  rfl

theorem leaves_atInt13 {mine : ℕ → Prop} (hreal : protection c = false) :
    fw.LeavesRest mine c (atInt13 c) := by
  have h₁ : fw.LeavesRest mine c (putWord .rsi (BitVec.ofNat 16 dapAddress) c) :=
    leavesRest_putReg hreal (by decide) (by decide)
  have h₂ : fw.LeavesRest mine c (putHigh .rax 0x42#8 (putWord .rsi (BitVec.ofNat 16 dapAddress) c)) :=
    h₁.trans (leavesRest_putReg h₁.real (by decide) (by decide)) hreal
  exact h₂.trans (leavesRest_putReg h₂.real (by decide) (by decide)) hreal

theorem packet_atInt13 {m : Mem} (hds : c.cpu.ds = 0#16)
    (hmem : ∀ x, 0x500 ≤ x → x < 0x604 → c.mem x = storePacket m x) :
    packet (atInt13 c) = ⟨0x10#8, 0#8, 1#16, 0x7c00#16, 0#16, 0#64⟩ := by
  have hsi : ((atInt13 c).cpu.regs .rsi).extractLsb' 0 16 = BitVec.ofNat 16 dapAddress := by
    simp only [atInt13, putLow, putHigh, putWord, putReg]
    rw [Function.update_of_ne (by decide), Function.update_of_ne (by decide), Function.update_self]
    exact extract_word
  have hend : segmented 0#16 (BitVec.ofNat 16 dapAddress) = dapAddress := rfl
  have hdap : dapAddress = 0x500 := rfl
  rw [packet, hsi]
  show readDap c.mem (segmented c.cpu.ds _) = _
  rw [hds, hend, ← readDap_storePacket (m := m)]
  exact readDap_congr fun x hlo hhi => hmem x (by omega) (by omega)

theorem ah_atInt13 (c : Machine) : ah (atInt13 c) = 0x42#8 := by
  simp only [ah, atInt13, putLow, putHigh, putReg]
  rw [Function.update_of_ne (by decide), Function.update_self]
  exact extract_high

theorem dl_atInt13 (c : Machine) : dl (atInt13 c) = 0x80#8 := by
  simp only [dl, atInt13, putLow, putReg]
  rw [Function.update_self]
  exact extract_low

/-- **`read_disk` reads the first sector** if it finds the packet of `load_mbr` -/
theorem readDisk_reads (h : fw.Documented disk) (hdisk : 0 < disk.sectors 0x80#8) {m : Mem}
    (hready : fw.Ready c) (hds : c.cpu.ds = 0#16) (hsp : stackPointer c ≤ mbrAddress)
    (hmem : ∀ x, 0x500 ≤ x → x < 0x604 → c.mem x = storePacket m x) :
    fw.LeavesRest (fun x => 0x7C00 ≤ x ∧ x < 0x7E00) c (readDisk fw c) ∧
      ∀ k < 512, (readDisk fw c).mem (mbrAddress + k) = disk.byte 0x80#8 0 k := by
  have hdrive : c.mem (segmented c.cpu.ds (BitVec.ofNat 16 driveNumberAddress)) = 0x80#8 := by
    rw [hds]
    exact (hmem _ (by decide) (by decide)).trans driveNumber_storePacket
  have hu : fw.LeavesRest (fun x => 0x7C00 ≤ x ∧ x < 0x7E00) c (atInt13 c) := leaves_atInt13 hready.real
  have hdap := packet_atInt13 hds hmem
  have hbuffer : ∀ x, (packet (atInt13 c)).Buffer x ↔ 0x7C00 ≤ x ∧ x < 0x7E00 := by
    intro x
    rw [hdap]
    exact Iff.rfl
  have hfree : ∀ x, (packet (atInt13 c)).Buffer x → ¬ fw.Owns (atInt13 c) x := by
    intro x hx hown
    have hrange := (hbuffer x).mp hx
    have hown := (hu.owns hready.real x).mp hown
    have hmbr : mbrAddress = 0x7C00 := rfl
    rw [Firmware.Owns] at hown
    omega
  have hcan : fw.CanRead disk (atInt13 c) := by
    refine ⟨hu.ready hready, ah_atInt13 c, ?_, ?_, ?_, hfree, ?_⟩
    · rw [hdap]
    · rw [hdap]
      decide
    · rw [hdap]
      decide
    · rw [hdap, dl_atInt13]
      exact hdisk
  rw [readDisk_eq hdrive]
  refine ⟨hu.trans ((h.leaves13 _ hcan).mono fun x => (hbuffer x).mp) hready.real, fun k hk => ?_⟩
  have hsector := h.reads _ hcan 0 (by rw [hdap]; decide) k hk
  rw [dl_atInt13, hdap] at hsector
  exact hsector

end

/-! ## a firmware -/

instance (dap : DiskAddressPacket) (x : ℕ) : Decidable (dap.Buffer x) :=
  inferInstanceAs (Decidable (_ ∧ _))

/-- every drive holds the numbers of its sectors -/
def sampleDisk : Disk where
  sectors _ := 2 ^ 20
  byte drive lba k := drive + BitVec.ofNat 8 lba + BitVec.ofNat 8 k

/-- what an extended read delivers -/
def delivered (s : Machine) (x : ℕ) : BitVec 8 :=
  let dap := packet s
  sampleDisk.byte (dl s) (dap.sectorLba.toNat + (x - dap.destination) / 512) ((x - dap.destination) % 512)

/-- the frame of an interrupt: the flags, `cs` and `ip` -/
def interruptFrame (s : Machine) : Mem :=
  let sp := stackPointer s
  let m := @Mem.store s.mem (sp - 2) 2 (s.cpu.rflags.setWidth 16)
  let m := @Mem.store m (sp - 4) 2 s.cpu.cs
  @Mem.store m (sp - 6) 2 ((s.cpu.regs .rip).setWidth 16)

/-- a firmware that writes the frame of the interrupt and the buffer -/
def sampleFirmware : Firmware where
  int10 s := { s with mem := interruptFrame s }
  int13 s := { s with mem := fun x => if (packet s).Buffer x then delivered s x else interruptFrame s x }
  depth := 6
  depth_le := by decide

theorem interruptFrame_outside {s : Machine} (hs : sampleFirmware.Ready s) {x : ℕ}
    (hx : ¬ sampleFirmware.Owns s x) : interruptFrame s x = s.mem x := by
  have hroom : 6 ≤ stackPointer s := hs.room
  have hout : ¬ (stackPointer s - 6 ≤ x ∧ x < stackPointer s) := fun hin => hx (.inr (.inr hin))
  simp only [interruptFrame]
  rw [Mem.store_outside _ _ _ _ (by omega), Mem.store_outside _ _ _ _ (by omega),
    Mem.store_outside _ _ _ _ (by omega)]

theorem sampleFirmware_documented : sampleFirmware.Documented sampleDisk where
  leaves10 s hs _ := ⟨hs.real, rfl, rfl, rfl, rfl, fun x hx _ => interruptFrame_outside hs hx⟩
  leaves13 s hs := by
    refine ⟨hs.real, rfl, rfl, rfl, rfl, fun x hx hmine => ?_⟩
    exact (if_neg (c := (packet s).Buffer x) hmine).trans (interruptFrame_outside hs.toReady hx)
  reads s _ i hi k hk := by
    have hbuffer : (packet s).Buffer ((packet s).destination + 512 * i + k) := by
      rw [DiskAddressPacket.Buffer]
      omega
    have hoffset : (packet s).destination + 512 * i + k - (packet s).destination = 512 * i + k := by omega
    refine (if_pos (c := (packet s).Buffer _) hbuffer).trans ?_
    rw [delivered, hoffset]
    exact congrArg₂ _ (by omega) (by omega)

end HyperC.Bios
