import HyperC.Lib.Fields
import HyperC.Lib.Memory
import HyperC.Lib.Walk

/-!
# The processor's walk of extended page tables

What an EPT entry means to a processor whose physical addresses have 48 bits.  Bits 0, 1, 2 allow
reads, writes and fetches, and an entry with none of them is not present.  A present entry is
misconfigured if it allows writes but no reads, or fetches but no reads where that is not
supported, if a reserved bit is set, or if it maps a page with a reserved memory type.  Reserved
are bits 51:48 everywhere and, above the last level, bits 6:3 of an entry that points to a table,
bit 7 at the top, and the low address bits of a large page.

* `Caps`                what a processor may or may not support;
* `decode`, `format`    one entry, and the whole format for `Lib.Walk`;
* `eptWalk`, `eptPath`  the walk from an EPT pointer, and the entries it visits;
* `decode_table`, `decode_leaf`  clean entries point on or map a page;
* `decode_table_inv`, `decode_page_inv`  and only they do.
-/

namespace Ept
open Bits Walk

/-- the optional features that matter to a walk -/
structure Caps where
  executeOnly : Bool
  pages2MiB : Bool
  pages1GiB : Bool

/-- the rights of a translation and the memory type of its page -/
structure Attrs where
  read : Bool
  write : Bool
  execute : Bool
  memType : BitVec 3
deriving DecidableEq, Inhabited

inductive Fault where
  | notPresent
  | misconfigured
deriving DecidableEq

def writeBack : BitVec 3 := 6

def present (e : BitVec 64) : Bool := e.getLsbD 0 || e.getLsbD 1 || e.getLsbD 2

/-- bit 7 of an entry above the last level -/
def large (e : BitVec 64) : Bool := e.getLsbD 7

def isPage : ℕ → BitVec 64 → Bool
  | 0, _ => true
  | 1, e => large e
  | 2, e => large e
  | _, _ => false

/-- the reserved bits that depend on the level -/
def reservedAt (caps : Caps) : ℕ → BitVec 64 → Bool
  | 0, _ => false
  | 1, e => if large e then field 12 9 e != 0 || !caps.pages2MiB else field 3 4 e != 0
  | 2, e => if large e then field 12 18 e != 0 || !caps.pages1GiB else field 3 4 e != 0
  | _, e => large e || field 3 4 e != 0

def reserved (caps : Caps) (level : ℕ) (e : BitVec 64) : Bool :=
  field 48 4 e != 0 || reservedAt caps level e

def badMemType (e : BitVec 64) : Bool :=
  field 3 3 e == 2 || field 3 3 e == 3 || field 3 3 e == 7

def misconfigured (caps : Caps) (level : ℕ) (e : BitVec 64) : Bool :=
  (!e.getLsbD 0 && e.getLsbD 1) || (!e.getLsbD 0 && e.getLsbD 2 && !caps.executeOnly)
    || reserved caps level e || (isPage level e && badMemType e)

def attrs (e : BitVec 64) : Attrs := ⟨e.getLsbD 0, e.getLsbD 1, e.getLsbD 2, field 3 3 e⟩

/-- the table or page an entry points to -/
def frame (e : BitVec 64) : ℕ := (field 12 36 e).toNat * 4096

def decode (caps : Caps) (level : ℕ) (e : BitVec 64) : Slot Attrs Fault :=
  if !present e then .stop .notPresent
  else if misconfigured caps level e then .stop .misconfigured
  else if isPage level e then .page (frame e) (attrs e)
  else .table (frame e) (attrs e)

/-- rights are the common ones of all levels, the memory type is the last level's -/
def comb (p q : Attrs) : Attrs :=
  ⟨p.read && q.read, p.write && q.write, p.execute && q.execute, q.memType⟩

def format (caps : Caps) : Format Attrs Fault := ⟨decode caps, comb⟩

/-- the reads of a walk over a memory -/
def reads (m : Mem) : ℕ → Except Fault (BitVec 64) := fun a => .ok (m.load64 a)

def allRights : Attrs := ⟨true, true, true, 0⟩

/-- the translation of `gpa` through the tables of `eptp` -/
def eptWalk (caps : Caps) (m : Mem) (eptp : BitVec 64) (gpa : ℕ) : Result Attrs Fault :=
  walk (format caps) (reads m) (field 3 3 eptp).toNat (frame eptp) allRights gpa

/-- the entries that translation visits -/
def eptPath (caps : Caps) (m : Mem) (eptp : BitVec 64) (gpa : ℕ) : List Visit :=
  path (format caps) (reads m) (field 3 3 eptp).toNat (frame eptp) gpa

/-! ## decoding -/

section
variable {caps : Caps} {level : ℕ} {e : BitVec 64}

theorem decode_not_present (h : present e = false) : decode caps level e = .stop .notPresent := by
  simp [decode, h]

theorem decode_misconfigured (h : present e = true) (hm : misconfigured caps level e = true) :
    decode caps level e = .stop .misconfigured := by
  simp [decode, h, hm]

theorem decode_reserved (h : present e = true) (hr : reserved caps level e = true) :
    decode caps level e = .stop .misconfigured :=
  decode_misconfigured h (by simp [misconfigured, hr])

theorem present_of_read (h0 : e.getLsbD 0 = true) : present e = true := by
  simp only [present, h0, Bool.true_or]

theorem not_misconfigured (h0 : e.getLsbD 0 = true) (hr : reserved caps level e = false)
    (ht : (isPage level e && badMemType e) = false) : misconfigured caps level e = false := by
  simp only [misconfigured, h0, hr, ht, Bool.not_true, Bool.false_and, Bool.or_false]

theorem decode_table (hl : 1 ≤ level) (h0 : e.getLsbD 0 = true) (hr : reserved caps level e = false)
    (h7 : large e = false) : decode caps level e = .table (frame e) (attrs e) := by
  have hp : isPage level e = false := by
    rcases level with _ | _ | _ | _
    · omega
    · exact h7
    · exact h7
    · rfl
  have hm := not_misconfigured h0 hr (by rw [hp, Bool.false_and])
  simp [decode, present_of_read h0, hm, hp]

/-- a readable last-level entry without reserved bits and with a good memory type maps its page -/
theorem decode_leaf (h0 : e.getLsbD 0 = true) (hr : reserved caps 0 e = false)
    (ht : badMemType e = false) : decode caps 0 e = .page (frame e) (attrs e) := by
  have hm := not_misconfigured h0 hr (by rw [ht, Bool.and_false])
  simp [decode, present_of_read h0, hm, isPage]

theorem decode_present (h : present e = true) : decode caps level e ≠ .stop .notPresent := by
  rw [decode, h, if_neg (by simp)]
  split
  · simp
  · split <;> simp

/-- an entry decodes to a table only above the last level, and then it has no reserved bit -/
theorem decode_table_inv {b : ℕ} {q : Attrs} (h : decode caps level e = .table b q) :
    isPage level e = false ∧ reserved caps level e = false ∧ b = frame e := by
  unfold decode at h
  split at h
  · cases h
  · split at h
    · cases h
    · split at h
      · cases h
      · rename_i h1 h2 h3
        cases h
        simp only [misconfigured, Bool.or_eq_true, not_or, Bool.not_eq_true] at h2
        exact ⟨by simpa using h3, h2.1.2, rfl⟩

theorem decode_page_inv {b : ℕ} {q : Attrs} (h : decode caps level e = .page b q) :
    b = frame e ∧ q = attrs e := by
  unfold decode at h
  split at h
  · cases h
  · split at h
    · cases h
    · split at h
      · cases h
        exact ⟨rfl, rfl⟩
      · cases h

theorem frame_mod (e : BitVec 64) : frame e % 4096 = 0 := Nat.mul_mod_left _ _

end

end Ept
