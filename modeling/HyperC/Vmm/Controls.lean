import HyperC.Lib.Masks
import HyperC.Run.Exit
import HyperC.Vmm.ConfigureVmcs

/-!
# The control words of `configure_vmcs`

`get_default_bits` takes the common bits of the two halves of a capability MSR, and the features are
asked for afterwards.

* `Control`, `controls`   the five words, with their MSRs and what is asked of each;
* `defaultBits_eq`        the two halves come from the MSR that bit 55 of `IA32_VMX_BASIC` selects;
* `control_words`         under nested capabilities the words are the architectural ones;
* `pin_check_iff`         the check of the pin-based word guards nothing: the function gets past it
                          whatever the bits are.
-/

namespace HyperC
open Code Masks

/-- a control word: its field, its capability MSRs and the features that are asked for -/
structure Control where
  field : ℕ
  ctls : BitVec 32
  trueCtls : BitVec 32
  requested : BitVec 32

def controls : List Control :=
  [⟨vmcsPinBasedVmExecControl, msrIa32VmxPinbasedCtls, msrIa32VmxTruePinbasedCtls, 0#32⟩,
    ⟨vmcsCpuBasedVmExecControl, msrIa32VmxProcbasedCtls, msrIa32VmxTrueProcbasedCtls,
      cpuBasedHltExiting ||| cpuBasedActivateMsrBitmap ||| cpuBasedActivateSecondaryControls⟩,
    ⟨vmcsSecondaryVmExecControl, msrIa32VmxProcbasedCtls2, msrIa32VmxProcbasedCtls2,
      cpuBasedCtl2EnableEpt ||| cpuBasedCtl2UnrestrictedGuest⟩,
    ⟨vmcsVmExitControls, msrIa32VmxExitCtls, msrIa32VmxTrueExitCtls, vmExitIa32eMode⟩,
    ⟨vmcsVmEntryControls, msrIa32VmxEntryCtls, msrIa32VmxTrueEntryCtls, vmEntryIa32eMode⟩]

namespace Control

variable (c : Control) (msr : BitVec 32 → BitVec 64)

def capability : BitVec 64 :=
  if (msr msrIa32VmxBasic).getLsbD 55 then msr c.trueCtls else msr c.ctls

def allowed0 : BitVec 32 := (c.capability msr).extractLsb' 0 32
def allowed1 : BitVec 32 := (c.capability msr).extractLsb' 32 32

end Control

/-- the word `w` is the architectural adjustment of the request `r` -/
structure Adjusted (allowed0 allowed1 r w : BitVec 32) : Prop where
  formula : w = (r ||| allowed0) &&& allowed1
  mustBeOne : SubMask allowed0 w
  mayBeOne : SubMask w allowed1
  requested : SubMask r w
  only : SubMask w (r ||| allowed0)

/-! ## the default bits -/

theorem bitN_ne_zero (v : BitVec 64) {n : ℕ} (hn : n < 64) : bitN v n ≠ 0#64 ↔ v.getLsbD n = true := by
  have hbit : ∀ i, (bitN v n).getLsbD i = (v.getLsbD (n + i) && decide (i = 0)) := by
    intro i
    rw [bitN, BitVec.getLsbD_ushiftRight, BitVec.getLsbD_and, BitVec.getLsbD_shiftLeft]
    by_cases h : i = 0
    · simp [h, hn]
    · have hi : ¬ n + i - n = 0 := by omega
      simp [h]
  constructor
  · intro h
    by_contra hv
    refine h (BitVec.eq_of_getLsbD_eq fun i _ => ?_)
    rw [hbit, BitVec.getLsbD_zero]
    by_cases h0 : i = 0
    · subst h0
      simpa using hv
    · simp [h0]
  · intro hv h
    have h0 := hbit 0
    rw [h, BitVec.getLsbD_zero] at h0
    simp [hv] at h0

/-- **the default bits are the common bits of the two halves** -/
theorem defaultBits_eq (c : Control) (msr : BitVec 32 → BitVec 64) :
    defaultBits msr c.ctls c.trueCtls = c.allowed0 msr &&& c.allowed1 msr := by
  have hlow : ∀ v : BitVec 64, (v &&& 0xffffffff#64).setWidth 32 = v.extractLsb' 0 32 := by
    intro v
    apply BitVec.eq_of_getLsbD_eq
    intro i hi
    rw [BitVec.getLsbD_setWidth, Bits.getLsbD_low32, BitVec.getLsbD_extractLsb', Nat.zero_add]
    simp only [hi, decide_true, Bool.true_and, Bool.and_true]
  have hhigh : ∀ v : BitVec 64, (v >>> 32).setWidth 32 = v.extractLsb' 32 32 := by
    intro v
    apply BitVec.eq_of_getLsbD_eq
    intro i hi
    simp [hi]
  have hsel : (if bitN (msr msrIa32VmxBasic) 55 ≠ 0#64 then msr c.trueCtls else msr c.ctls)
      = c.capability msr := by
    simp only [bitN_ne_zero _ (show 55 < 64 by omega)]
    rfl
  unfold defaultBits
  simp only [hsel, hlow, hhigh]
  rfl

/-! ## the words -/

section
variable (img : Image) (p : ℕ) {s s' : Machine}

theorem control_field (h : (configureVmcs img p).run s = .ret () s') {c : Control}
    (hc : c ∈ controls) : s'.vmcs c.field
      = (defaultBits s.cpu.msr c.ctls c.trueCtls ||| c.requested).setWidth 64 := by
  have hmem : (c.field, (defaultBits s.cpu.msr c.ctls c.trueCtls ||| c.requested).setWidth 64)
      ∈ controlFields s.cpu := by
    simp only [controls, List.mem_cons, List.not_mem_nil, or_false] at hc
    rcases hc with rfl | rfl | rfl | rfl | rfl <;>
      simp [controlFields, BitVec.or_assoc]
  have hne : c.field ≠ vmcsGuestIdtrLimit := by
    simp only [controls, List.mem_cons, List.not_mem_nil, or_false] at hc
    rcases hc with rfl | rfl | rfl | rfl | rfl <;> decide
  refine configureVmcs_field img p h ?_ hne
  simp only [configuredFields, List.append_assoc]
  exact List.mem_append_left _ hmem

/-- **the control words are the architectural ones**, if the capabilities are nested and permit what
is asked for -/
theorem control_words (img : Image) (p : ℕ) (s : Machine)
    (hnested : ∀ c ∈ controls, SubMask (c.allowed0 s.cpu.msr) (c.allowed1 s.cpu.msr))
    (hpermitted : ∀ c ∈ controls, SubMask c.requested (c.allowed1 s.cpu.msr)) :
    ∃ s', (configureVmcs img p).run s = .ret () s' ∧ ∀ c ∈ controls, ∃ w,
      s'.vmcs c.field = w.setWidth 64 ∧
        Adjusted (c.allowed0 s.cpu.msr) (c.allowed1 s.cpu.msr) c.requested w := by
  obtain ⟨log, hrun⟩ := configureVmcs_run img p s
  refine ⟨_, hrun, fun c hc => ⟨adjust (c.allowed0 s.cpu.msr) (c.allowed1 s.cpu.msr) c.requested, ?_, ?_⟩⟩
  · rw [control_field img p hrun hc, defaultBits_eq, and_or_eq_adjust (hnested c hc) (hpermitted c hc)]
  · have hself : SubMask c.requested c.requested := subMask_iff.mpr fun _ h => h
    exact ⟨rfl, sub_adjust (hnested c hc), adjust_sub, requested_adjust hself (hpermitted c hc),
      adjust_only⟩

/-- a processor with all its controls free, bit 55 of `IA32_VMX_BASIC` set -/
def capableMachine : Machine :=
  { (default : Machine) with cpu := { (default : Cpu) with
      msr := fun msr => if msr = msrIa32VmxBasic then 1#64 <<< 55 else 0xffffffff00000016#64 } }

theorem control_words_capable : ∃ s',
    (configureVmcs sampleImage cpuDataAddress).run capableMachine = .ret () s' ∧
      ∀ c ∈ controls, ∃ w, s'.vmcs c.field = w.setWidth 64 ∧
        Adjusted (c.allowed0 capableMachine.cpu.msr) (c.allowed1 capableMachine.cpu.msr)
          c.requested w :=
  control_words sampleImage cpuDataAddress capableMachine (by decide) (by decide)

/-! ## the check of the pin-based word -/

/-- the bits the assertion names: 1, 2 and 4 -/
def PinBitsSet (d : BitVec 32) : Prop :=
  d.getLsbD 1 = true ∧ d.getLsbD 2 = true ∧ d.getLsbD 4 = true

instance (d : BitVec 32) : Decidable (PinBitsSet d) := inferInstanceAs (Decidable (_ ∧ _))

/-- the pin-based word that `get_default_bits` computes -/
def pinDefaultBits (s : Machine) : BitVec 32 :=
  defaultBits s.cpu.msr msrIa32VmxPinbasedCtls msrIa32VmxTruePinbasedCtls

/-- the check does what it says: with the bits the word is written, without them the host stops -/
structure PinCheckGuards (img : Image) (p : ℕ) (s : Machine) : Prop where
  passes : PinBitsSet (pinDefaultBits s) → ∃ s', (configureVmcs img p).run s = .ret () s' ∧
    s'.vmcs vmcsPinBasedVmExecControl = (pinDefaultBits s).setWidth 64
  panics : ¬ PinBitsSet (pinDefaultBits s) → ∃ s', (configureVmcs img p).run s = .halt s'

/-- **the check holds good exactly where there is nothing to stop** -/
theorem pin_check_iff (img : Image) (p : ℕ) (s : Machine) :
    PinCheckGuards img p s ↔ PinBitsSet (pinDefaultBits s) := by
  obtain ⟨log, hrun⟩ := configureVmcs_run img p s
  constructor
  · intro h
    by_contra hbits
    obtain ⟨s', hhalt⟩ := h.panics hbits
    cases hrun.symm.trans hhalt
  · intro hbits
    refine ⟨fun _ => ⟨_, hrun, ?_⟩, fun h => absurd hbits h⟩
    have hword := control_field img p hrun List.mem_cons_self
    rwa [BitVec.or_zero] at hword

/-- **a processor without the three bits passes the check** -/
theorem pin_check_passes : ¬ ∀ (img : Image) (p : ℕ) (s : Machine), PinCheckGuards img p s := by
  intro h
  obtain ⟨s', hhalt⟩ := (h sampleImage cpuDataAddress default).panics (by decide)
  obtain ⟨log, hrun⟩ := configureVmcs_run sampleImage cpuDataAddress default
  cases hrun.symm.trans hhalt

end

end HyperC
