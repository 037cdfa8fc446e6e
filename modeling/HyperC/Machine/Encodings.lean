import Mathlib.Data.Nat.Notation
import Mathlib.Data.BitVec

/-!
# Encodings: VMCS fields, exit reasons, MSRs, control bits

The constants of `vmcs.h`, `exit_reason.h`, `error_codes.h` and `msr.h` that the code uses.

* `exitReasonString`, `vmInstructionErrorString`   the two tables of names; `none` is an index with
                                                   no entry.
-/

namespace HyperC

/-! ## VMCS fields -/

def vmcsGuestEsSelector : ℕ := 0x0800
def vmcsGuestCsSelector : ℕ := 0x0802
def vmcsGuestSsSelector : ℕ := 0x0804
def vmcsGuestDsSelector : ℕ := 0x0806
def vmcsGuestFsSelector : ℕ := 0x0808
def vmcsGuestGsSelector : ℕ := 0x080a
def vmcsGuestLdtrSelector : ℕ := 0x080c
def vmcsGuestTrSelector : ℕ := 0x080e
def vmcsHostEsSelector : ℕ := 0x0c00
def vmcsHostCsSelector : ℕ := 0x0c02
def vmcsHostSsSelector : ℕ := 0x0c04
def vmcsHostDsSelector : ℕ := 0x0c06
def vmcsHostFsSelector : ℕ := 0x0c08
def vmcsHostGsSelector : ℕ := 0x0c0a
def vmcsHostTrSelector : ℕ := 0x0c0c
def vmcsMsrBitmap : ℕ := 0x2004
def vmcsEptPointer : ℕ := 0x201a
def vmcsGuestPhysicalAddress : ℕ := 0x2400
def vmcsVmcsLinkPointer : ℕ := 0x2800
def vmcsGuestIa32Debugctl : ℕ := 0x2802
def vmcsGuestIa32DebugctlHigh : ℕ := 0x2803
def vmcsPinBasedVmExecControl : ℕ := 0x4000
def vmcsCpuBasedVmExecControl : ℕ := 0x4002
def vmcsVmExitControls : ℕ := 0x400c
def vmcsVmEntryControls : ℕ := 0x4012
def vmcsSecondaryVmExecControl : ℕ := 0x401e
def vmcsVmInstructionError : ℕ := 0x4400
def vmcsVmExitReason : ℕ := 0x4402
def vmcsVmExitInstructionLen : ℕ := 0x440c
def vmcsGuestEsLimit : ℕ := 0x4800
def vmcsGuestCsLimit : ℕ := 0x4802
def vmcsGuestSsLimit : ℕ := 0x4804
def vmcsGuestDsLimit : ℕ := 0x4806
def vmcsGuestFsLimit : ℕ := 0x4808
def vmcsGuestGsLimit : ℕ := 0x480a
def vmcsGuestLdtrLimit : ℕ := 0x480c
def vmcsGuestTrLimit : ℕ := 0x480e
def vmcsGuestGdtrLimit : ℕ := 0x4810
def vmcsGuestIdtrLimit : ℕ := 0x4812
def vmcsGuestEsArBytes : ℕ := 0x4814
def vmcsGuestCsArBytes : ℕ := 0x4816
def vmcsGuestSsArBytes : ℕ := 0x4818
def vmcsGuestDsArBytes : ℕ := 0x481a
def vmcsGuestFsArBytes : ℕ := 0x481c
def vmcsGuestGsArBytes : ℕ := 0x481e
def vmcsGuestLdtrArBytes : ℕ := 0x4820
def vmcsGuestTrArBytes : ℕ := 0x4822
def vmcsGuestInterruptibilityInfo : ℕ := 0x4824
def vmcsGuestActivityState : ℕ := 0x4826
def vmcsGuestSysenterCs : ℕ := 0x482a
def vmcsHostSysenterCs : ℕ := 0x4c00
def vmcsGuestCr0 : ℕ := 0x6800
def vmcsGuestCr3 : ℕ := 0x6802
def vmcsGuestCr4 : ℕ := 0x6804
def vmcsGuestEsBase : ℕ := 0x6806
def vmcsGuestCsBase : ℕ := 0x6808
def vmcsGuestSsBase : ℕ := 0x680a
def vmcsGuestDsBase : ℕ := 0x680c
def vmcsGuestFsBase : ℕ := 0x680e
def vmcsGuestGsBase : ℕ := 0x6810
def vmcsGuestLdtrBase : ℕ := 0x6812
def vmcsGuestTrBase : ℕ := 0x6814
def vmcsGuestGdtrBase : ℕ := 0x6816
def vmcsGuestIdtrBase : ℕ := 0x6818
def vmcsGuestDr7 : ℕ := 0x681a
def vmcsGuestRsp : ℕ := 0x681c
def vmcsGuestRip : ℕ := 0x681e
def vmcsGuestRflags : ℕ := 0x6820
def vmcsGuestSysenterEsp : ℕ := 0x6824
def vmcsGuestSysenterEip : ℕ := 0x6826
def vmcsHostCr0 : ℕ := 0x6c00
def vmcsHostCr3 : ℕ := 0x6c02
def vmcsHostCr4 : ℕ := 0x6c04
def vmcsHostFsBase : ℕ := 0x6c06
def vmcsHostGsBase : ℕ := 0x6c08
def vmcsHostTrBase : ℕ := 0x6c0a
def vmcsHostGdtrBase : ℕ := 0x6c0c
def vmcsHostIdtrBase : ℕ := 0x6c0e
def vmcsHostSysenterEsp : ℕ := 0x6c10
def vmcsHostSysenterEip : ℕ := 0x6c12
def vmcsHostRsp : ℕ := 0x6c14
def vmcsHostRip : ℕ := 0x6c16

/-! ## exit reasons -/

def exitReasonTripleFault : ℕ := 2
def exitReasonHlt : ℕ := 12
def exitReasonVmcall : ℕ := 18
def exitReasonMsrRead : ℕ := 31
def exitReasonMsrWrite : ℕ := 32
def exitReasonEptViolation : ℕ := 48
def exitReasonEptMisconfig : ℕ := 49

def exitReasonStrings : List (ℕ × String) :=
  [(0, "EXIT_REASON_EXCEPTION_NMI"), (1, "EXIT_REASON_EXTERNAL_INTERRUPT"),
    (2, "EXIT_REASON_TRIPLE_FAULT"), (3, "EXIT_REASON_INIT"), (4, "EXIT_REASON_SIPI"),
    (5, "EXIT_REASON_IO_SMI"), (6, "EXIT_REASON_OTHER_SMI"), (7, "EXIT_REASON_PENDING_VIRT_INTR"),
    (8, "EXIT_REASON_PENDING_VIRT_NMI"), (9, "EXIT_REASON_TASK_SWITCH"), (10, "EXIT_REASON_CPUID"),
    (11, "EXIT_REASON_GETSEC"), (12, "EXIT_REASON_HLT"), (13, "EXIT_REASON_INVD"),
    (14, "EXIT_REASON_INVLPG"), (15, "EXIT_REASON_RDPMC"), (16, "EXIT_REASON_RDTSC"),
    (17, "EXIT_REASON_RSM"), (18, "EXIT_REASON_VMCALL"), (19, "EXIT_REASON_VMCLEAR"),
    (20, "EXIT_REASON_VMLAUNCH"), (21, "EXIT_REASON_VMPTRLD"), (22, "EXIT_REASON_VMPTRST"),
    (23, "EXIT_REASON_VMREAD"), (24, "EXIT_REASON_VMRESUME"), (25, "EXIT_REASON_VMWRITE"),
    (26, "EXIT_REASON_VMXOFF"), (27, "EXIT_REASON_VMXON"), (28, "EXIT_REASON_CR_ACCESS"),
    (29, "EXIT_REASON_DR_ACCESS"), (30, "EXIT_REASON_IO_INSTRUCTION"),
    (31, "EXIT_REASON_MSR_READ"), (32, "EXIT_REASON_MSR_WRITE"),
    (33, "EXIT_REASON_INVALID_GUEST_STATE"), (34, "EXIT_REASON_MSR_LOADING"),
    (36, "EXIT_REASON_MWAIT_INSTRUCTION"), (37, "EXIT_REASON_MONITOR_TRAP_FLAG"),
    (39, "EXIT_REASON_MONITOR_INSTRUCTION"), (40, "EXIT_REASON_PAUSE_INSTRUCTION"),
    (41, "EXIT_REASON_MCE_DURING_VMENTRY"), (43, "EXIT_REASON_TPR_BELOW_THRESHOLD"),
    (44, "EXIT_REASON_APIC_ACCESS"), (46, "EXIT_REASON_ACCESS_GDTR_OR_IDTR"),
    (47, "EXIT_REASON_ACCESS_LDTR_OR_TR"), (48, "EXIT_REASON_EPT_VIOLATION"),
    (49, "EXIT_REASON_EPT_MISCONFIG"), (50, "EXIT_REASON_INVEPT"), (51, "EXIT_REASON_RDTSCP"),
    (52, "EXIT_REASON_VMX_PREEMPTION_TIMER_EXPIRED"), (53, "EXIT_REASON_INVVPID"),
    (54, "EXIT_REASON_WBINVD"), (55, "EXIT_REASON_XSETBV"), (56, "EXIT_REASON_APIC_WRITE"),
    (57, "EXIT_REASON_RDRAND"), (58, "EXIT_REASON_INVPCID"), (61, "EXIT_REASON_RDSEED"),
    (62, "EXIT_REASON_PML_FULL"), (63, "EXIT_REASON_XSAVES"), (64, "EXIT_REASON_XRSTORS"),
    (65, "EXIT_REASON_PCOMMIT"), (67, "EXIT_REASON_UMWAIT"), (68, "EXIT_REASON_TPAUSE")]

def exitReasonString (reason : ℕ) : Option String := exitReasonStrings.lookup reason

/-- `exit_reason.basic_exit_reason`, the low 16 bits -/
def basicExitReason (exitReason : BitVec 64) : ℕ := (exitReason.extractLsb' 0 16).toNat

/-! ## errors of VMX instructions -/

/-- `vmx_error_codes_t` -/
inductive VmxErrorCode where
  | vmSuccess | vmFailInvalid | vmFailValid
deriving DecidableEq

def vmInstructionErrorStrings : List String :=
  ["UNDEFINE_VM_INSTRUCTION_ERROR", "VMCALL_EXECUTED_IN_VMX_ROOT_OPERATION",
    "VMCLEAR_WITH_INVALID_PHYSICAL_ADDRESS", "VMCLEAR_WITH_VMXON_POINTER",
    "VMLAUNCH_WITH_NON_CLEAR_VMCS", "VMRESUME_WITH_NON_LAUNCHED_VMCS", "VMRESUME_AFTER_VMXOFF",
    "VMENTRY_WITH_INVALID_CONTROL_FIELDS", "VM_ENTRY_WITH_INVALID_HOST_STATE_FIELDS",
    "VMPTRLD_WITH_INVALID_PHYSICAL_ADDRESS", "VMPTRLD_WITH_VMXON_POINTER",
    "VMPTRLD_WITH_INCORRECT_VMCS_REVISION_IDENTIFIER",
    "VMREAD_OR_VMWRITE_TO_UNSUPPORTED_VMCS_COMPONENT", "VMWRITE_TO_READ_ONLY_VMCS_COMPONENT",
    "VMXON_EXECUTED_IN_VMX_ROOT_OPERATION", "VM_ENTRY_WITH_INVALID_EXECUTIVE_VMCS_POINTER",
    "VM_ENTRY_WITH_NON_LAUNCHED_EXECUTIVE_VMCS",
    "VM_ENTRY_WITH_WXECUTIVE_VMCS_POINTER_NOT_VMXON_POINTER", "VMCALL_WITH_NON_CLEAR_VMCS",
    "VMCALL_WITH_INVALID_VM_EXIT_CONTROL_FIELDS", "VMCALL_WITH_INCORRECT_MSEG_REVISION_IDENTIFIER",
    "VMXOFF_UNSER_DUAL_MONITOR_TREATMENT", "VMCALL_WITH_INVALID_SMM_MONITOR",
    "VM_ENTRY_WITH_INVALID_VM_EXECUTION_CONTROL_FIELDS", "VM_ENTRY_WITH_EVENTS_BLOCKED_BY_MOV_SS",
    "INVALID_OPERAND_TO_INVEPT_OR_IVVPID"]

def vmInstructionErrorString (error : ℕ) : Option String := vmInstructionErrorStrings[error]?

/-! ## MSRs -/

def msrIa32FeatureControl : BitVec 32 := 0x3a#32
def msrIa32SysenterEip : BitVec 32 := 0x176#32
def msrIa32Debugctl : BitVec 32 := 0x1d9#32
def msrIa32VmxBasic : BitVec 32 := 0x480#32
def msrIa32VmxPinbasedCtls : BitVec 32 := 0x481#32
def msrIa32VmxProcbasedCtls : BitVec 32 := 0x482#32
def msrIa32VmxExitCtls : BitVec 32 := 0x483#32
def msrIa32VmxEntryCtls : BitVec 32 := 0x484#32
def msrIa32VmxCr0Fixed0 : BitVec 32 := 0x486#32
def msrIa32VmxCr0Fixed1 : BitVec 32 := 0x487#32
def msrIa32VmxCr4Fixed0 : BitVec 32 := 0x488#32
def msrIa32VmxCr4Fixed1 : BitVec 32 := 0x489#32
def msrIa32VmxProcbasedCtls2 : BitVec 32 := 0x48b#32
def msrIa32VmxTruePinbasedCtls : BitVec 32 := 0x48d#32
def msrIa32VmxTrueProcbasedCtls : BitVec 32 := 0x48e#32
def msrIa32VmxTrueExitCtls : BitVec 32 := 0x48f#32
def msrIa32VmxTrueEntryCtls : BitVec 32 := 0x490#32
def msrIa32Efer : BitVec 32 := 0xc0000080#32
def msrIa32Star : BitVec 32 := 0xc0000081#32
def msrIa32Lstar : BitVec 32 := 0xc0000082#32
def msrIa32Fmask : BitVec 32 := 0xc0000084#32

def msrIa32SysenterCs : BitVec 32 := 0x174#32
def msrIa32SysenterEsp : BitVec 32 := 0x175#32

/-! ## control bits -/

def cpuBasedHltExiting : BitVec 32 := 0x00000080#32
def cpuBasedActivateMsrBitmap : BitVec 32 := 0x10000000#32
def cpuBasedActivateSecondaryControls : BitVec 32 := 0x80000000#32
def cpuBasedCtl2EnableEpt : BitVec 32 := 0x2#32
def cpuBasedCtl2UnrestrictedGuest : BitVec 32 := 0x80#32
def vmExitIa32eMode : BitVec 32 := 0x00000200#32
def vmEntryIa32eMode : BitVec 32 := 0x00000200#32

end HyperC
