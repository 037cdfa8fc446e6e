import HyperC.Lib.Layout

/-!
# The layout of `cpu_data_t`

The structs of `ept.h`, `syscalls.h` and `vmm.h` with their attributes, and the address of every
member as a function of the address of the struct.  Every address is computed by the C layout rules
of `Lib.Layout`; the `_eq` lemmas give the resulting numbers.

    cpu_data_t           0x0000000  vmxon_region
                         0x0001000  vmcs
                         0x0002000  epts                 (0x806000 bytes)
                         0x0808000  msr_bitmaps
                         0x0809000  guest_cpu_state
    guest_cpu_state_t    0x0000     registers
                         0x1000     stack_top            (0x8000 bytes)
                         0x9000     ssdt
                         0xA000     cpu_data
-/

namespace HyperC
open Layout

def memorySize : ℕ := 4
def tableSize : ℕ := 1 <<< 9
def pageFrameSize : ℕ := 0x1000
def ssdtSize : ℕ := 512
def ssdtAddress : ℕ := 0x1812000
def cpuDataAddress : ℕ := 0x01000000

def byteT : Member := ⟨1, 1⟩
def qwordT : Member := ⟨8, 8⟩

def eptEntryT : BitStruct := ⟨[1, 1, 1, 3, 1, 1, 1, 1, 1, 1, 36, 4, 5, 1, 1, 1, 1, 1, 1, 1], 8⟩
def eptFlagsT : BitStruct := ⟨[1, 1, 1, 3, 1, 1, 1, 1, 1, 1, 36, 4, 5, 1, 1, 1, 1, 1, 1, 1], 8⟩
def eptpT : BitStruct := ⟨[3, 3, 1, 1, 4, 36], 8⟩

def extendedPagingTablesT : CStruct where
  members := [array tableSize ⟨eptEntryT.size, 8⟩, array tableSize ⟨eptEntryT.size, 8⟩,
    array (tableSize * memorySize) ⟨eptEntryT.size, 8⟩,
    array (tableSize * tableSize * memorySize) ⟨eptEntryT.size, 8⟩]
  packed := true
  aligned := 4096

def registersT : CStruct := ⟨List.replicate 17 qwordT, true, 4096⟩

def ssdtT : CStruct := ⟨[array ssdtSize qwordT], true, 4096⟩

def guestCpuStateT : CStruct where
  members := [registersT.member, array (8 * pageFrameSize) byteT, ssdtT.member, qwordT]
  packed := false
  aligned := 1

def cpuDataT : CStruct where
  members := [array pageFrameSize byteT, array pageFrameSize byteT, extendedPagingTablesT.member,
    array pageFrameSize byteT, guestCpuStateT.member]
  packed := false
  aligned := 1

/-! ## addresses of members -/

namespace Epts

def pml4 (epts i : ℕ) : ℕ := epts + extendedPagingTablesT.offset 0 + 8 * i
def pdpt (epts i : ℕ) : ℕ := epts + extendedPagingTablesT.offset 1 + 8 * i
def pds (epts i : ℕ) : ℕ := epts + extendedPagingTablesT.offset 2 + 8 * i
def pts (epts i : ℕ) : ℕ := epts + extendedPagingTablesT.offset 3 + 8 * i

theorem pml4_eq (epts i : ℕ) : pml4 epts i = epts + 8 * i := rfl
theorem pdpt_eq (epts i : ℕ) : pdpt epts i = epts + 0x1000 + 8 * i := rfl
theorem pds_eq (epts i : ℕ) : pds epts i = epts + 0x2000 + 8 * i := rfl
theorem pts_eq (epts i : ℕ) : pts epts i = epts + 0x6000 + 8 * i := rfl
theorem size_eq : extendedPagingTablesT.size = 0x806000 := rfl

end Epts

namespace GuestState

/-- the slot of field `k` of `registers_t` -/
def register (gs k : ℕ) : ℕ := gs + guestCpuStateT.offset 0 + registersT.offset k
def stackTop (gs : ℕ) : ℕ := gs + guestCpuStateT.offset 1
def ssdt (gs : ℕ) : ℕ := gs + guestCpuStateT.offset 2
def cpuData (gs : ℕ) : ℕ := gs + guestCpuStateT.offset 3

theorem stackTop_eq (gs : ℕ) : stackTop gs = gs + 0x1000 := rfl
theorem ssdt_eq (gs : ℕ) : ssdt gs = gs + 0x9000 := rfl
theorem cpuData_eq (gs : ℕ) : cpuData gs = gs + 0xA000 := rfl

end GuestState

def Ssdt.entries (ssdt n : ℕ) : ℕ := ssdt + ssdtT.offset 0 + 8 * n

theorem Ssdt.entries_eq (ssdt n : ℕ) : Ssdt.entries ssdt n = ssdt + 8 * n := rfl

namespace CpuData

def vmxonRegion (p : ℕ) : ℕ := p + cpuDataT.offset 0
def vmcs (p : ℕ) : ℕ := p + cpuDataT.offset 1
def epts (p : ℕ) : ℕ := p + cpuDataT.offset 2
def msrBitmaps (p : ℕ) : ℕ := p + cpuDataT.offset 3
def guestCpuState (p : ℕ) : ℕ := p + cpuDataT.offset 4

theorem vmxonRegion_eq (p : ℕ) : vmxonRegion p = p := rfl
theorem vmcs_eq (p : ℕ) : vmcs p = p + 0x1000 := rfl
theorem msrBitmaps_eq (p : ℕ) : msrBitmaps p = p + 0x808000 := rfl
theorem guestCpuState_eq (p : ℕ) : guestCpuState p = p + 0x809000 := rfl
theorem size_eq : cpuDataT.size = 0x814000 := rfl

end CpuData

/-- the addresses at which the linker places the functions whose addresses the code uses, and the bytes
of the image that the host runs on at an exit: its code, its strings, its variables and the GDT.  The
image starts at `HEADER_START`; from `IA32e_PAGING_BASE` on are the page tables of the boot -/
structure Image where
  kmain : ℕ
  vmexitWrapper : ℕ
  ssdtHook : ℕ
  printACrab : ℕ
  hostBytes : Set ℕ
  ssdtHook_linked : 0x100000 ≤ ssdtHook ∧ ssdtHook < 2 ^ 64
  printACrab_linked : 0x100000 ≤ printACrab ∧ printACrab < 2 ^ 64
  vmexitWrapper_mem : vmexitWrapper ∈ hostBytes
  hostBytes_linked : ∀ x ∈ hostBytes, 0x100000 ≤ x ∧ x < 0x110000

/-- the bytes that the host finds at every exit: those of the image, the page tables behind
`HOST_CR3`, and the two VMX regions of `cpu_data_t` -/
def HostOwn (img : Image) (p x : ℕ) : Prop :=
  x ∈ img.hostBytes ∨ (0x110000 ≤ x ∧ x < 0x116000) ∨
    (CpuData.vmxonRegion p ≤ x ∧ x < CpuData.vmxonRegion p + 2 * pageFrameSize)

end HyperC
