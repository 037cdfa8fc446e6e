import HyperC.Run.Transparent

/-!
# The arguments of `ssdt_hook`

`ept_misconfig_handler` computes the number of an entry from the page offset of the faulting address,
and fetches the entry at that address itself.

* `EntryArguments`, `HookArguments`   what the arguments should say, and what should be read for them;
* `entryArguments_iff`, `readsTable`   an address at the start of an entry gives that entry;
* `split_memory`      any other one does not: a memory that tells the two places apart;
* `hook_arguments_iff`   so the arguments describe an entry exactly at the starts of entries.
-/

namespace HyperC
open Code

/-- `rdi` in the image `m'` is the number of the entry of the address, `rsi` what the table in `m` has
there -/
structure EntryArguments (gs : ℕ) (gpa : BitVec 64) (m m' : Mem) : Prop where
  number : (m'.load64 (regSlot gs .rdi)).toNat < ssdtSize
  entry : Ssdt.entries (GuestState.ssdt gs) (m'.load64 (regSlot gs .rdi)).toNat ≤ gpa.toNat ∧
    gpa.toNat < Ssdt.entries (GuestState.ssdt gs) ((m'.load64 (regSlot gs .rdi)).toNat + 1)
  handler : m'.load64 (regSlot gs .rsi)
    = m.load64 (Ssdt.entries (GuestState.ssdt gs) (m'.load64 (regSlot gs .rdi)).toNat)

/-- besides the saved image the handler reads the table only: what it leaves in the image is the same
for every memory with that image and table -/
def ReadsTable (img : Image) (gs : ℕ) (gpa : BitVec 64) : Prop :=
  ∀ s t s' t' : Machine, (exitInfo s.vmcs).gpa = gpa → t.vmcs = s.vmcs →
    s.mem.SameOn t.mem gs (gs + registersT.size) →
    s.mem.SameOn t.mem (GuestState.ssdt gs) (GuestState.ssdt gs + ssdtT.size) →
    (eptMisconfigHandler img gs).run s = .ret .handlerSuccess s' →
    (eptMisconfigHandler img gs).run t = .ret .handlerSuccess t' →
    ∀ r, t'.mem.load64 (regSlot gs r) = s'.mem.load64 (regSlot gs r)

/-- the handler at the faulting address `gpa`, whatever the machine -/
structure HookArguments (img : Image) (gs : ℕ) (gpa : BitVec 64) : Prop where
  served : ∀ s : Machine, (exitInfo s.vmcs).gpa = gpa →
    ∃ s', (eptMisconfigHandler img gs).run s = .ret .handlerSuccess s' ∧
      (InSsdt gs gpa → EntryArguments gs gpa s.mem s'.mem) ∧
      (¬ InSsdt gs gpa → ∀ r ∈ [Reg.rax, .rdi, .rsi],
        s'.mem.load64 (regSlot gs r) = s.mem.load64 (regSlot gs r))
  reads : ReadsTable img gs gpa

section
variable {img : Image} {p : ℕ} {gpa : BitVec 64} {s s' : Machine}

theorem misconfig_ret {gs : ℕ} (h : (eptMisconfigHandler img gs).run s = .ret .handlerSuccess s') :
    s'.mem = if InSsdt gs (exitInfo s.vmcs).gpa then hookRegs img gs (exitInfo s.vmcs).gpa
      (advanceRip gs (exitInfo s.vmcs).len s.mem) else advanceRip gs (exitInfo s.vmcs).len s.mem := by
  obtain ⟨log, hrun⟩ := serves_eptMisconfig img gs s
  rw [← Outcome.ret_state (hrun.symm.trans h)]

theorem load_misconfig_outside {gs : ℕ} (hgpa : (exitInfo s.vmcs).gpa = gpa) (hout : ¬ InSsdt gs gpa)
    (h : (eptMisconfigHandler img gs).run s = .ret .handlerSuccess s') (r : Reg) :
    s'.mem.load64 (regSlot gs r) = if r = .rip
      then s.mem.load64 (regSlot gs .rip) + (exitInfo s.vmcs).len else s.mem.load64 (regSlot gs r) := by
  rw [misconfig_ret h, hgpa, if_neg hout, load_advanceRip]

/-- **the image after a fault in the table** -/
theorem load_misconfig_inside (hp : CpuDataAt p) (hgpa : (exitInfo s.vmcs).gpa = gpa)
    (hin : InSsdt (CpuData.guestCpuState p) gpa)
    (h : (eptMisconfigHandler img (CpuData.guestCpuState p)).run s = .ret .handlerSuccess s')
    (r : Reg) : s'.mem.load64 (regSlot (CpuData.guestCpuState p) r)
      = hookedReg img gpa s.mem r (if r = .rip
        then s.mem.load64 (regSlot (CpuData.guestCpuState p) .rip) + (exitInfo s.vmcs).len
        else s.mem.load64 (regSlot (CpuData.guestCpuState p) r)) := by
  have hlt := hp.lt
  have hgs := CpuData.guestCpuState_eq p
  have hrange := (inSsdt_iff (by omega)).mp hin
  have hentry : (advanceRip (CpuData.guestCpuState p) (exitInfo s.vmcs).len s.mem).load64 gpa.toNat
      = s.mem.load64 gpa.toNat :=
    Mem.load64_congr fun k _ => advanceRip_outside _ _ (by omega)
  rw [misconfig_ret h, hgpa, if_pos hin, load_hookRegs (by omega), load_advanceRip,
    hookedReg_congr hentry]

/-! ## the start of an entry -/

/-- **the arguments describe an entry exactly if the fetched qword is that entry** -/
theorem entryArguments_iff (hp : CpuDataAt p) (hgpa : (exitInfo s.vmcs).gpa = gpa)
    (hin : InSsdt (CpuData.guestCpuState p) gpa)
    (h : (eptMisconfigHandler img (CpuData.guestCpuState p)).run s = .ret .handlerSuccess s') :
    EntryArguments (CpuData.guestCpuState p) gpa s.mem s'.mem ↔
      s.mem.load64 gpa.toNat = s.mem.load64 (gpa.toNat - gpa.toNat % 8) := by
  have hlt := hp.lt
  have hal := hp.aligned
  have hgs := CpuData.guestCpuState_eq p
  have hrange := (inSsdt_iff (by omega)).mp hin
  have hload := load_misconfig_inside hp hgpa hin h
  have hsize : ssdtSize = 512 := rfl
  have hrdi : (s'.mem.load64 (regSlot (CpuData.guestCpuState p) .rdi)).toNat
      = gpa.toNat % 4096 / 8 := by
    rw [hload, hookedReg, sub_alignDown, BitVec.toNat_ofNat]
    omega
  have hrsi : s'.mem.load64 (regSlot (CpuData.guestCpuState p) .rsi) = s.mem.load64 gpa.toNat :=
    hload .rsi
  have hstart : Ssdt.entries (GuestState.ssdt (CpuData.guestCpuState p)) (gpa.toNat % 4096 / 8)
      = gpa.toNat - gpa.toNat % 8 := by
    rw [Ssdt.entries_eq, GuestState.ssdt_eq]
    omega
  constructor
  · intro ha
    rw [← hrsi, ha.handler, hrdi, hstart]
  · intro heq
    refine ⟨?_, ?_, ?_⟩
    · rw [hrdi]
      omega
    · simp only [hrdi, Ssdt.entries_eq, GuestState.ssdt_eq]
      omega
    · rw [hrsi, hrdi, hstart, heq]

theorem readsTable (hp : CpuDataAt p)
    (hfetch : InSsdt (CpuData.guestCpuState p) gpa → gpa.toNat % 8 = 0) :
    ReadsTable img (CpuData.guestCpuState p) gpa := by
  intro s t s' t' hgpa hv himage htable hs ht r
  have hlt := hp.lt
  have hal := hp.aligned
  have hgs := CpuData.guestCpuState_eq p
  have hregs : registersT.size = 4096 := rfl
  have htab : ssdtT.size = 4096 := rfl
  have hslot : ∀ r, t.mem.load64 (regSlot (CpuData.guestCpuState p) r)
      = s.mem.load64 (regSlot (CpuData.guestCpuState p) r) := by
    intro r
    have hr := r.position_lt
    exact himage.load64 (by rw [regSlot_eq]; omega) (by rw [regSlot_eq]; omega)
  have hgpa' : (exitInfo t.vmcs).gpa = gpa := by rw [hv, hgpa]
  by_cases hin : InSsdt (CpuData.guestCpuState p) gpa
  · have hrange := (inSsdt_iff (by omega)).mp hin
    have halign := hfetch hin
    have hentry : t.mem.load64 gpa.toNat = s.mem.load64 gpa.toNat :=
      htable.load64 (by rw [GuestState.ssdt_eq]; omega) (by rw [GuestState.ssdt_eq]; omega)
    rw [load_misconfig_inside hp hgpa' hin ht, load_misconfig_inside hp hgpa hin hs,
      hookedReg_congr hentry, hslot, hslot, hv]
  · rw [load_misconfig_outside hgpa' hin ht, load_misconfig_outside hgpa hin hs, hslot, hslot, hv]

/-! ## any other address -/

/-- zero, but for the byte behind the entry of the address -/
def splitMemory (a : ℕ) : Mem := fun x => if x = a - a % 8 + 8 then 1#8 else 0#8

/-- **the two places differ** -/
theorem split_memory {a : ℕ} (ha : a % 8 ≠ 0) :
    (splitMemory a).load64 a ≠ (splitMemory a).load64 (a - a % 8) := by
  intro h
  have hzero : (splitMemory a).load64 (a - a % 8) = 0#64 :=
    Mem.load64_eq_zero fun k hk => if_neg (by omega)
  have hbyte : ((splitMemory a).load64 a).extractLsb' (8 * (8 - a % 8)) 8 = splitMemory a (a + (8 - a % 8)) :=
    Mem.byte_of_load (splitMemory a) a 8 (8 - a % 8) (by omega)
  have hone : splitMemory a (a + (8 - a % 8)) = 1#8 := if_pos (by omega)
  rw [h, hzero, hone] at hbyte
  simp at hbyte

/-- a machine that has left the guest at `gpa`, over the memory that tells the two places apart -/
def splitMachine (gpa : BitVec 64) : Machine :=
  { (default : Machine) with
    mem := splitMemory gpa.toNat
    vmcs := Function.update (default : Machine).vmcs vmcsGuestPhysicalAddress gpa }

theorem splitMachine_gpa (gpa : BitVec 64) : (exitInfo (splitMachine gpa).vmcs).gpa = gpa := by
  simp only [exitInfo, splitMachine, Function.update_self]

theorem aligned_of_hookArguments (hp : CpuDataAt p)
    (h : HookArguments img (CpuData.guestCpuState p) gpa)
    (hin : InSsdt (CpuData.guestCpuState p) gpa) : gpa.toNat % 8 = 0 := by
  by_contra hne
  obtain ⟨s', hrun, hentry, -⟩ := h.served (splitMachine gpa) (splitMachine_gpa gpa)
  exact split_memory hne ((entryArguments_iff hp (splitMachine_gpa gpa) hin hrun).mp (hentry hin))

/-- **the arguments of `ssdt_hook` describe an entry of the table**, read from the table only, exactly
if the faulting address is the start of an entry -/
theorem hook_arguments_iff (img : Image) (p : ℕ) (hp : CpuDataAt p) (gpa : BitVec 64) :
    HookArguments img (CpuData.guestCpuState p) gpa ↔
      (InSsdt (CpuData.guestCpuState p) gpa → gpa.toNat % 8 = 0) := by
  refine ⟨aligned_of_hookArguments hp, fun halign => ⟨fun s hgpa => ?_, readsTable hp halign⟩⟩
  obtain ⟨log, hrun⟩ := serves_eptMisconfig img (CpuData.guestCpuState p) s
  refine ⟨_, hrun, fun hin => ?_, fun hout r hr => ?_⟩
  · refine (entryArguments_iff hp hgpa hin hrun).mpr ?_
    rw [halign hin, Nat.sub_zero]
  · have hne : r ≠ .rip := by
      rintro rfl
      simp at hr
    rw [load_misconfig_outside hgpa hout hrun, if_neg hne]

theorem hook_arguments_iff_fixed :
    HookArguments sampleImage (CpuData.guestCpuState cpuDataAddress) 0x1812008#64 ↔
      (InSsdt (CpuData.guestCpuState cpuDataAddress) 0x1812008#64 →
        (0x1812008#64).toNat % 8 = 0) :=
  hook_arguments_iff sampleImage cpuDataAddress cpuDataAt_fixed 0x1812008#64

/-- **a load one byte into an entry hands over a handler that is in no entry** -/
theorem hook_reads_across_entries : ¬ ∀ (img : Image) (p : ℕ) (gpa : BitVec 64), CpuDataAt p →
    HookArguments img (CpuData.guestCpuState p) gpa := by
  intro h
  have hin : InSsdt (CpuData.guestCpuState cpuDataAddress) 0x1812001#64 := by decide
  exact absurd (aligned_of_hookArguments cpuDataAt_fixed
    (h sampleImage cpuDataAddress 0x1812001#64 cpuDataAt_fixed) hin) (by decide)

end

end HyperC
