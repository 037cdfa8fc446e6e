import HyperC.Lib.Fields
import HyperC.Lib.Bitmap
import HyperC.Lib.Layout
import HyperC.Lib.LastWrite
import HyperC.Lib.Walk
import HyperC.Lib.Simulation
import HyperC.Lib.Records
import HyperC.Machine.State
import HyperC.Machine.Encodings
import HyperC.Machine.Vmx
import HyperC.Machine.MsrBitmap
import HyperC.Vmm.DataLayout
import HyperC.Vmm.Ept
import HyperC.Machine.EptWalk
import HyperC.Vmm.EptTables
import HyperC.Vmm.EptIdentity
import HyperC.Vmm.EptUpdate
import HyperC.Vmm.EptRange
import HyperC.Vmm.EptStale
import HyperC.Vmm.MsrBitmaps
import HyperC.Vmm.Vmexit
import HyperC.Vmm.SavedImage
import HyperC.Vmm.Wrapper
import HyperC.Vmm.EnterRoot
import HyperC.Vmm.ConfigureVmcs
import HyperC.Run.Exit
import HyperC.Run.Transparent
import HyperC.Run.Guest
import HyperC.Run.Access
import HyperC.Guest.SetHandler
import HyperC.Guest.Stack
import HyperC.Guest.Dispatch
import HyperC.Vmm.InitializeHost
import HyperC.Guest.ReadHook
import HyperC.Guest.FreshGuest
import HyperC.Run.Protect
import HyperC.Guest.HookedStore
import HyperC.Guest.Slots
import HyperC.Boot.PageTables
import HyperC.Run.HookedMap
import HyperC.Run.HookedTables
import HyperC.Lib.Masks
import HyperC.Vmm.Controls
import HyperC.Vmm.GuestArea
import HyperC.Vmm.VmxonReady
import HyperC.Guest.Gates
import HyperC.Guest.Sysenter
import HyperC.Print.Integer
import HyperC.Print.ReadNumber
import HyperC.Print.Vsprintf
import HyperC.Print.Compose
import HyperC.Print.Cursor
import HyperC.Print.NumberBuffer
import HyperC.Print.Log
import HyperC.Print.LogBuffers
import HyperC.Print.Transcript
import HyperC.Run.HookArguments
import HyperC.Run.MsrRead
import HyperC.Run.Vm
import HyperC.Run.VmRefines
import HyperC.Run.VmRuns
import HyperC.Run.Audit
import HyperC.Run.Serial
import HyperC.Guest.Kmain
import HyperC.Guest.Tidy
import HyperC.Guest.Mallware
import HyperC.Guest.Calls
import HyperC.Utils.Strcmp
import HyperC.Utils.Memcpy
import HyperC.Bios.Modes
import HyperC.Bios.SwitchModes
import HyperC.Bios.Switches
import HyperC.Boot.Entrypoint
import HyperC.Run.Loader
import HyperC.Bios.RealModeCallback
import HyperC.Bios.Firmware
import HyperC.Bios.FirmwareCall
import HyperC.Bios.LoadMbr
