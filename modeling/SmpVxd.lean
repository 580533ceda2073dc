import SmpVxd.Protocol.History
import SmpVxd.Protocol.Fault
import SmpVxd.Protocol.Reattach
import SmpVxd.Client.Winthread
import SmpVxd.Client.Creation
import SmpVxd.X86.Symbolic
import SmpVxd.X86.Soundness
import SmpVxd.ApKernel.FlyLand
import SmpVxd.Protocol.Pointers
import SmpVxd.Protocol.Lookup
import SmpVxd.Protocol.Leak
import SmpVxd.Boot.Counting
import SmpVxd.Boot.MpTable
import SmpVxd.Boot.Bounds
import SmpVxd.Driver.TableMemory
import SmpVxd.Driver.Clock
import SmpVxd.Protocol.HandOff
import SmpVxd.Boot.Simd
import SmpVxd.Boot.Usage
import SmpVxd.Client.Device
import SmpVxd.Client.LiveThreads
import SmpVxd.Boot.Monitor
import SmpVxd.Boot.Search
import SmpVxd.X86.Block
import SmpVxd.Driver.Frequency
import SmpVxd.X86.Fill
import SmpVxd.Driver.Memset
import SmpVxd.Driver.InlineAsm
import SmpVxd.Words.Mask
import SmpVxd.Boot.DeviceInit
import SmpVxd.Client.Features
import SmpVxd.Client.Reported
import SmpVxd.Words.Fields
import SmpVxd.Boot.Descriptors
import SmpVxd.Text.Buffer
import SmpVxd.Text.Printf
import SmpVxd.Driver.Terror
import SmpVxd.Text.CString
import SmpVxd.Generator.ParseList
import SmpVxd.Generator.ListFile
import SmpVxd.Generator.Lines
import SmpVxd.Generator.Sections
import SmpVxd.Text.Lines
import SmpVxd.Generator.Output
import SmpVxd.X86.Copy
import SmpVxd.Driver.VxdLib
import SmpVxd.Protocol.Visit
import SmpVxd.Transition.Progress
import SmpVxd.Protocol.Progress
import SmpVxd.Startup.Handshake
import SmpVxd.Startup.Inversion
import SmpVxd.Startup.Safety
import SmpVxd.Transition.Mapping
import SmpVxd.Startup.Completion
import SmpVxd.Startup.Refinement
import SmpVxd.Protocol.Homecoming
import SmpVxd.ApKernel.Loop
