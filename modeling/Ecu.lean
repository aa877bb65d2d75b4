import Ecu.Lib.Lines
import Ecu.Lib.FirstMatch
import Ecu.Lib.Meter
import Ecu.Lib.Decimal
import Ecu.Lib.Layout
import Ecu.Lib.Scan
import Ecu.Base
import Ecu.Forward.Dir
import Ecu.Forward.Client
import Ecu.Forward.Control
import Ecu.Forward.Record
import Ecu.Forward.Store
import Ecu.Forward.Search
import Ecu.Forward.Run
import Ecu.Forward.Invariant
import Ecu.Forward.Mark
import Ecu.Forward.Resend
import Ecu.Time.Datetime
import Ecu.Time.Polling
import Ecu.Inverter.Info
import Ecu.Inverter.Checkdata
import Ecu.Inverter.Resolve
import Ecu.Inverter.Energy
import Ecu.Record.Fields
import Ecu.Record.Protocol
import Ecu.Record.Grammar
import Ecu.Inverter.Ranges
import Ecu.Record.Decode
import Ecu.Record.Capacity
import Ecu.Wifi.SocketB
import Ecu.Socket.Client
import Ecu.Socket.Control
import Ecu.Forward.Wire
import Ecu.Poll.Power
import Ecu.Poll.Report
import Ecu.Poll.Restart
import Ecu.Poll.Slots
import Ecu.Poll.Alike
import Ecu.Poll.Forget
import Ecu.Poll.Message
import Ecu.Poll.Counters
import Ecu.Poll.Status
import Ecu.Rows
import Ecu.Lib.Loop
import Ecu.Protection.Table
import Ecu.Protection.Handlers
import Ecu.Protection.Single
import Ecu.Protection.Setpropa
import Ecu.Protection.Broadcast
import Ecu.Protection.Coverage
import Ecu.Protection.Agree
import Ecu.Protection.Answer
import Ecu.Protection.Grouped
import Ecu.Protection.ReadBack
import Ecu.Protection.Payload
import Ecu.Socket.Dispatch
import Ecu.Command.Pending
import Ecu.Command.Ends
import Ecu.Command.IrdRequests
import Ecu.Command.PowerRequests
import Ecu.Phone.Dispatch
import Ecu.Command.IdEdits
import Ecu.Command.Rejected
import Ecu.Command.IdWriters
import Ecu.Update.Firmware
import Ecu.Wifi.Fragments
import Ecu.Totals.Faults
import Ecu.Totals.Myfile
import Ecu.Config.Comm
import Ecu.Config.ReadBack
import Ecu.Lib.Talk
import Ecu.Update.Single
import Ecu.Phone.Generation
import Ecu.Forward.Bounds
import Ecu.Command.Reads
import Ecu.Forward.Attached
import Ecu.Forward.Results
import Ecu.Forward.Upload
import Ecu.Socket.FirstContact
import Ecu.Threads.Saving
import Ecu.Protection.Representation
import Ecu.Lib.Arrays
import Ecu.Lib.Calendar
import Ecu.Time.Timezone
import Ecu.Update.SelfUpdate
import Ecu.Forward.Requeue
import Ecu.Wifi.Extents
import Ecu.Wifi.Timeout
import Ecu.Time.Clock
import Ecu.Zigbee.Builders
import Ecu.Zigbee.ShortAddress
import Ecu.Time.Pacing
import Ecu.Time.Greenwich
import Ecu.Command.Integers
import Ecu.Command.PowerColumns
import Ecu.Phone.RegisterId
import Ecu.Phone.Settings
import Ecu.Curves.Cleanup
import Ecu.Curves.OldFile
import Ecu.Curves.Windows
import Ecu.Curves.Encoding
import Ecu.Curves.Replies
import Ecu.Lib.Memory
import Ecu.Lib.Blocks
import Ecu.Lib.Allocator
import Ecu.Kernel.HeapRuns
import Ecu.Zigbee.Serial
import Ecu.Lib.Queue
import Ecu.Kernel.Priorities
import Ecu.Kernel.TimerRuns
