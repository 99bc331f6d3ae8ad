import ZephyrStm32.Lib.Bytes
import ZephyrStm32.Lib.CString
import ZephyrStm32.Lib.Crc32
import ZephyrStm32.Lib.Framing
import ZephyrStm32.Lib.Interact
import ZephyrStm32.Lib.Cost
import ZephyrStm32.Lib.World
import ZephyrStm32.Lib.Guarded
import ZephyrStm32.Lib.Paged
import ZephyrStm32.Lib.Incremental
import ZephyrStm32.Lib.Peek
import ZephyrStm32.Lib.Run
import ZephyrStm32.Lib.Scan
import ZephyrStm32.Ota.Device.Protocol
import ZephyrStm32.Ota.Device.State
import ZephyrStm32.Ota.Device.Handler
import ZephyrStm32.Ota.Device.Branches
import ZephyrStm32.Ota.Device.Verify
import ZephyrStm32.Ota.Device.Check
import ZephyrStm32.Ota.Device.Answers
import ZephyrStm32.Ota.Device.Session
import ZephyrStm32.Ota.Device.Refused
import ZephyrStm32.Ota.Device.Receiving
import ZephyrStm32.Ota.Device.Erased
import ZephyrStm32.Ota.Device.Complete
import ZephyrStm32.Ota.Device.ErrorCode
import ZephyrStm32.Ota.Device.BootSafety
import ZephyrStm32.Ota.Device.Flow
import ZephyrStm32.Ota.Device.Retry
import ZephyrStm32.Ota.Device.Respond
import ZephyrStm32.Ota.Device.Payload
import ZephyrStm32.Ota.Device.Reset
import ZephyrStm32.Ota.Device.Fresh
import ZephyrStm32.Ota.Pc.Frame
import ZephyrStm32.Ota.Pc.RoundTrip
import ZephyrStm32.Ota.Pc.Codec
import ZephyrStm32.Ota.Pc.Stream
import ZephyrStm32.Ota.Pc.Connection
import ZephyrStm32.Ota.Pc.Pending
import ZephyrStm32.Ota.Pc.Firmware
import ZephyrStm32.Ota.Pc.Commands
import ZephyrStm32.Ota.Pc.Engine
import ZephyrStm32.Ota.Pc.Plan
import ZephyrStm32.Ota.Pc.Cancel
import ZephyrStm32.Ota.Pc.Stages
import ZephyrStm32.Ota.Pc.Upgrade
import ZephyrStm32.Ota.Pc.Budget
import ZephyrStm32.Ota.Pc.Progress
import ZephyrStm32.Ota.Pc.Requests
import ZephyrStm32.Ota.Pc.Screen
import ZephyrStm32.Ota.Device.Receiver
import ZephyrStm32.Ota.Device.Bounds
import ZephyrStm32.Ota.Device.Interrupt
import ZephyrStm32.Ota.Device.Dma
import ZephyrStm32.Ota.Link.Layouts
import ZephyrStm32.Ota.Link.Response
import ZephyrStm32.Ota.Link.Reassembly
import ZephyrStm32.Ota.Link.Noise
import ZephyrStm32.Ota.Link.Wedge
import ZephyrStm32.Ota.Link.EndToEnd
import ZephyrStm32.Ota.Link.Parsers
import ZephyrStm32.Ota.Link.Matching
import ZephyrStm32.Ota.Link.Cancellation
import ZephyrStm32.Ota.Link.Bench
import ZephyrStm32.Ota.Link.Filling
import ZephyrStm32.Ota.Link.Stored
import ZephyrStm32.Ota.Link.Replies
import ZephyrStm32.Ota.Link.Sessions
import ZephyrStm32.Ota.Link.Wire
import ZephyrStm32.Ota.Link.Losses
import ZephyrStm32.Ota.Link.Console
import ZephyrStm32.Ota.Link.Crowd
import ZephyrStm32.Apps.Eeprom
import ZephyrStm32.Apps.TcpConsole
import ZephyrStm32.Apps.SdSpeed
import ZephyrStm32.Apps.Fifo
import ZephyrStm32.Apps.AllocFifo
import ZephyrStm32.Apps.UartEcho
import ZephyrStm32.Apps.Mutex
import ZephyrStm32.Apps.Msgq
import ZephyrStm32.Apps.CmdMsgq
