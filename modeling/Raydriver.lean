import Raydriver.Lib.Run
import Raydriver.Lib.Baton
import Raydriver.Lib.Search
import Raydriver.Lib.Window
import Raydriver.Lib.Base64
import Raydriver.Lib.Journal
import Raydriver.Lib.HighWater
import Raydriver.Lib.Latest
import Raydriver.Lib.Notify
import Raydriver.Lib.Refinement
import Raydriver.Lib.Mutex
import Raydriver.Core.AsyncEvent
import Raydriver.Core.Text
import Raydriver.Core.Splitter
import Raydriver.Core.Types
import Raydriver.Core.Traffic
import Raydriver.Core.Mock
import Raydriver.Core.Template
import Raydriver.Core.Dialect
import Raydriver.Core.Operations
import Raydriver.Core.Home
import Raydriver.Grbl.Errors
import Raydriver.Grbl.Parser
import Raydriver.Grbl.Attributes
import Raydriver.Grbl.Positions
import Raydriver.Grbl.Flow
import Raydriver.Grbl.Wire
import Raydriver.Grbl.Passes
import Raydriver.Grbl.Chunks
import Raydriver.Grbl.Demux
import Raydriver.Grbl.Session
import Raydriver.Grbl.Tasks
import Raydriver.Grbl.Frames
import Raydriver.Grbl.Lock
import Raydriver.Grbl.Release
import Raydriver.Grbl.Requests
import Raydriver.Grbl.Stall
import Raydriver.Grbl.Cancel
import Raydriver.Grbl.Accounting
import Raydriver.Grbl.Conservation
import Raydriver.Grbl.OneRun
import Raydriver.Grbl.SingleJob
import Raydriver.Grbl.Order
import Raydriver.Grbl.Halt
import Raydriver.Grbl.Finish
import Raydriver.Grbl.AlarmKept
import Raydriver.Grbl.Liveness
import Raydriver.Grbl.Timeout
import Raydriver.Grbl.Device
import Raydriver.Grbl.JobRun
import Raydriver.Grbl.Interactive
import Raydriver.Grbl.Ledger
import Raydriver.Grbl.Effects
import Raydriver.Grbl.Ghosts
import Raydriver.Grbl.Connection
import Raydriver.Grbl.Overflow
import Raydriver.Grbl.Register
import Raydriver.Grbl.Drain
import Raydriver.Grbl.Completion
import Raydriver.Grbl.Alarm
import Raydriver.PingPong.Session
import Raydriver.PingPong.Tasks
import Raydriver.PingPong.Frames
import Raydriver.PingPong.Cancel
import Raydriver.PingPong.Lock
import Raydriver.PingPong.Release
import Raydriver.PingPong.Alarm
import Raydriver.PingPong.Order
import Raydriver.PingPong.AlarmKept
import Raydriver.PingPong.Connection
import Raydriver.PingPong.Chunks
import Raydriver.PingPong.Device
import Raydriver.PingPong.Matching
import Raydriver.PingPong.Announce
import Raydriver.PingPong.Finish
import Raydriver.Grbl.Panel
import Raydriver.Grbl.ErrorLines
import Raydriver.Grbl.FirstError
import Raydriver.PingPong.FirstError
import Raydriver.Grbl.Shown
import Raydriver.Grbl.Hold
import Raydriver.PingPong.Shown
import Raydriver.PingPong.Hold
import Raydriver.Grbl.Reports
import Raydriver.Grbl.Settings
import Raydriver.Grbl.Units
import Raydriver.Grbl.Traffic
import Raydriver.PingPong.Traffic
import Raydriver.Grbl.Feedback
import Raydriver.Grbl.Numerals
import Raydriver.Analyzer.PyText
import Raydriver.Analyzer.Capture
import Raydriver.Analyzer.Proxy
import Raydriver.Analyzer.Replay
import Raydriver.Analyzer.Decode
import Raydriver.Analyzer.Listener
import Raydriver.Grbl.Comments
import Raydriver.Python.Events
import Raydriver.Python.Cli
import Raydriver.Grbl.Waiters
import Raydriver.Emulator.Words
import Raydriver.Emulator.Firmware
import Raydriver.Emulator.Lines
import Raydriver.Emulator.Blocks
import Raydriver.Emulator.Overrun
import Raydriver.Emulator.Planner
import Raydriver.Emulator.Acks
import Raydriver.Emulator.Status
import Raydriver.Emulator.Motions
import Raydriver.Emulator.Smoothie
import Raydriver.PingPong.ClosedLoop
import Raydriver.Grbl.Home
import Raydriver.PingPong.Home
