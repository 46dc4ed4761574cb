import RoxyGlance.Lib.KeyedList
import RoxyGlance.Lib.Ledger
import RoxyGlance.Lib.MarkedWord
import RoxyGlance.Lib.Run
import RoxyGlance.Lib.Counted
import RoxyGlance.Lib.BoundedVector
import RoxyGlance.Settings.Rule
import RoxyGlance.Engine.EventHandling
import RoxyGlance.Lib.Positions
import RoxyGlance.Engine.DocumentedPattern
import RoxyGlance.Engine.RuleSemantics
import RoxyGlance.Engine.Placement
import RoxyGlance.Settings.FilterRoundTrip
import RoxyGlance.Settings.TriggerWriting
import RoxyGlance.Settings.ActionSwitch
import RoxyGlance.Settings.RangeSoundness
import RoxyGlance.Settings.RuleIsolation
import RoxyGlance.Settings.Store
import RoxyGlance.Settings.Reload
import RoxyGlance.App.Context
import RoxyGlance.Editor.ActionViewModel
import RoxyGlance.Editor.RuleViewModel
import RoxyGlance.Editor.RuleEditorPage
import RoxyGlance.Win32.MessageLoopThread
import RoxyGlance.Win32.StopThread
import RoxyGlance.Win32.WinEventHook
import RoxyGlance.Win32.WindowController
import RoxyGlance.Win32.TrayIcon
import RoxyGlance.Win32.File
import RoxyGlance.Lib.Ieee
import RoxyGlance.Lib.FirstOfEach
import RoxyGlance.Monitor.Rebuild
import RoxyGlance.Window.StateWatcher
import RoxyGlance.Window.Dispatch
import RoxyGlance.Shell.MonitorsViewModel
import RoxyGlance.Lib.CircularBuffer
import RoxyGlance.Logging.LogView
import RoxyGlance.Editor.ActionSetters
import RoxyGlance.Editor.SetterContracts
import RoxyGlance.Engine.Compensation
import RoxyGlance.Editor.FilterEditing
import RoxyGlance.Lib.Sse
import RoxyGlance.Numeric.Storage
import RoxyGlance.Numeric.Expression
import RoxyGlance.Lib.FractionalSpan
import RoxyGlance.Engine.Containment
import RoxyGlance.Numeric.Padding
import RoxyGlance.Win32.Process
import RoxyGlance.Lib.XorShift
import RoxyGlance.Lib.Mixer
import RoxyGlance.Utility.Random
import RoxyGlance.Utility.Seed
import RoxyGlance.Win32.MenuHook
import RoxyGlance.Win32.MonitorNames
import RoxyGlance.Lib.Rounding
import RoxyGlance.Lib.IntType
import RoxyGlance.Utility.Jitter
import RoxyGlance.Utility.Backoff
import RoxyGlance.Utility.JitteredBackoff
import RoxyGlance.Lib.Directed
import RoxyGlance.Lib.Significand
import RoxyGlance.Lib.Binary32
import RoxyGlance.Lib.Binary32Value
import RoxyGlance.Lib.SseFloat
import RoxyGlance.Lib.RoundedSpan
import RoxyGlance.Lib.WaitOnValue
import RoxyGlance.Lib.Mirror
import RoxyGlance.Lib.Guarded
import RoxyGlance.Numeric.FloatRounding
import RoxyGlance.Numeric.NearestCast
import RoxyGlance.Engine.SinglePrecision
import RoxyGlance.Win32.StartHandshake
import RoxyGlance.Shell.MonitorsSync
import RoxyGlance.Utility.CallbackHost
import RoxyGlance.Editor.RuleSetters
import RoxyGlance.Editor.Session
import RoxyGlance.Message.MessageWindow
import RoxyGlance.App.SettingsWindow
