import Nullxes.Library.EventMachine
import Nullxes.Frame.Focus
import Nullxes.Frame.IpcMove
import Nullxes.Frame.Isolation
import Nullxes.Frame.LockedFrame
import Nullxes.Library.Duplex
import Nullxes.NxLock.Handshake
import Nullxes.Frame.Effects
import Nullxes.Frame.Indices
import Nullxes.Frame.Stacking
import Nullxes.Frame.Callbacks
import Nullxes.Frame.HitTest
import Nullxes.Frame.Shortcuts
import Nullxes.Frame.RuntimeFiles
import Nullxes.Ipc.Discipline
import Nullxes.Ipc.Version
import Nullxes.Ipc.Backpressure
import Nullxes.Ipc.Client
import Nullxes.NxLock.Auth
import Nullxes.Library.Logs
import Nullxes.NxLock.Unlock
import Nullxes.NxLock.Repaint
import Nullxes.Wlcommon.Pool
import Nullxes.Wlcommon.Strides
import Nullxes.Wlcommon.Exhaustion
import Nullxes.NxLock.Sizes
import Nullxes.NxLock.Outputs
import Nullxes.NxGreet.Protocol
import Nullxes.NxGreet.Name
import Nullxes.NxGreet.Sizes
import Nullxes.NxGreet.Failures
import Nullxes.NxNotif.Dbus
import Nullxes.NxNotif.Slots
import Nullxes.NxNotif.Ids
import Nullxes.NxNotif.Delivery
import Nullxes.NxNotif.History
import Nullxes.NxNotif.Restarts
import Nullxes.Launcher.Instance
import Nullxes.Slate.Geometry
import Nullxes.NxSettings.SameFile
import Nullxes.NxNotif.Stack
import Nullxes.NxNotif.Order
import Nullxes.NxNotif.Overlap
import Nullxes.NxNotif.Leftovers
import Nullxes.NxNotif.Timeouts
import Nullxes.NxNotif.Replacements
import Nullxes.NxNotif.Pending
import Nullxes.NxNotif.CloseRequests
import Nullxes.NxNotif.FreshIds
import Nullxes.NxNotif.Reasons
import Nullxes.NxNotif.Cap
import Nullxes.Library.JsonPrefix
import Nullxes.NxNotif.Crashes
import Nullxes.Launcher.Apps
import Nullxes.Launcher.Scan
import Nullxes.Launcher.FieldCodes
import Nullxes.Launcher.State
import Nullxes.Launcher.Selection
import Nullxes.Launcher.Redraws
import Nullxes.Frame.Idle
import Nullxes.Frame.Xwm
import Nullxes.Library.Loops
import Nullxes.Wlcommon.Pixels
import Nullxes.Theme.Text
import Nullxes.Panel.Overlay
import Nullxes.Panel.Painting
import Nullxes.Panel.Upload
import Nullxes.Wlcommon.Inking
import Nullxes.Library.Memo
import Nullxes.Theme.Glyphs
import Nullxes.Theme.Drawing
import Nullxes.Theme.Caching
import Nullxes.Slate.Cells
import Nullxes.Slate.Keystrokes
import Nullxes.Library.Radix
import Nullxes.Theme.Accent
import Nullxes.Ipc.Callers
import Nullxes.NxSettings.State
import Nullxes.NxSettings.Redraws
import Nullxes.NxSettings.Reloads
import Nullxes.Wlcommon.Repainting
import Nullxes.Theme.Painting
import Nullxes.Theme.Frames
import Nullxes.NxNotif.Render
import Nullxes.NxSettings.Render
import Nullxes.Launcher.Draw
import Nullxes.NxGreet.Render
import Nullxes.NxLock.Render
import Nullxes.Slate.Render
import Nullxes.Theme.Screens
import Nullxes.NxLock.Forever
import Nullxes.Library.SideBySide
import Nullxes.NxLock.Secrecy
import Nullxes.NxGreet.Secrecy
import Nullxes.Wlcommon.Window
import Nullxes.Wlcommon.Conformance
import Nullxes.Launcher.Wire
import Nullxes.NxSettings.Wire
import Nullxes.NxGreet.Wire
import Nullxes.Slate.Wire
import Nullxes.Wlcommon.Clients
import Nullxes.Library.EventLoop
import Nullxes.Slate.Output
import Nullxes.NxNotif.Unread
