import AppchatClient.Lib.Runs
import AppchatClient.Lib.Basics
import AppchatClient.Lib.Decimal
import AppchatClient.Lib.SqlText
import AppchatClient.Lib.SharedCells
import AppchatClient.Lib.Wiring
import AppchatClient.Lib.Writes
import AppchatClient.Protocol
import AppchatClient.Cache.SqliteCache
import AppchatClient.Cache.DateTimeDomain
import AppchatClient.Cache.Statements
import AppchatClient.Cache.SaveFrame
import AppchatClient.Cache.Refinement
import AppchatClient.Cache.RoundTrip
import AppchatClient.Io.Handlers
import AppchatClient.Io.ReadLoop
import AppchatClient.Io.BadBody
import AppchatClient.Io.Reassembly
import AppchatClient.Io.SendQueue
import AppchatClient.Io.SendRace
import AppchatClient.Io.CloseRace
import AppchatClient.Io.Lifecycle
import AppchatClient.Session.Receivers
import AppchatClient.Session.Effects
import AppchatClient.Session.Deque
import AppchatClient.Session.Window
import AppchatClient.Session.Server
import AppchatClient.Session.Start
import AppchatClient.Session.NoLoss
import AppchatClient.Session.NoRepeat
import AppchatClient.Session.Exchange
import AppchatClient.Session.Agreement
import AppchatClient.Session.Chronology
import AppchatClient.Session.Identity
import AppchatClient.Session.ChannelMap
import AppchatClient.Session.ViewComplete
import AppchatClient.Session.CutOff
import AppchatClient.Session.ChannelList
import AppchatClient.Session.SqlBacked
import AppchatClient.Session.OverTcp
import AppchatClient.Session.Entries
import AppchatClient.Session.Pointers
import AppchatClient.Session.Outgoing
import AppchatClient.Control.Attempts
import AppchatClient.Control.Connections
import AppchatClient.Control.Windows
import AppchatClient.Gui.Editor
import AppchatClient.Gui.SendClicked
import AppchatClient.Gui.OwnMessages
