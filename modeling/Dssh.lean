import Dssh.Conversation.Wakeup
import Dssh.Conversation.Progress
import Dssh.Conversation.Poisoned
import Dssh.Forward.Direct
import Dssh.Forward.Remote
import Dssh.Conversation.Peer
import Dssh.Conversation.Acquire
import Dssh.Conversation.Duplex
import Dssh.Channel.Reading
import Dssh.Channel.Open
import Dssh.Session.SetupDialogue
import Dssh.Session.ClientOutput
import Dssh.Session.Input
import Dssh.Session.Completion
import Dssh.Session.GlobalRequests
import Dssh.Session.Drain
import Dssh.Session.Shutdown
import Dssh.Session.Acceptance
import Dssh.Session.Stop
import Dssh.Session.Signals
import Dssh.Session.Truncation
import Dssh.Session.Limit
import Dssh.ByteChannel
import Dssh.Config.Tokenize
import Dssh.Forward.Relay
import Dssh.Forward.Narrowing
import Dssh.Forward.Socks5
import Dssh.Channel.CopyFrom
import Dssh.Session.TerminalModes
import Dssh.Forward.UnknownChannel
import Dssh.Config.Match
import Dssh.Config.Pattern
import Dssh.Config.PatternSearch
import Dssh.Config.Spans
import Dssh.Config.LineNumbers
import Dssh.Forward.UnixAccept
import Dssh.Auth
import Dssh.Forward.Display
import Dssh.Config.Settings
import Dssh.Session.Privilege
