import Disorder.Client.Simple
import Disorder.Hash.Table
import Disorder.Hash.Invariant
import Disorder.Hash.Map
import Disorder.Hash.Memory
import Disorder.Hash.Foreach
import Disorder.Event.Buffer
import Disorder.Event.Reader
import Disorder.Event.Writer
import Disorder.Event.WriterRun
import Disorder.Event.Tie
import Disorder.Event.Timeouts
import Disorder.Server.State
import Disorder.Server.Grows
import Disorder.Server.Handlers.Queue
import Disorder.Server.Handlers.Users
import Disorder.Server.Handlers.Library
import Disorder.Server.Command
import Disorder.Server.Session
import Disorder.Server.Frame
import Disorder.Server.LogClients
import Disorder.Server.Login
import Disorder.Server.Refusal
import Disorder.Server.Lines
import Disorder.Server.Replies
import Disorder.Speaker.Network
import Disorder.Mime.Parse
import Disorder.Mime.Multipart
import Disorder.Mime.Headers
import Disorder.Mime.ContentType
import Disorder.Server.UserAdmin
import Disorder.Server.Playafter
import Disorder.Server.ListBodies
import Disorder.Server.Resources
import Disorder.Uaudio.Rtp
import Disorder.Server.Cgi
import Disorder.Event.Fds
import Disorder.Event.Reactor
import Disorder.Event.Children
import Disorder.Server.CgiForm
import Disorder.Mime.Cookie
import Disorder.Mime.QuotedPrintable
import Disorder.Server.CgiTemplate
import Disorder.Server.CgiExpand
