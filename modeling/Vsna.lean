import Vsna.Text.Numeral
import Vsna.Text.Stream
import Vsna.Text.Tokens
import Vsna.Posix.Tree
import Vsna.Posix.Walk
import Vsna.Posix.Filesystem
import Vsna.Text.Utf8
import Vsna.Common.Env
import Vsna.Common.Addr
import Vsna.Common.Config
import Vsna.Common.ConfigFile
import Vsna.Common.History
import Vsna.Common.Startup
import Vsna.CommandLine.Parse
import Vsna.CommandLine.Reading
import Vsna.CommandLine.Accept
import Vsna.Automata.System
import Vsna.Automata.Loop
import Vsna.Json.Lexer
import Vsna.Json.Lexeme
import Vsna.Json.Strings
import Vsna.Json.Numbers
import Vsna.Json.Scan
import Vsna.Json.Parser
import Vsna.Json.Grammar
import Vsna.Json.Values
import Vsna.Json.Errors
import Vsna.Automata.Pool
import Vsna.Automata.Progress
import Vsna.Automata.Shared
import Vsna.Websocket.Frames
import Vsna.Websocket.Session
import Vsna.Websocket.Discipline
import Vsna.Websocket.Failures
import Vsna.Websocket.Orderly
import Vsna.Websocket.Smooth
import Vsna.Common.Utils
import Vsna.Server.Session
import Vsna.Server.Server
import Vsna.Server.Schedule
import Vsna.Server.Cli
import Vsna.Server.SetUp
import Vsna.Client.Session
import Vsna.Client.Replies
import Vsna.Client.Client
import Vsna.Client.Menu
import Vsna.Client.Prompt
import Vsna.Client.Shell
import Vsna.Client.Cli
import Vsna.EndToEnd.Launch
import Vsna.EndToEnd.Settings
import Vsna.EndToEnd.Connection
import Vsna.EndToEnd.Output
import Vsna.EndToEnd.Console
import Vsna.EndToEnd.Measure
import Vsna.EndToEnd.Completion
import Vsna.EndToEnd.Network
import Vsna.EndToEnd.World
