import XChaty.ProofKit.BigEndian
import XChaty.ProofKit.Codec
import XChaty.ProofKit.Machine
import XChaty.Qt.QString
import XChaty.Qt.DataStream
import XChaty.Protoc.Message
import XChaty.Protoc.Wire
import XChaty.Protoc.RoundTrip
import XChaty.Server.SqlHelper
import XChaty.Server.MainWindow
import XChaty.Server.ArbitraryBytes
import XChaty.Server.Runs
import XChaty.Server.Framing
import XChaty.Server.Requests
import XChaty.Server.Lookups
import XChaty.Qt.QFile
import XChaty.Ftp.FileTransportUtilty
import XChaty.Hv.TcpClient
import XChaty.Client.LoginWindow
import XChaty.ProofKit.EventLoop
import XChaty.Chat.ChatWindowUtilty
import XChaty.Client.StartUp
import XChaty.Server.UserTableDAO
import XChaty.Ftp.Packages
import XChaty.Ftp.ChunkLoop
import XChaty.Chat.UnpackCfg
import XChaty.Protoc.Reuse
import XChaty.Server.Connections
import XChaty.Client.XChatyClient
import XChaty.Server.ErrorMessages
import XChaty.Qt.PlaceMarkers
import XChaty.Server.InsertStatement
import XChaty.Client.Heartbeats
import XChaty.ProofKit.History
import XChaty.ProofKit.Links
import XChaty.Hv.TcpServer
import XChaty.Hv.Sessions
import XChaty.Hv.Loads
import XChaty.Chat.WindowLog
import XChaty.Server.ChatServer
import XChaty.Server.ServerLog
import XChaty.Client.Ledger
import XChaty.System.Programs
import XChaty.System.Streams
import XChaty.System.Conversations
import XChaty.System.Harm
import XChaty.Client.ChatClient
import XChaty.System.Delivery
import XChaty.Client.Sendings
import XChaty.System.Costs
import XChaty.ProofKit.Joins
import XChaty.System.Joined
import XChaty.Ftp.Transfers
import XChaty.System.Logins
import XChaty.System.Visitors
