import MeshChat.Lib.CMemory
import MeshChat.Lib.Prog
import MeshChat.Wire.Request
import MeshChat.Wire.RequestRoundTrip
import MeshChat.Wire.Response
import MeshChat.Wire.ResponseRoundTrip
import MeshChat.Wire.Decodable
import MeshChat.Db.Schema
import MeshChat.Db.Connection
import MeshChat.Db.SqlText
import MeshChat.Db.Sql
import MeshChat.Db.Locks
import MeshChat.Lib.Journal
import MeshChat.Db.Durability
import MeshChat.Db.Attribution
import MeshChat.Server.Handler
import MeshChat.Db.SqlSpec
import MeshChat.Server.Change
import MeshChat.Server.Session
import MeshChat.Server.Rooms
import MeshChat.Server.Messages
import MeshChat.Lib.Rounds
import MeshChat.Server.Integrity
import MeshChat.Server.Delivery
import MeshChat.Server.Accounts
import MeshChat.Lib.Endian
import MeshChat.Server.Token
import MeshChat.Wire.ParseBounds
import MeshChat.Server.Frames
import MeshChat.Server.Chats
import MeshChat.Server.Dispatch
import MeshChat.Server.Correlation
import MeshChat.Server.Absent
import MeshChat.Wire.Segments
import MeshChat.Net.Workers
import MeshChat.Net.Ownership
import MeshChat.Net.Backlog
import MeshChat.Server.Sending
import MeshChat.Client.Details
import MeshChat.Server.Storage
import MeshChat.Server.Drops
import MeshChat.Db.Reports
import MeshChat.Server.Formats
import MeshChat.Wire.Credentials
import MeshChat.Db.StoreLoad
import MeshChat.Server.IdLists
import MeshChat.Server.Pages
import MeshChat.Server.Upload
import MeshChat.Client.Paging
import MeshChat.Net.FdSet
import MeshChat.Client.Polling
import MeshChat.Server.Transfer
import MeshChat.Wire.Registry
import MeshChat.Client.Text
import MeshChat.Client.Groups
import MeshChat.Lib.LinkedList
import MeshChat.Utils.Strings
import MeshChat.Server.Guards
import MeshChat.Server.Together
import MeshChat.Server.References
import MeshChat.Db.SqlEnsures
import MeshChat.Lib.Keyed
import MeshChat.Lib.Refinement
import MeshChat.Server.Abstraction
import MeshChat.Server.Events
import MeshChat.Server.History
import MeshChat.Client.Network
import MeshChat.Client.EndToEnd
