import Domoio.Lib.Machine
import Domoio.Lib.CText
import Domoio.Lib.Terminated
import Domoio.Lib.Brackets
import Domoio.Lib.Outbox
import Domoio.Lib.Regex
import Domoio.Lib.Numeral
import Domoio.Crypto
import Domoio.Json
import Domoio.DataMapper
import Domoio.Models
import Domoio.Connection
import Domoio.World
import Domoio.Sessions
import Domoio.Devices
import Domoio.Operations
import Domoio.Simulation
import Domoio.Agreement
import Domoio.SessionEvents
import Domoio.Safety
import Domoio.Segmentation
import Domoio.Commands
import Domoio.Sending
import Domoio.Delivery
import Domoio.Lib.Replay
import Domoio.PortEvents
import Domoio.Lib.OrderedMap
import Domoio.Persistence
import Domoio.Httpd
import Domoio.Rows
import Domoio.ReadBack
import Domoio.PortsApi
import Domoio.Exceptions
import Domoio.Lib.Locality
import Domoio.Lib.ReadModifyWrite
import Domoio.LostUpdates
import Domoio.Rules
import Domoio.EventQueues
import Domoio.Lib.Unwinding
import Domoio.Secrets
import Domoio.WebSockets
import Domoio.Login
import Domoio.Routes
import Domoio.Routing
import Domoio.Handlers
import Domoio.Bodies
import Domoio.Reports
import Domoio.SetPort
import Domoio.MissingRows
import Domoio.Digital
import Domoio.Script
import Domoio.Setters
import Domoio.Sql
import Domoio.Lib.ByteOrder
import Domoio.Stored
import Domoio.Urls
import Domoio.Accesses
import Domoio.Ids
import Domoio.RowIds
import Domoio.PortIds
import Domoio.Resolution
import Domoio.DeviceJson
import Domoio.Lib.NodeMap
import Domoio.Teardown
import Domoio.Lib.Probe
import Domoio.Lib.Scanners
import Domoio.Buffers
import Domoio.Frames
import Domoio.Lib.Aes
import Domoio.Cipher
import Domoio.Lib.Unfolding
import Domoio.Require
import Domoio.Lib.Reading
import Domoio.Reader
import Domoio.Scanning
import Domoio.Encoding
import Domoio.Parsing
import Domoio.Reread
import Domoio.Reloaded
import Domoio.Lib.Incremental
import Domoio.WebSocketFrames
import Domoio.WebSocketStreams
import Domoio.HttpMessages
import Domoio.HttpRequests
import Domoio.HttpConnections
import Domoio.HttpStreams
import Domoio.Lib.Chunked
import Domoio.HttpResponses
import Domoio.ApiCalls
import Domoio.DevicesPage
