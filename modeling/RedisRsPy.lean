import RedisRsPy.Lib.Runs
import RedisRsPy.Lib.Programs
import RedisRsPy.Errors
import RedisRsPy.Connection.Reserved
import RedisRsPy.Pipeline.Sync
import RedisRsPy.Pipeline.SyncSpec
import RedisRsPy.Pipeline.Async
import RedisRsPy.Pipeline.Lifecycle
import RedisRsPy.Pipeline.AsyncFlush
import RedisRsPy.Pipeline.AsyncReservation
import RedisRsPy.Cluster.Slot
import RedisRsPy.Cluster.Fanout
import RedisRsPy.Lib.Optimistic
import RedisRsPy.Pipeline.Transaction
import RedisRsPy.Bridge.Awaitable
import RedisRsPy.Bridge.Callbacks
import RedisRsPy.Bridge.Outcome
import RedisRsPy.Bridge.Terminal
import RedisRsPy.Locks.Lock
import RedisRsPy.Locks.Mutex
import RedisRsPy.Locks.Token
import RedisRsPy.PubSub.Message
import RedisRsPy.PubSub.Subscriptions
import RedisRsPy.PubSub.Confirmations
import RedisRsPy.PubSub.Reconnect
import RedisRsPy.PubSub.Supervisor
import RedisRsPy.PubSub.Ordering
import RedisRsPy.PubSub.ReadYourWrites
import RedisRsPy.PubSub.Iteration
import RedisRsPy.Bridge.Live
import RedisRsPy.Lib.Passage
import RedisRsPy.PubSub.Consumers
import RedisRsPy.PubSub.Delivery
import RedisRsPy.Connection.Sentinel
import RedisRsPy.PubSub.Handlers
import RedisRsPy.Connection.Retry
import RedisRsPy.Facade.Sentinel
import RedisRsPy.Connection.Endpoints
import RedisRsPy.Lib.Borrow
import RedisRsPy.Facade.Close
import RedisRsPy.Commands.Python
import RedisRsPy.Commands.Reply
import RedisRsPy.Commands.RawResult
import RedisRsPy.Commands.Row
import RedisRsPy.Commands.Shapes
import RedisRsPy.Commands.Strings
import RedisRsPy.Commands.Lists
import RedisRsPy.Commands.Hashes
import RedisRsPy.Commands.Sets
import RedisRsPy.Commands.Zsets
import RedisRsPy.Commands.Scripts
import RedisRsPy.Commands.Streams
import RedisRsPy.Commands.Admin
import RedisRsPy.Commands.All
import RedisRsPy.Commands.Closed
import RedisRsPy.Commands.Bytes
import RedisRsPy.Commands.Cluster
import RedisRsPy.Commands.Decoding
import RedisRsPy.Commands.Encodings
import RedisRsPy.Commands.Wire
import RedisRsPy.Commands.Cursor
import RedisRsPy.Commands.ScanIter
import RedisRsPy.Locks.Expiry
import RedisRsPy.Locks.Query
import RedisRsPy.Connection.Batch
import RedisRsPy.Lib.Split
import RedisRsPy.Lib.Utf8
import RedisRsPy.Facade.Percent
import RedisRsPy.Facade.Url
import RedisRsPy.Facade.UrlRoundTrip
import RedisRsPy.Facade.UrlGrammar
import RedisRsPy.Facade.PercentLoop
import RedisRsPy.Commands.ClientList
import RedisRsPy.Facade.Decode
import RedisRsPy.Commands.Conversion
import RedisRsPy.Commands.RangeBounds
import RedisRsPy.Commands.StreamOptions
import RedisRsPy.Connection.Resp3
import RedisRsPy.Cluster.Userinfo
import RedisRsPy.Connection.UrlDb
import RedisRsPy.Commands.Select
import RedisRsPy.Runtime.Singleton
import RedisRsPy.Runtime.Forks
import RedisRsPy.Cluster.Crc16
import RedisRsPy.Lib.Serializable
import RedisRsPy.Pipeline.Serial
import RedisRsPy.Pipeline.SyncTransaction
import RedisRsPy.Cluster.FanoutFailures
import RedisRsPy.Pipeline.AsyncTransaction
import RedisRsPy.PubSub.Requests
import RedisRsPy.PubSub.Worker
import RedisRsPy.Commands.Options
import RedisRsPy.Locks.Generated
import RedisRsPy.Facade.Kwargs
import RedisRsPy.Lib.Multiplex
import RedisRsPy.Connection.Blocking
import RedisRsPy.Commands.Calls
import RedisRsPy.Lib.Binary64
