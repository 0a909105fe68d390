import PgPaw.Text
import PgPaw.Json
import PgPaw.Error
import PgPaw.Lib.Transition
import PgPaw.Lib.Simulation
import PgPaw.Lib.BigEndian
import PgPaw.Lib.History
import PgPaw.Lib.MapDiff
import PgPaw.Lib.Join
import PgPaw.Lib.Program
import PgPaw.Lib.Loop
import PgPaw.Lib.Utf8
import PgPaw.Lib.Framing
import PgPaw.Lib.Transducer
import PgPaw.Lib.PrefixCode
import PgPaw.Lib.Transaction
import PgPaw.Lib.KeyedTable
import PgPaw.Lib.OrderedSet
import PgPaw.Lib.Following
import PgPaw.Lib.Contract
import PgPaw.Lib.Ownership
import PgPaw.JsonText
import PgPaw.Sql.Ast
import PgPaw.Sql.Visit
import PgPaw.Sql.Statement
import PgPaw.Sql.Scope
import PgPaw.Sql.Eval
import PgPaw.Sql.Depend
import PgPaw.Sql.Selection
import PgPaw.Sql.Nodes
import PgPaw.Sql.Lexer
import PgPaw.Sql.LexTail
import PgPaw.Sql.Script
import PgPaw.Sql.Catalog
import PgPaw.Capability.Classify
import PgPaw.Capability.Security
import PgPaw.Capability.TableExtraction
import PgPaw.Capability.CacheKey
import PgPaw.Capability.Admission
import PgPaw.Capability.Version
import PgPaw.Capability.VersionLog
import PgPaw.Capability.AnchorValue
import PgPaw.Capability.AnchorScope
import PgPaw.Capability.Rows
import PgPaw.Capability.Read
import PgPaw.Capability.Prepare
import PgPaw.Capability.RowIdentity
import PgPaw.Capability.Snapshot
import PgPaw.Capability.SnapshotAge
import PgPaw.Capability.Cursor
import PgPaw.Capability.Restart
import PgPaw.Capability.Diff
import PgPaw.Capability.Live
import PgPaw.Capability.Frame
import PgPaw.Capability.LiveStream
import PgPaw.Capability.Alone
import PgPaw.Capability.PhantomDelete
import PgPaw.Capability.LiveProtocol
import PgPaw.Capability.LostUpdate
import PgPaw.Capability.Told
import PgPaw.Capability.Server
import PgPaw.Capability.VerdictCache
import PgPaw.Capability.OwnerScope
import PgPaw.Capability.NeverPublic
import PgPaw.Capability.SqlValidate
import PgPaw.Capability.Sql
import PgPaw.Capability.Quoting
import PgPaw.Capability.LocalScope
import PgPaw.Capability.JsonParam
import PgPaw.Capability.ScopedRead
import PgPaw.Capability.Returning
import PgPaw.Capability.Wrap
import PgPaw.Capability.ReadOnly
import PgPaw.Capability.Connections
import PgPaw.Client.Core
import PgPaw.Client.Reconnect
import PgPaw.Client.Source
import PgPaw.Client.LiveUpdate
import PgPaw.Client.Stream
import PgPaw.Client.Convergence
import PgPaw.Client.Txid
import PgPaw.Client.Wakeup
import PgPaw.Client.Confirm
import PgPaw.Client.Cleanup
import PgPaw.Client.Bracket
import PgPaw.Client.Patch
import PgPaw.Schema.Discover
import PgPaw.Schema.Apply
import PgPaw.Schema.Once
import PgPaw.Schema.Order
import PgPaw.Schema.Destructive
import PgPaw.Schema.Atomic
import PgPaw.Schema.Handoff
import PgPaw.Db.Primary
import PgPaw.Db.Observer
import PgPaw.Db.Lifecycle
import PgPaw.Db.Recover
import PgPaw.Db.Setup
import PgPaw.Capability.Auth
import PgPaw.Binding.Http
import PgPaw.Source.Build
import PgPaw.Api.Runtime
import PgPaw.Binding.Unb
import PgPaw.Binding.LiveEvent
import PgPaw.Binding.SqlScope
