import VedDb.Index.Background
import VedDb.Index.Atomicity
import VedDb.Cache.ReadYourWrites
import VedDb.Cache.WriteBehind
import VedDb.Cache.Drains
import VedDb.Cache.Expiration
import VedDb.Wal.TornTail
import VedDb.Wal.Concurrent
import VedDb.Encryption.Completion
import VedDb.Encryption.FailClosed
import VedDb.Encryption.Startup
import VedDb.Snapshot.HeaderText
import VedDb.Auth.TokenSessions
import VedDb.Auth.TokenAuthorization
import VedDb.Protocol.Handler
import VedDb.Protocol.QueryAgreement
import VedDb.Protocol.AllOrNothing
import VedDb.Protocol.Serializability
import VedDb.Kv.OutOfMemory
import VedDb.Ring.FirstLap
import VedDb.PubSub.Delivery
import VedDb.Core.Layout
import VedDb.Core.SessionAccounting
import VedDb.Core.WakeUps
import VedDb.Auth.AuditQueries
import VedDb.Config.Manager
import VedDb.Aggregation.Execution
import VedDb.Aggregation.Wire
import VedDb.Cache.Structures
import VedDb.Cache.Victims
import VedDb.Index.Statistics
import VedDb.Wal.Integrity
import VedDb.Backup.Verification
import VedDb.Storage.CollectionStatistics
import VedDb.Encryption.KeyTransfer
import VedDb.Kv.Statistics
import VedDb.PubSub.Patterns
import VedDb.Backup.Retention
import VedDb.Protocol.Permits
import VedDb.Replication.Following
