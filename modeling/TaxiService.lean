import TaxiService.Lib.Run
import TaxiService.Lib.Table
import TaxiService.Lib.Assignment
import TaxiService.Model.StorageOps
import TaxiService.Lib.Serial
import TaxiService.Model.RowLocks
import TaxiService.Spec.Dispatch
import TaxiService.Proofs.StorageSpec
import TaxiService.Proofs.Dispatch
import TaxiService.Proofs.RideLifecycle
import TaxiService.Proofs.Serializable
import TaxiService.Lib.Assoc
import TaxiService.Model.Performance
import TaxiService.Proofs.Limiter
import TaxiService.Lib.Prog
import TaxiService.Model.Handlers
import TaxiService.Model.Serving
import TaxiService.Spec.CacheKeys
import TaxiService.Proofs.HandlerShapes
import TaxiService.Proofs.CacheSound
import TaxiService.Model.Interleaving
import TaxiService.Spec.Freshness
import TaxiService.Proofs.Freshness
import TaxiService.Lib.PyJson
import TaxiService.Lib.PyJsonText
import TaxiService.Lib.PyJsonLex
import TaxiService.Lib.PyJsonRoundTrip
import TaxiService.Lib.PyJsonStrings
import TaxiService.Lib.PyJsonLimits
import TaxiService.Model.Consumer
import TaxiService.Model.Deployment
import TaxiService.Lib.Pipeline
import TaxiService.Spec.ReadModel
import TaxiService.Proofs.ConsumerSpec
import TaxiService.Proofs.ModelSaving
import TaxiService.Proofs.RideUpdates
import TaxiService.Proofs.Redelivery
import TaxiService.Proofs.RideSections
import TaxiService.Proofs.Atomicity
import TaxiService.Spec.CrashRecovery
import TaxiService.Proofs.CrashRecovery
import TaxiService.Model.Auth
import TaxiService.Proofs.Auth
import TaxiService.Lib.Cells
import TaxiService.Proofs.Streams
import TaxiService.Proofs.StorageEffects
import TaxiService.Proofs.Limits
import TaxiService.Proofs.CacheHistory
import TaxiService.Proofs.CreateRequests
import TaxiService.Lib.Waiting
import TaxiService.Spec.Deadlock
import TaxiService.Proofs.Deadlock
import TaxiService.Model.MongoUsers
import TaxiService.Spec.MongoUsers
import TaxiService.Proofs.MongoUsers
import TaxiService.Model.AuditQueue
import TaxiService.Proofs.PoisonMessages
import TaxiService.Lib.Decimal
import TaxiService.Proofs.Tokens
import TaxiService.Proofs.EventIds
import TaxiService.Proofs.Parameters
import TaxiService.Model.DriverStatus
import TaxiService.Model.SeedData
import TaxiService.Proofs.DriverStatus
import TaxiService.Proofs.SeedData
import TaxiService.Proofs.RideHistory
import TaxiService.Proofs.NameSearch
import TaxiService.Lib.Regex
import TaxiService.Lib.RegexPattern
import TaxiService.Lib.Bson
import TaxiService.Model.MongoDocuments
import TaxiService.Model.MongoSchema
import TaxiService.Proofs.MongoDocuments
import TaxiService.Proofs.MongoSchema
import TaxiService.Proofs.MongoHistory
import TaxiService.Proofs.MongoSearch
import TaxiService.Lib.Threads
import TaxiService.Lib.Topics
import TaxiService.Model.Publisher
import TaxiService.Model.Broker
import TaxiService.Model.Messaging
import TaxiService.Spec.Messaging
import TaxiService.Proofs.MessagingScripts
import TaxiService.Proofs.Messaging
import TaxiService.Spec.EndToEnd
import TaxiService.Proofs.EndToEnd
import TaxiService.Lib.AssignmentHistory
import TaxiService.Model.HttpServer
import TaxiService.Spec.HttpServer
import TaxiService.Proofs.HttpThreads
import TaxiService.Proofs.Authorization
import TaxiService.Proofs.Acknowledgements
import TaxiService.Proofs.HttpBoard
import TaxiService.Lib.Constraints
import TaxiService.Spec.SchemaIntegrity
import TaxiService.Proofs.SchemaIntegrity
import TaxiService.Model.StorageReads
import TaxiService.Spec.StorageReads
import TaxiService.Proofs.StorageReads
import TaxiService.Spec.ServedReads
import TaxiService.Proofs.ServedReads
import TaxiService.Proofs.CatchingUp
import TaxiService.Spec.RateLimited
import TaxiService.Proofs.RateLimited
import TaxiService.Proofs.MongoServed
