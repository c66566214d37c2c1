import SignalRoute.Query.Nearby
import SignalRoute.Store.Latest
import SignalRoute.Interaction.Prog
import SignalRoute.Interaction.Pool
import SignalRoute.Numeric.Text
import SignalRoute.Numeric.Decimal
import SignalRoute.Clients.CellIndex
import SignalRoute.Clients.CellExpiry
import SignalRoute.Clients.FenceStates
import SignalRoute.Clients.Postgres
import SignalRoute.Clients.Kafka
import SignalRoute.Clients.RedisServer
import SignalRoute.Clients.Linearizable
import SignalRoute.Processor.Durability
import SignalRoute.Processor.Convergence
import SignalRoute.Processor.PoisonPill
import SignalRoute.Processor.Conservation
import SignalRoute.Processor.BestEffort
import SignalRoute.Processor.Modes
import SignalRoute.Processor.Retries
import SignalRoute.Processor.Writers
import SignalRoute.Geofence.Protocol
import SignalRoute.Geofence.Prefilter
import SignalRoute.Geofence.FailedTransitions
import SignalRoute.Geofence.Reloads
import SignalRoute.Matching.Redelivery
import SignalRoute.Matching.RequestLoop
import SignalRoute.Matching.RoundTrip
import SignalRoute.Matching.RedisReservations
import SignalRoute.Workers.DeadLetters
import SignalRoute.Geofence.Containment
import SignalRoute.Spatial.GridDisk
import SignalRoute.Spatial.Polyfill
import SignalRoute.Config.Spatial
import SignalRoute.Gateway.Counters
import SignalRoute.Processor.DedupLru
import SignalRoute.Matching.Availability
import SignalRoute.Query.Freshness
import SignalRoute.Gateway.Admission
import SignalRoute.Gateway.Batches
import SignalRoute.Store.Buckets
import SignalRoute.Clients.TripPoints
import SignalRoute.Query.Trips
import SignalRoute.Numeric.Grammar
import SignalRoute.Processor.Grammar
import SignalRoute.Geofence.RoundTrip
import SignalRoute.Numeric.Reread
import SignalRoute.Geofence.Persistence
import SignalRoute.Clients.FenceKeys
import SignalRoute.Geofence.RedisDwells
import SignalRoute.Clients.DeviceHash
import SignalRoute.Matching.Nearest
import SignalRoute.Clients.CellSweep
import SignalRoute.Events.Deliveries
import SignalRoute.Clients.TripInserts
import SignalRoute.Config.Strings
import SignalRoute.Admin.Socket
import SignalRoute.Spatial.DiskCover
import SignalRoute.Admin.Probes
import SignalRoute.Runtime.Lifecycle
import SignalRoute.Clients.Backends
import SignalRoute.Clients.BackendsAgree
import SignalRoute.Gateway.Accepted
import SignalRoute.Interaction.RelyGuarantee
import SignalRoute.Interaction.Traces
import SignalRoute.Matching.Exclusion
import SignalRoute.Processor.Group
import SignalRoute.Query.Latest
import SignalRoute.Processor.History
import SignalRoute.Query.Around
import SignalRoute.Query.Tracks
import SignalRoute.Gateway.Scraped
import SignalRoute.Config.Written
