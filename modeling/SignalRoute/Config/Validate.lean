import SignalRoute.Admin.Http

/-!
# What a configuration is checked for

`src/common/config`: the sections of `Config` with the values that `validate_config` checks or the runtime
reads, and `validate_config` itself. The database has no default: a configuration needs its `dsn` at least
(`validate_default`).
-/

namespace SignalRoute

namespace Config

/-- `require_non_negative`. -/
def require_non_negative (value : ℤ) (name : String) : Except Exception Unit :=
  require (¬value < 0) (name ++ " must not be negative")

/-- `require_port`. -/
def require_port (value : ℤ) (name : String) : Except Exception Unit :=
  require (¬(value ≤ 0 ∨ 65535 < value)) (name ++ " must be between 1 and 65535")

/-- `ServerConfig`. -/
structure ServerSection where
  role : String := "standalone"
  listen_addr : String := "0.0.0.0"
  grpc_port : ℤ := 9090
  udp_port : ℤ := 9091

/-- `KafkaConfig`. -/
structure KafkaSection where
  brokers : String := "localhost:9092"
  ingest_topic : String := "tm.location.events"
  geofence_topic : String := "tm.geofence.events"
  dlq_topic : String := "tm.location.dlq"
  consumer_group : String := "signalroute-processor"
  num_partitions : ℤ := 16
  batch_size_bytes : ℤ := 65536
  linger_ms : ℤ := 5

/-- `RedisConfig`. -/
structure RedisSection where
  addrs : String := "localhost:6379"
  pool_size : ℤ := 32
  connect_timeout_ms : ℤ := 1000
  read_timeout_ms : ℤ := 500
  key_prefix : String := "sr"
  device_ttl_s : ℤ := 3600

/-- `PostGISConfig`. -/
structure PostGISSection where
  dsn : String := ""
  pool_size : ℤ := 16
  write_batch_size : ℤ := 500
  write_flush_interval_ms : ℤ := 500
  query_timeout_ms : ℤ := 5000

/-- `ProcessorConfig`. -/
structure ProcessorSection where
  dedup_ttl_s : ℤ := 300
  dedup_max_entries : ℤ := 500000
  out_of_order_tolerance_s : ℤ := 60
  history_batch_size : ℤ := 500
  history_flush_interval_ms : ℤ := 500
  history_buffer_max_rows : ℤ := 10000
  redis_max_retries : ℤ := 3
  redis_backoff_max_ms : ℤ := 5000

/-- `GeofenceConfig`. -/
structure GeofenceSection where
  eval_enabled : Bool := true
  dwell_threshold_s : ℤ := 300
  max_fences : ℤ := 10000
  reload_interval_s : ℤ := 60

/-- `GatewayConfig`. -/
structure GatewaySection where
  max_batch_events : ℤ := 1000
  rate_limit_rps_per_device : ℤ := 100
  timestamp_skew_tolerance_s : ℤ := 30
  queue_full_timeout_ms : ℤ := 500
  auth_required : Bool := false
  api_key : String := ""
  max_in_flight_requests : ℤ := 0

/-- `MatchingConfig`. -/
structure MatchingSection where
  strategy_name : String := "default"
  request_topic : String := "sr.match.requests"
  result_topic : String := "sr.match.results"
  request_ttl_ms : ℤ := 5000

/-- `ThreadConfig`. -/
structure ThreadSection where
  io_threads : ℤ := 0
  processor_threads : ℤ := 0
  geofence_eval_threads : ℤ := 4
  blocking_pool_size : ℤ := 16

/-- `ObservabilityConfig`, with the switches of the two socket servers. -/
structure RuntimeObservability extends ObservabilitySection where
  metrics_exporter_enabled : Bool := false
  admin_socket_enabled : Bool := false

namespace ServerSection

/-- The part of `validate_config` that checks the section. -/
def validate (config : ServerSection) : Except Exception Unit := do
  require (config.role ∈ ["standalone", "gateway", "processor", "query", "geofence", "matcher"])
    ("server.role is not supported: " ++ config.role)
  require_non_empty config.listen_addr "server.listen_addr"
  require_port config.grpc_port "server.grpc_port"
  require_port config.udp_port "server.udp_port"

end ServerSection

namespace KafkaSection

/-- The part of `validate_config` that checks the section. -/
def validate (config : KafkaSection) : Except Exception Unit := do
  require_non_empty config.brokers "kafka.brokers"
  require_non_empty config.ingest_topic "kafka.ingest_topic"
  require_non_empty config.geofence_topic "kafka.geofence_topic"
  require_non_empty config.dlq_topic "kafka.dlq_topic"
  require_non_empty config.consumer_group "kafka.consumer_group"
  require_positive config.num_partitions "kafka.num_partitions"
  require_positive config.batch_size_bytes "kafka.batch_size_bytes"
  require_non_negative config.linger_ms "kafka.linger_ms"

end KafkaSection

namespace RedisSection

/-- The part of `validate_config` that checks the section. -/
def validate (config : RedisSection) : Except Exception Unit := do
  require_non_empty config.addrs "redis.addrs"
  require_positive config.pool_size "redis.pool_size"
  require_positive config.connect_timeout_ms "redis.connect_timeout_ms"
  require_positive config.read_timeout_ms "redis.read_timeout_ms"
  require_non_empty config.key_prefix "redis.key_prefix"
  require_positive config.device_ttl_s "redis.device_ttl_s"

end RedisSection

namespace PostGISSection

/-- The part of `validate_config` that checks the section. -/
def validate (config : PostGISSection) : Except Exception Unit := do
  require_non_empty config.dsn "postgis.dsn"
  require_positive config.pool_size "postgis.pool_size"
  require_positive config.write_batch_size "postgis.write_batch_size"
  require_positive config.write_flush_interval_ms "postgis.write_flush_interval_ms"
  require_positive config.query_timeout_ms "postgis.query_timeout_ms"

end PostGISSection

namespace ProcessorSection

/-- The part of `validate_config` that checks the section. -/
def validate (config : ProcessorSection) : Except Exception Unit := do
  require_positive config.dedup_ttl_s "processor.dedup_ttl_s"
  require_positive config.dedup_max_entries "processor.dedup_max_entries"
  require_non_negative config.out_of_order_tolerance_s "processor.out_of_order_tolerance_s"
  require_positive config.history_batch_size "processor.history_batch_size"
  require_positive config.history_flush_interval_ms "processor.history_flush_interval_ms"
  require_positive config.history_buffer_max_rows "processor.history_buffer_max_rows"
  require_non_negative config.redis_max_retries "processor.redis_max_retries"
  require_non_negative config.redis_backoff_max_ms "processor.redis_backoff_max_ms"

end ProcessorSection

namespace GeofenceSection

/-- The part of `validate_config` that checks the section. -/
def validate (config : GeofenceSection) : Except Exception Unit := do
  require_positive config.dwell_threshold_s "geofence.dwell_threshold_s"
  require_positive config.max_fences "geofence.max_fences"
  require_positive config.reload_interval_s "geofence.reload_interval_s"

end GeofenceSection

namespace GatewaySection

/-- The part of `validate_config` that checks the section. -/
def validate (config : GatewaySection) : Except Exception Unit := do
  require_positive config.max_batch_events "gateway.max_batch_events"
  require_positive config.rate_limit_rps_per_device "gateway.rate_limit_rps_per_device"
  require_non_negative config.timestamp_skew_tolerance_s "gateway.timestamp_skew_tolerance_s"
  require_positive config.queue_full_timeout_ms "gateway.queue_full_timeout_ms"
  if config.auth_required then
    require_non_empty config.api_key "gateway.api_key"
  require_non_negative config.max_in_flight_requests "gateway.max_in_flight_requests"

end GatewaySection

namespace MatchingSection

/-- The part of `validate_config` that checks the section. -/
def validate (config : MatchingSection) : Except Exception Unit := do
  require_non_empty config.strategy_name "matching.strategy_name"
  require_non_empty config.request_topic "matching.request_topic"
  require_non_empty config.result_topic "matching.result_topic"
  require_positive config.request_ttl_ms "matching.request_ttl_ms"

end MatchingSection

namespace ThreadSection

/-- The part of `validate_config` that checks the section. -/
def validate (config : ThreadSection) : Except Exception Unit := do
  require_non_negative config.io_threads "threads.io_threads"
  require_non_negative config.processor_threads "threads.processor_threads"
  require_positive config.geofence_eval_threads "threads.geofence_eval_threads"
  require_positive config.blocking_pool_size "threads.blocking_pool_size"

end ThreadSection

end Config

open Config in
/-- `Config`. -/
structure Config where
  server : ServerSection := {}
  kafka : KafkaSection := {}
  redis : RedisSection := {}
  postgis : PostGISSection := {}
  processor : ProcessorSection := {}
  spatial : SpatialSection := {}
  geofence : GeofenceSection := {}
  gateway : GatewaySection := {}
  matching : MatchingSection := {}
  threads : ThreadSection := {}
  observability : RuntimeObservability := {}

namespace Config

/-- `Config::validate`. -/
def validate (config : Config) : Except Exception Unit := do
  config.server.validate
  config.kafka.validate
  config.redis.validate
  config.postgis.validate
  config.processor.validate
  config.spatial.validate
  config.geofence.validate
  config.gateway.validate
  config.matching.validate
  config.threads.validate
  config.observability.toObservabilitySection.validate

/-- A valid configuration has valid sections; these are the two that the start of a service relies on. -/
theorem validate_sections {config : Config} (h : config.validate = .ok ()) :
    config.spatial.validate = .ok () ∧ config.observability.toObservabilitySection.validate = .ok () := by
  unfold validate at h
  simp only [seq_ok_iff] at h
  exact ⟨h.2.2.2.2.2.1, h.2.2.2.2.2.2.2.2.2.2⟩

/-- In every role the defaults pass all checks but one. -/
theorem validate_default {role : String}
    (hrole : role ∈ ["standalone", "gateway", "processor", "query", "geofence", "matcher"]) (dsn : String) :
    validate { server := { role := role }, postgis := { dsn := dsn } } =
      if dsn = "" then .error (.std "Invalid config: postgis.dsn must not be empty") else .ok () := by
  have hserver : ServerSection.validate { role := role } = .ok () := by
    simp only [ServerSection.validate, seq_ok_iff, require_ok_iff]
    exact ⟨hrole, rfl, rfl, rfl⟩
  by_cases h : dsn = ""
  · subst h
    unfold validate
    rw [hserver]
    rfl
  · have hdsn : PostGISSection.validate { dsn := dsn } = .ok () := by
      simp only [PostGISSection.validate, seq_ok_iff, require_non_empty, require_ok_iff]
      exact ⟨h, rfl, rfl, rfl, rfl⟩
    rw [if_neg h]
    simp only [validate, seq_ok_iff]
    exact ⟨hserver, rfl, rfl, hdsn, rfl, SpatialSection.validate_default, rfl, rfl, rfl, rfl, rfl⟩

end Config

end SignalRoute
