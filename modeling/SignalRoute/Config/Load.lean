import SignalRoute.Config.Strings
import SignalRoute.Config.Validate

/-!
# The loading of a configuration

`Config::load` of `src/common/config/config.cpp`: the file is parsed, each setting is read by its type or has its
default, and the whole is validated.

Every setting has its own section and key, its value is what the text of its key denotes, and without a text it is
the default (`load_ok_iff`, `Setting.reads_iff`). A string that is not read makes the loading fail, but what is read
need not be one string (`get_string_strict_iff`).
-/

namespace SignalRoute.Config

open Numeric (Double)
open Text (Escaping)

/-- `get_bool`. -/
def get_bool (sections : SectionMap) (section_ key : String) (fallback : Bool) (path : String) :
    Except Exception Bool :=
  match raw_value sections section_ key with
  | none => .ok fallback
  | some value =>
    if value = "true" then .ok true
    else if value = "false" then .ok false
    else .error (.std ("Config parse error in " ++ path ++ ": expected boolean for " ++ section_ ++ "." ++ key))

/-- `ServerConfig` as it is loaded. -/
structure LoadedServer extends ServerSection where
  tls_cert : String := ""
  tls_key : String := ""

/-- `ProcessorConfig` as it is loaded. -/
structure LoadedProcessor extends ProcessorSection where
  sequence_guard_enabled : Bool := true

/-- `ObservabilityConfig` as it is loaded. -/
structure LoadedObservability extends RuntimeObservability where
  admin_http_enabled : Bool := true
  admin_access_log_enabled : Bool := false
  require_kafka_readiness : Bool := false
  require_redis_readiness : Bool := false
  require_postgis_readiness : Bool := false
  require_h3_readiness : Bool := false

/-- The value of a setting, and its default. -/
inductive SettingValue where
  | string (value fallback : String)
  | int (value fallback : ℤ)
  | bool (value fallback : Bool)
  | double (value fallback : Double)

/-- A setting of a configuration. -/
structure Setting where
  section_ : String
  key : String
  value : SettingValue

/-- The setting is read from the sections. -/
def Setting.Reads (s : Setting) (sections : SectionMap) (path : String) : Prop :=
  match s.value with
  | .string value fallback => get_string sections s.section_ s.key fallback path = .ok value
  | .int value fallback => get_int sections s.section_ s.key fallback path = .ok value
  | .bool value fallback => get_bool sections s.section_ s.key fallback path = .ok value
  | .double value fallback => get_double sections s.section_ s.key fallback path = .ok value

/-- A computation that goes on after another one. -/
theorem bind_ok_iff {α β : Type} {x : Except Exception α} {f : α → Except Exception β} {b : β} :
    x >>= f = .ok b ↔ ∃ a, x = .ok a ∧ f a = .ok b := by
  cases x with
  | error e =>
    refine iff_of_false nofun ?_
    rintro ⟨a, h, -⟩
    cases h
  | ok a =>
    constructor
    · exact fun h => ⟨a, rfl, h⟩
    · rintro ⟨_, ⟨⟩, h⟩
      exact h

namespace LoadedServer

/-- The part of `Config::load` that reads the section. -/
def load (sections : SectionMap) (path : String) : Except Exception LoadedServer := do
  let config : LoadedServer := {}
  let role ← get_string sections "server" "role" config.role path
  let listen_addr ← get_string sections "server" "listen_addr" config.listen_addr path
  let grpc_port ← get_int sections "server" "grpc_port" config.grpc_port path
  let udp_port ← get_int sections "server" "udp_port" config.udp_port path
  let tls_cert ← get_string sections "server" "tls_cert" config.tls_cert path
  let tls_key ← get_string sections "server" "tls_key" config.tls_key path
  return { role, listen_addr, grpc_port, udp_port, tls_cert, tls_key }

/-- The settings of the section. -/
def settings (config : LoadedServer) : List Setting :=
  let fallback : LoadedServer := {}
  [⟨"server", "role", .string config.role fallback.role⟩,
    ⟨"server", "listen_addr", .string config.listen_addr fallback.listen_addr⟩,
    ⟨"server", "grpc_port", .int config.grpc_port fallback.grpc_port⟩,
    ⟨"server", "udp_port", .int config.udp_port fallback.udp_port⟩,
    ⟨"server", "tls_cert", .string config.tls_cert fallback.tls_cert⟩,
    ⟨"server", "tls_key", .string config.tls_key fallback.tls_key⟩]

/-- The section is read exactly if every setting is. -/
theorem load_ok_iff {sections : SectionMap} {path : String} (config : LoadedServer) :
    load sections path = .ok config ↔ ∀ s ∈ config.settings, s.Reads sections path := by
  unfold load settings
  simp only [List.forall_mem_cons, List.not_mem_nil, IsEmpty.forall_iff, implies_true, and_true, bind_ok_iff]
  constructor
  · rintro ⟨_, h1, _, h2, _, h3, _, h4, _, h5, _, h6, ⟨⟩⟩
    exact ⟨h1, h2, h3, h4, h5, h6⟩
  · rintro ⟨h1, h2, h3, h4, h5, h6⟩
    exact ⟨_, h1, _, h2, _, h3, _, h4, _, h5, _, h6, rfl⟩

end LoadedServer

namespace KafkaSection

/-- The part of `Config::load` that reads the section. -/
def load (sections : SectionMap) (path : String) : Except Exception KafkaSection := do
  let config : KafkaSection := {}
  let brokers ← get_string sections "kafka" "brokers" config.brokers path
  let ingest_topic ← get_string sections "kafka" "ingest_topic" config.ingest_topic path
  let geofence_topic ← get_string sections "kafka" "geofence_topic" config.geofence_topic path
  let dlq_topic ← get_string sections "kafka" "dlq_topic" config.dlq_topic path
  let consumer_group ← get_string sections "kafka" "consumer_group" config.consumer_group path
  let num_partitions ← get_int sections "kafka" "num_partitions" config.num_partitions path
  let batch_size_bytes ← get_int sections "kafka" "batch_size_bytes" config.batch_size_bytes path
  let linger_ms ← get_int sections "kafka" "linger_ms" config.linger_ms path
  return { brokers, ingest_topic, geofence_topic, dlq_topic, consumer_group, num_partitions, batch_size_bytes,
           linger_ms }

/-- The settings of the section. -/
def settings (config : KafkaSection) : List Setting :=
  let fallback : KafkaSection := {}
  [⟨"kafka", "brokers", .string config.brokers fallback.brokers⟩,
    ⟨"kafka", "ingest_topic", .string config.ingest_topic fallback.ingest_topic⟩,
    ⟨"kafka", "geofence_topic", .string config.geofence_topic fallback.geofence_topic⟩,
    ⟨"kafka", "dlq_topic", .string config.dlq_topic fallback.dlq_topic⟩,
    ⟨"kafka", "consumer_group", .string config.consumer_group fallback.consumer_group⟩,
    ⟨"kafka", "num_partitions", .int config.num_partitions fallback.num_partitions⟩,
    ⟨"kafka", "batch_size_bytes", .int config.batch_size_bytes fallback.batch_size_bytes⟩,
    ⟨"kafka", "linger_ms", .int config.linger_ms fallback.linger_ms⟩]

/-- The section is read exactly if every setting is. -/
theorem load_ok_iff {sections : SectionMap} {path : String} (config : KafkaSection) :
    load sections path = .ok config ↔ ∀ s ∈ config.settings, s.Reads sections path := by
  unfold load settings
  simp only [List.forall_mem_cons, List.not_mem_nil, IsEmpty.forall_iff, implies_true, and_true, bind_ok_iff]
  constructor
  · rintro ⟨_, h1, _, h2, _, h3, _, h4, _, h5, _, h6, _, h7, _, h8, ⟨⟩⟩
    exact ⟨h1, h2, h3, h4, h5, h6, h7, h8⟩
  · rintro ⟨h1, h2, h3, h4, h5, h6, h7, h8⟩
    exact ⟨_, h1, _, h2, _, h3, _, h4, _, h5, _, h6, _, h7, _, h8, rfl⟩

end KafkaSection

namespace RedisSection

/-- The part of `Config::load` that reads the section. -/
def load (sections : SectionMap) (path : String) : Except Exception RedisSection := do
  let config : RedisSection := {}
  let addrs ← get_string sections "redis" "addrs" config.addrs path
  let pool_size ← get_int sections "redis" "pool_size" config.pool_size path
  let connect_timeout_ms ← get_int sections "redis" "connect_timeout_ms" config.connect_timeout_ms path
  let read_timeout_ms ← get_int sections "redis" "read_timeout_ms" config.read_timeout_ms path
  let key_prefix ← get_string sections "redis" "key_prefix" config.key_prefix path
  let device_ttl_s ← get_int sections "redis" "device_ttl_s" config.device_ttl_s path
  return { addrs, pool_size, connect_timeout_ms, read_timeout_ms, key_prefix, device_ttl_s }

/-- The settings of the section. -/
def settings (config : RedisSection) : List Setting :=
  let fallback : RedisSection := {}
  [⟨"redis", "addrs", .string config.addrs fallback.addrs⟩,
    ⟨"redis", "pool_size", .int config.pool_size fallback.pool_size⟩,
    ⟨"redis", "connect_timeout_ms", .int config.connect_timeout_ms fallback.connect_timeout_ms⟩,
    ⟨"redis", "read_timeout_ms", .int config.read_timeout_ms fallback.read_timeout_ms⟩,
    ⟨"redis", "key_prefix", .string config.key_prefix fallback.key_prefix⟩,
    ⟨"redis", "device_ttl_s", .int config.device_ttl_s fallback.device_ttl_s⟩]

/-- The section is read exactly if every setting is. -/
theorem load_ok_iff {sections : SectionMap} {path : String} (config : RedisSection) :
    load sections path = .ok config ↔ ∀ s ∈ config.settings, s.Reads sections path := by
  unfold load settings
  simp only [List.forall_mem_cons, List.not_mem_nil, IsEmpty.forall_iff, implies_true, and_true, bind_ok_iff]
  constructor
  · rintro ⟨_, h1, _, h2, _, h3, _, h4, _, h5, _, h6, ⟨⟩⟩
    exact ⟨h1, h2, h3, h4, h5, h6⟩
  · rintro ⟨h1, h2, h3, h4, h5, h6⟩
    exact ⟨_, h1, _, h2, _, h3, _, h4, _, h5, _, h6, rfl⟩

end RedisSection

namespace PostGISSection

/-- The part of `Config::load` that reads the section. -/
def load (sections : SectionMap) (path : String) : Except Exception PostGISSection := do
  let config : PostGISSection := {}
  let dsn ← get_string sections "postgis" "dsn" config.dsn path
  let pool_size ← get_int sections "postgis" "pool_size" config.pool_size path
  let write_batch_size ← get_int sections "postgis" "write_batch_size" config.write_batch_size path
  let write_flush_interval_ms ←
    get_int sections "postgis" "write_flush_interval_ms" config.write_flush_interval_ms path
  let query_timeout_ms ← get_int sections "postgis" "query_timeout_ms" config.query_timeout_ms path
  return { dsn, pool_size, write_batch_size, write_flush_interval_ms, query_timeout_ms }

/-- The settings of the section. -/
def settings (config : PostGISSection) : List Setting :=
  let fallback : PostGISSection := {}
  [⟨"postgis", "dsn", .string config.dsn fallback.dsn⟩,
    ⟨"postgis", "pool_size", .int config.pool_size fallback.pool_size⟩,
    ⟨"postgis", "write_batch_size", .int config.write_batch_size fallback.write_batch_size⟩,
    ⟨"postgis", "write_flush_interval_ms", .int config.write_flush_interval_ms fallback.write_flush_interval_ms⟩,
    ⟨"postgis", "query_timeout_ms", .int config.query_timeout_ms fallback.query_timeout_ms⟩]

/-- The section is read exactly if every setting is. -/
theorem load_ok_iff {sections : SectionMap} {path : String} (config : PostGISSection) :
    load sections path = .ok config ↔ ∀ s ∈ config.settings, s.Reads sections path := by
  unfold load settings
  simp only [List.forall_mem_cons, List.not_mem_nil, IsEmpty.forall_iff, implies_true, and_true, bind_ok_iff]
  constructor
  · rintro ⟨_, h1, _, h2, _, h3, _, h4, _, h5, ⟨⟩⟩
    exact ⟨h1, h2, h3, h4, h5⟩
  · rintro ⟨h1, h2, h3, h4, h5⟩
    exact ⟨_, h1, _, h2, _, h3, _, h4, _, h5, rfl⟩

end PostGISSection

namespace LoadedProcessor

/-- The part of `Config::load` that reads the section. -/
def load (sections : SectionMap) (path : String) : Except Exception LoadedProcessor := do
  let config : LoadedProcessor := {}
  let dedup_ttl_s ← get_int sections "processor" "dedup_ttl_s" config.dedup_ttl_s path
  let dedup_max_entries ← get_int sections "processor" "dedup_max_entries" config.dedup_max_entries path
  let sequence_guard_enabled ←
    get_bool sections "processor" "sequence_guard_enabled" config.sequence_guard_enabled path
  let out_of_order_tolerance_s ←
    get_int sections "processor" "out_of_order_tolerance_s" config.out_of_order_tolerance_s path
  let history_batch_size ← get_int sections "processor" "history_batch_size" config.history_batch_size path
  let history_flush_interval_ms ←
    get_int sections "processor" "history_flush_interval_ms" config.history_flush_interval_ms path
  let history_buffer_max_rows ←
    get_int sections "processor" "history_buffer_max_rows" config.history_buffer_max_rows path
  let redis_max_retries ← get_int sections "processor" "redis_max_retries" config.redis_max_retries path
  let redis_backoff_max_ms ← get_int sections "processor" "redis_backoff_max_ms" config.redis_backoff_max_ms path
  return { dedup_ttl_s, dedup_max_entries, sequence_guard_enabled, out_of_order_tolerance_s, history_batch_size,
           history_flush_interval_ms, history_buffer_max_rows, redis_max_retries, redis_backoff_max_ms }

/-- The settings of the section. -/
def settings (config : LoadedProcessor) : List Setting :=
  let fallback : LoadedProcessor := {}
  [⟨"processor", "dedup_ttl_s", .int config.dedup_ttl_s fallback.dedup_ttl_s⟩,
    ⟨"processor", "dedup_max_entries", .int config.dedup_max_entries fallback.dedup_max_entries⟩,
    ⟨"processor", "sequence_guard_enabled", .bool config.sequence_guard_enabled fallback.sequence_guard_enabled⟩,
    ⟨"processor", "out_of_order_tolerance_s",
      .int config.out_of_order_tolerance_s fallback.out_of_order_tolerance_s⟩,
    ⟨"processor", "history_batch_size", .int config.history_batch_size fallback.history_batch_size⟩,
    ⟨"processor", "history_flush_interval_ms",
      .int config.history_flush_interval_ms fallback.history_flush_interval_ms⟩,
    ⟨"processor", "history_buffer_max_rows", .int config.history_buffer_max_rows fallback.history_buffer_max_rows⟩,
    ⟨"processor", "redis_max_retries", .int config.redis_max_retries fallback.redis_max_retries⟩,
    ⟨"processor", "redis_backoff_max_ms", .int config.redis_backoff_max_ms fallback.redis_backoff_max_ms⟩]

/-- The section is read exactly if every setting is. -/
theorem load_ok_iff {sections : SectionMap} {path : String} (config : LoadedProcessor) :
    load sections path = .ok config ↔ ∀ s ∈ config.settings, s.Reads sections path := by
  unfold load settings
  simp only [List.forall_mem_cons, List.not_mem_nil, IsEmpty.forall_iff, implies_true, and_true, bind_ok_iff]
  constructor
  · rintro ⟨_, h1, _, h2, _, h3, _, h4, _, h5, _, h6, _, h7, _, h8, _, h9, ⟨⟩⟩
    exact ⟨h1, h2, h3, h4, h5, h6, h7, h8, h9⟩
  · rintro ⟨h1, h2, h3, h4, h5, h6, h7, h8, h9⟩
    exact ⟨_, h1, _, h2, _, h3, _, h4, _, h5, _, h6, _, h7, _, h8, _, h9, rfl⟩

end LoadedProcessor

namespace SpatialSection

/-- The settings of the section. -/
def settings (config : SpatialSection) : List Setting :=
  let fallback : SpatialSection := {}
  [⟨"spatial", "h3_resolution", .int config.h3_resolution fallback.h3_resolution⟩,
    ⟨"spatial", "nearby_max_results", .int config.nearby_max_results fallback.nearby_max_results⟩,
    ⟨"spatial", "nearby_max_radius_m", .double config.nearby_max_radius_m fallback.nearby_max_radius_m⟩,
    ⟨"spatial", "h3_cache_size_mb", .int config.h3_cache_size_mb fallback.h3_cache_size_mb⟩]

/-- The section is read exactly if every setting is. -/
theorem load_ok_iff {sections : SectionMap} {path : String} (config : SpatialSection) :
    load sections path = .ok config ↔ ∀ s ∈ config.settings, s.Reads sections path := by
  unfold load settings
  simp only [List.forall_mem_cons, List.not_mem_nil, IsEmpty.forall_iff, implies_true, and_true, bind_ok_iff]
  constructor
  · rintro ⟨_, h1, _, h2, _, h3, _, h4, ⟨⟩⟩
    exact ⟨h1, h2, h3, h4⟩
  · rintro ⟨h1, h2, h3, h4⟩
    exact ⟨_, h1, _, h2, _, h3, _, h4, rfl⟩

end SpatialSection

namespace GeofenceSection

/-- The part of `Config::load` that reads the section. -/
def load (sections : SectionMap) (path : String) : Except Exception GeofenceSection := do
  let config : GeofenceSection := {}
  let eval_enabled ← get_bool sections "geofence" "eval_enabled" config.eval_enabled path
  let dwell_threshold_s ← get_int sections "geofence" "dwell_threshold_s" config.dwell_threshold_s path
  let max_fences ← get_int sections "geofence" "max_fences" config.max_fences path
  let reload_interval_s ← get_int sections "geofence" "reload_interval_s" config.reload_interval_s path
  return { eval_enabled, dwell_threshold_s, max_fences, reload_interval_s }

/-- The settings of the section. -/
def settings (config : GeofenceSection) : List Setting :=
  let fallback : GeofenceSection := {}
  [⟨"geofence", "eval_enabled", .bool config.eval_enabled fallback.eval_enabled⟩,
    ⟨"geofence", "dwell_threshold_s", .int config.dwell_threshold_s fallback.dwell_threshold_s⟩,
    ⟨"geofence", "max_fences", .int config.max_fences fallback.max_fences⟩,
    ⟨"geofence", "reload_interval_s", .int config.reload_interval_s fallback.reload_interval_s⟩]

/-- The section is read exactly if every setting is. -/
theorem load_ok_iff {sections : SectionMap} {path : String} (config : GeofenceSection) :
    load sections path = .ok config ↔ ∀ s ∈ config.settings, s.Reads sections path := by
  unfold load settings
  simp only [List.forall_mem_cons, List.not_mem_nil, IsEmpty.forall_iff, implies_true, and_true, bind_ok_iff]
  constructor
  · rintro ⟨_, h1, _, h2, _, h3, _, h4, ⟨⟩⟩
    exact ⟨h1, h2, h3, h4⟩
  · rintro ⟨h1, h2, h3, h4⟩
    exact ⟨_, h1, _, h2, _, h3, _, h4, rfl⟩

end GeofenceSection

namespace GatewaySection

/-- The part of `Config::load` that reads the section. -/
def load (sections : SectionMap) (path : String) : Except Exception GatewaySection := do
  let config : GatewaySection := {}
  let max_batch_events ← get_int sections "gateway" "max_batch_events" config.max_batch_events path
  let rate_limit_rps_per_device ←
    get_int sections "gateway" "rate_limit_rps_per_device" config.rate_limit_rps_per_device path
  let timestamp_skew_tolerance_s ←
    get_int sections "gateway" "timestamp_skew_tolerance_s" config.timestamp_skew_tolerance_s path
  let queue_full_timeout_ms ← get_int sections "gateway" "queue_full_timeout_ms" config.queue_full_timeout_ms path
  let auth_required ← get_bool sections "gateway" "auth_required" config.auth_required path
  let api_key ← get_string sections "gateway" "api_key" config.api_key path
  let max_in_flight_requests ← get_int sections "gateway" "max_in_flight_requests" config.max_in_flight_requests path
  return { max_batch_events, rate_limit_rps_per_device, timestamp_skew_tolerance_s, queue_full_timeout_ms,
           auth_required, api_key, max_in_flight_requests }

/-- The settings of the section. -/
def settings (config : GatewaySection) : List Setting :=
  let fallback : GatewaySection := {}
  [⟨"gateway", "max_batch_events", .int config.max_batch_events fallback.max_batch_events⟩,
    ⟨"gateway", "rate_limit_rps_per_device",
      .int config.rate_limit_rps_per_device fallback.rate_limit_rps_per_device⟩,
    ⟨"gateway", "timestamp_skew_tolerance_s",
      .int config.timestamp_skew_tolerance_s fallback.timestamp_skew_tolerance_s⟩,
    ⟨"gateway", "queue_full_timeout_ms", .int config.queue_full_timeout_ms fallback.queue_full_timeout_ms⟩,
    ⟨"gateway", "auth_required", .bool config.auth_required fallback.auth_required⟩,
    ⟨"gateway", "api_key", .string config.api_key fallback.api_key⟩,
    ⟨"gateway", "max_in_flight_requests", .int config.max_in_flight_requests fallback.max_in_flight_requests⟩]

/-- The section is read exactly if every setting is. -/
theorem load_ok_iff {sections : SectionMap} {path : String} (config : GatewaySection) :
    load sections path = .ok config ↔ ∀ s ∈ config.settings, s.Reads sections path := by
  unfold load settings
  simp only [List.forall_mem_cons, List.not_mem_nil, IsEmpty.forall_iff, implies_true, and_true, bind_ok_iff]
  constructor
  · rintro ⟨_, h1, _, h2, _, h3, _, h4, _, h5, _, h6, _, h7, ⟨⟩⟩
    exact ⟨h1, h2, h3, h4, h5, h6, h7⟩
  · rintro ⟨h1, h2, h3, h4, h5, h6, h7⟩
    exact ⟨_, h1, _, h2, _, h3, _, h4, _, h5, _, h6, _, h7, rfl⟩

end GatewaySection

namespace MatchingSection

/-- The part of `Config::load` that reads the section. -/
def load (sections : SectionMap) (path : String) : Except Exception MatchingSection := do
  let config : MatchingSection := {}
  let strategy_name ← get_string sections "matching" "strategy_name" config.strategy_name path
  let request_topic ← get_string sections "matching" "request_topic" config.request_topic path
  let result_topic ← get_string sections "matching" "result_topic" config.result_topic path
  let request_ttl_ms ← get_int sections "matching" "request_ttl_ms" config.request_ttl_ms path
  return { strategy_name, request_topic, result_topic, request_ttl_ms }

/-- The settings of the section. -/
def settings (config : MatchingSection) : List Setting :=
  let fallback : MatchingSection := {}
  [⟨"matching", "strategy_name", .string config.strategy_name fallback.strategy_name⟩,
    ⟨"matching", "request_topic", .string config.request_topic fallback.request_topic⟩,
    ⟨"matching", "result_topic", .string config.result_topic fallback.result_topic⟩,
    ⟨"matching", "request_ttl_ms", .int config.request_ttl_ms fallback.request_ttl_ms⟩]

/-- The section is read exactly if every setting is. -/
theorem load_ok_iff {sections : SectionMap} {path : String} (config : MatchingSection) :
    load sections path = .ok config ↔ ∀ s ∈ config.settings, s.Reads sections path := by
  unfold load settings
  simp only [List.forall_mem_cons, List.not_mem_nil, IsEmpty.forall_iff, implies_true, and_true, bind_ok_iff]
  constructor
  · rintro ⟨_, h1, _, h2, _, h3, _, h4, ⟨⟩⟩
    exact ⟨h1, h2, h3, h4⟩
  · rintro ⟨h1, h2, h3, h4⟩
    exact ⟨_, h1, _, h2, _, h3, _, h4, rfl⟩

end MatchingSection

namespace ThreadSection

/-- The part of `Config::load` that reads the section. -/
def load (sections : SectionMap) (path : String) : Except Exception ThreadSection := do
  let config : ThreadSection := {}
  let io_threads ← get_int sections "threads" "io_threads" config.io_threads path
  let processor_threads ← get_int sections "threads" "processor_threads" config.processor_threads path
  let geofence_eval_threads ← get_int sections "threads" "geofence_eval_threads" config.geofence_eval_threads path
  let blocking_pool_size ← get_int sections "threads" "blocking_pool_size" config.blocking_pool_size path
  return { io_threads, processor_threads, geofence_eval_threads, blocking_pool_size }

/-- The settings of the section. -/
def settings (config : ThreadSection) : List Setting :=
  let fallback : ThreadSection := {}
  [⟨"threads", "io_threads", .int config.io_threads fallback.io_threads⟩,
    ⟨"threads", "processor_threads", .int config.processor_threads fallback.processor_threads⟩,
    ⟨"threads", "geofence_eval_threads", .int config.geofence_eval_threads fallback.geofence_eval_threads⟩,
    ⟨"threads", "blocking_pool_size", .int config.blocking_pool_size fallback.blocking_pool_size⟩]

/-- The section is read exactly if every setting is. -/
theorem load_ok_iff {sections : SectionMap} {path : String} (config : ThreadSection) :
    load sections path = .ok config ↔ ∀ s ∈ config.settings, s.Reads sections path := by
  unfold load settings
  simp only [List.forall_mem_cons, List.not_mem_nil, IsEmpty.forall_iff, implies_true, and_true, bind_ok_iff]
  constructor
  · rintro ⟨_, h1, _, h2, _, h3, _, h4, ⟨⟩⟩
    exact ⟨h1, h2, h3, h4⟩
  · rintro ⟨h1, h2, h3, h4⟩
    exact ⟨_, h1, _, h2, _, h3, _, h4, rfl⟩

end ThreadSection

namespace LoadedObservability

/-- The part of `Config::load` that reads the section. -/
def load (sections : SectionMap) (path : String) : Except Exception LoadedObservability := do
  let config : LoadedObservability := {}
  let metrics_addr ← get_string sections "observability" "metrics_addr" config.metrics_addr path
  let metrics_port ← get_int sections "observability" "metrics_port" config.metrics_port path
  let metrics_path ← get_string sections "observability" "metrics_path" config.metrics_path path
  let metrics_exporter_enabled ←
    get_bool sections "observability" "metrics_exporter_enabled" config.metrics_exporter_enabled path
  let log_level ← get_string sections "observability" "log_level" config.log_level path
  let admin_http_enabled ← get_bool sections "observability" "admin_http_enabled" config.admin_http_enabled path
  let admin_socket_enabled ← get_bool sections "observability" "admin_socket_enabled" config.admin_socket_enabled path
  let admin_socket_addr ← get_string sections "observability" "admin_socket_addr" config.admin_socket_addr path
  let admin_socket_port ← get_int sections "observability" "admin_socket_port" config.admin_socket_port path
  let admin_socket_backlog ← get_int sections "observability" "admin_socket_backlog" config.admin_socket_backlog path
  let admin_request_timeout_ms ←
    get_int sections "observability" "admin_request_timeout_ms" config.admin_request_timeout_ms path
  let admin_max_request_bytes ←
    get_int sections "observability" "admin_max_request_bytes" config.admin_max_request_bytes path
  let admin_access_log_enabled ←
    get_bool sections "observability" "admin_access_log_enabled" config.admin_access_log_enabled path
  let health_path ← get_string sections "observability" "health_path" config.health_path path
  let readiness_path ← get_string sections "observability" "readiness_path" config.readiness_path path
  let require_kafka_readiness ←
    get_bool sections "observability" "require_kafka_readiness" config.require_kafka_readiness path
  let require_redis_readiness ←
    get_bool sections "observability" "require_redis_readiness" config.require_redis_readiness path
  let require_postgis_readiness ←
    get_bool sections "observability" "require_postgis_readiness" config.require_postgis_readiness path
  let require_h3_readiness ← get_bool sections "observability" "require_h3_readiness" config.require_h3_readiness path
  return { metrics_addr, metrics_port, metrics_path, metrics_exporter_enabled, log_level, admin_http_enabled,
           admin_socket_enabled, admin_socket_addr, admin_socket_port, admin_socket_backlog,
           admin_request_timeout_ms, admin_max_request_bytes, admin_access_log_enabled, health_path, readiness_path,
           require_kafka_readiness, require_redis_readiness, require_postgis_readiness, require_h3_readiness }

/-- The settings of the section. -/
def settings (config : LoadedObservability) : List Setting :=
  let fallback : LoadedObservability := {}
  [⟨"observability", "metrics_addr", .string config.metrics_addr fallback.metrics_addr⟩,
    ⟨"observability", "metrics_port", .int config.metrics_port fallback.metrics_port⟩,
    ⟨"observability", "metrics_path", .string config.metrics_path fallback.metrics_path⟩,
    ⟨"observability", "metrics_exporter_enabled",
      .bool config.metrics_exporter_enabled fallback.metrics_exporter_enabled⟩,
    ⟨"observability", "log_level", .string config.log_level fallback.log_level⟩,
    ⟨"observability", "admin_http_enabled", .bool config.admin_http_enabled fallback.admin_http_enabled⟩,
    ⟨"observability", "admin_socket_enabled", .bool config.admin_socket_enabled fallback.admin_socket_enabled⟩,
    ⟨"observability", "admin_socket_addr", .string config.admin_socket_addr fallback.admin_socket_addr⟩,
    ⟨"observability", "admin_socket_port", .int config.admin_socket_port fallback.admin_socket_port⟩,
    ⟨"observability", "admin_socket_backlog", .int config.admin_socket_backlog fallback.admin_socket_backlog⟩,
    ⟨"observability", "admin_request_timeout_ms",
      .int config.admin_request_timeout_ms fallback.admin_request_timeout_ms⟩,
    ⟨"observability", "admin_max_request_bytes",
      .int config.admin_max_request_bytes fallback.admin_max_request_bytes⟩,
    ⟨"observability", "admin_access_log_enabled",
      .bool config.admin_access_log_enabled fallback.admin_access_log_enabled⟩,
    ⟨"observability", "health_path", .string config.health_path fallback.health_path⟩,
    ⟨"observability", "readiness_path", .string config.readiness_path fallback.readiness_path⟩,
    ⟨"observability", "require_kafka_readiness",
      .bool config.require_kafka_readiness fallback.require_kafka_readiness⟩,
    ⟨"observability", "require_redis_readiness",
      .bool config.require_redis_readiness fallback.require_redis_readiness⟩,
    ⟨"observability", "require_postgis_readiness",
      .bool config.require_postgis_readiness fallback.require_postgis_readiness⟩,
    ⟨"observability", "require_h3_readiness", .bool config.require_h3_readiness fallback.require_h3_readiness⟩]

/-- The section is read exactly if every setting is. -/
theorem load_ok_iff {sections : SectionMap} {path : String} (config : LoadedObservability) :
    load sections path = .ok config ↔ ∀ s ∈ config.settings, s.Reads sections path := by
  unfold load settings
  simp only [List.forall_mem_cons, List.not_mem_nil, IsEmpty.forall_iff, implies_true, and_true, bind_ok_iff]
  constructor
  · rintro ⟨_, h1, _, h2, _, h3, _, h4, _, h5, _, h6, _, h7, _, h8, _, h9, _, h10, _, h11, _, h12, _, h13, _, h14,
      _, h15, _, h16, _, h17, _, h18, _, h19, ⟨⟩⟩
    exact ⟨h1, h2, h3, h4, h5, h6, h7, h8, h9, h10, h11, h12, h13, h14, h15, h16, h17, h18, h19⟩
  · rintro ⟨h1, h2, h3, h4, h5, h6, h7, h8, h9, h10, h11, h12, h13, h14, h15, h16, h17, h18, h19⟩
    exact ⟨_, h1, _, h2, _, h3, _, h4, _, h5, _, h6, _, h7, _, h8, _, h9, _, h10, _, h11, _, h12, _, h13, _, h14,
      _, h15, _, h16, _, h17, _, h18, _, h19, rfl⟩

end LoadedObservability
/-- `Config` as it is loaded. -/
structure LoadedConfig where
  server : LoadedServer := {}
  kafka : KafkaSection := {}
  redis : RedisSection := {}
  postgis : PostGISSection := {}
  processor : LoadedProcessor := {}
  spatial : SpatialSection := {}
  geofence : GeofenceSection := {}
  gateway : GatewaySection := {}
  matching : MatchingSection := {}
  threads : ThreadSection := {}
  observability : LoadedObservability := {}

/-- The part of it that is validated. -/
def LoadedConfig.toConfig (config : LoadedConfig) : Config where
  server := config.server.toServerSection
  kafka := config.kafka
  redis := config.redis
  postgis := config.postgis
  processor := config.processor.toProcessorSection
  spatial := config.spatial
  geofence := config.geofence
  gateway := config.gateway
  matching := config.matching
  threads := config.threads
  observability := config.observability.toRuntimeObservability

/-- `Config::load`. -/
def load (path : String) (file : Option (List Char)) : Except Exception LoadedConfig := do
  let sections ← parse_file path file
  let server ← LoadedServer.load sections path
  let kafka ← KafkaSection.load sections path
  let redis ← RedisSection.load sections path
  let postgis ← PostGISSection.load sections path
  let processor ← LoadedProcessor.load sections path
  let spatial ← SpatialSection.load sections path
  let geofence ← GeofenceSection.load sections path
  let gateway ← GatewaySection.load sections path
  let matching ← MatchingSection.load sections path
  let threads ← ThreadSection.load sections path
  let observability ← LoadedObservability.load sections path
  let config : LoadedConfig :=
    { server, kafka, redis, postgis, processor, spatial, geofence, gateway, matching, threads, observability }
  config.toConfig.validate
  return config

/-- All settings. -/
def LoadedConfig.settings (config : LoadedConfig) : List Setting :=
  config.server.settings ++ (config.kafka.settings ++ (config.redis.settings ++ (config.postgis.settings ++
    (config.processor.settings ++ (config.spatial.settings ++ (config.geofence.settings ++
    (config.gateway.settings ++ (config.matching.settings ++ (config.threads.settings ++
    config.observability.settings)))))))))

/-- A file loads as a configuration exactly if it is parsed, every setting is read, and the configuration is valid. -/
theorem load_ok_iff {path : String} {file : Option (List Char)} (config : LoadedConfig) :
    load path file = .ok config ↔ ∃ sections, parse_file path file = .ok sections ∧
      (∀ s ∈ config.settings, s.Reads sections path) ∧ config.toConfig.validate = .ok () := by
  unfold load LoadedConfig.settings
  simp only [bind_ok_iff, List.forall_mem_append, ← LoadedServer.load_ok_iff, ← KafkaSection.load_ok_iff,
    ← RedisSection.load_ok_iff, ← PostGISSection.load_ok_iff, ← LoadedProcessor.load_ok_iff,
    ← SpatialSection.load_ok_iff, ← GeofenceSection.load_ok_iff, ← GatewaySection.load_ok_iff,
    ← MatchingSection.load_ok_iff, ← ThreadSection.load_ok_iff, ← LoadedObservability.load_ok_iff]
  refine exists_congr fun sections => and_congr_right fun _ => ?_
  constructor
  · rintro ⟨_, h1, _, h2, _, h3, _, h4, _, h5, _, h6, _, h7, _, h8, _, h9, _, h10, _, h11, _, hvalid, ⟨⟩⟩
    exact ⟨⟨h1, h2, h3, h4, h5, h6, h7, h8, h9, h10, h11⟩, hvalid⟩
  · rintro ⟨⟨h1, h2, h3, h4, h5, h6, h7, h8, h9, h10, h11⟩, hvalid⟩
    exact ⟨_, h1, _, h2, _, h3, _, h4, _, h5, _, h6, _, h7, _, h8, _, h9, _, h10, _, h11, _, hvalid, rfl⟩

section Strings

variable {path : String} {before after : List (List Char)} {p : Parsed} {line text : List Char}
  {entry : String × String × String}

/-- The strings among the settings are the keys that are read as strings, with their defaults. -/
theorem string_settings (config : LoadedConfig) :
    (config.settings.filterMap fun s => match s.value with
      | .string _ fallback => some (s.section_, s.key, fallback)
      | _ => none) = string_keys := rfl

/-- A string that is not read stops the loading. -/
theorem load_of_error {file : Option (List Char)} (hentry : entry ∈ string_keys)
    (h : ¬∃ sections v, parse_file path file = .ok sections ∧
      get_string sections entry.1 entry.2.1 entry.2.2 path = .ok v) :
    ∃ e, load path file = .error e := by
  cases hload : load path file with
  | error e => exact ⟨e, rfl⟩
  | ok config =>
    obtain ⟨sections, hfile, hreads, -⟩ := (load_ok_iff config).mp hload
    rw [← string_settings config, List.mem_filterMap] at hentry
    obtain ⟨⟨section_, key, value⟩, hmem, hvalue⟩ := hentry
    cases value with
    | string value fallback =>
      cases hvalue
      exact absurd ⟨sections, value, hfile, hreads _ hmem⟩ h
    | int => cases hvalue
    | bool => cases hvalue
    | double => cases hvalue

/-- A value of a key that is read as a string is accepted exactly if it is one well-formed quoted string, and
else the loading fails, exactly if it has no stray quote. -/
theorem get_string_strict_iff (hentry : entry ∈ string_keys) (htext : Text.lines text = before ++ line :: after)
    (hbefore : parse_lines path 0 {} before = .ok p) (hsection : p.current_section = entry.1)
    (hline : line_key line = some entry.2.1)
    (hafter : ∀ p', parse_line path (before.length + 1) p line = .ok p' →
      Unassigned path entry.1 entry.2.1 (before.length + 1) p' after ∧
        ∃ last, parse_lines path (before.length + 1) p' after = .ok last) :
    ((∃ sections v, parse_file path (some text) = .ok sections ∧
        get_string sections entry.1 entry.2.1 entry.2.2 path = .ok v) ↔
          WellFormed (value_of (trim (strip_comment line)))) ∧
      (¬WellFormed (value_of (trim (strip_comment line))) → ∃ e, load path (some text) = .error e) ↔
    ¬StrayQuote (value_of (trim (strip_comment line))) := by
  have hread := get_string_line_iff hentry htext hbefore hsection hline hafter
  rw [hread]
  refine Iff.trans (and_iff_left_of_imp fun hiff hmalformed => ?_) (exists_unquote_iff _)
  exact load_of_error hentry fun hloaded => hmalformed (hiff.mp (hread.mp hloaded))

end Strings

/-- A file with one string for the gateway's key. -/
def api_key_line (value : List Char) : List Char := ['a', 'p', 'i', '_', 'k', 'e', 'y', '='] ++ value

/-- Its section header. -/
def gateway_line : List Char := ['[', 'g', 'a', 't', 'e', 'w', 'a', 'y', ']']

/-- The state after the header. -/
def in_gateway : Parsed := ⟨AList.insert "gateway" ∅ ∅, "gateway"⟩

/-- A key in quotes is read. -/
theorem get_string_strict_key : (∃ sections v,
    parse_file "f" (some (gateway_line ++ '\n' :: api_key_line ['"', 'k', '"'])) = .ok sections ∧
      get_string sections "gateway" "api_key" "" "f" = .ok v) := by
  have hline : ∀ p', parse_line "f" 2 in_gateway (api_key_line ['"', 'k', '"']) = .ok p' →
      Unassigned "f" "gateway" "api_key" 2 p' [] ∧ ∃ last, parse_lines "f" 2 p' [] = .ok last :=
    fun p' _ => ⟨trivial, p', rfl⟩
  have hentry : ("gateway", "api_key", "") ∈ string_keys := by simp [string_keys]
  have hstrict := (@get_string_strict_iff "f" [gateway_line] [] in_gateway (api_key_line ['"', 'k', '"'])
    (gateway_line ++ '\n' :: api_key_line ['"', 'k', '"']) _ hentry rfl rfl rfl rfl hline).mpr ?_
  · exact hstrict.1.mpr ⟨['k'], rfl, .plain (by decide) (by decide) .nil⟩
  · rintro ⟨a, b, heq, -, -⟩
    have hvalue : value_of (trim (strip_comment (api_key_line ['"', 'k', '"']))) = ['"', 'k', '"'] := rfl
    rw [hvalue] at heq
    have hlength := congrArg List.length heq
    simp only [List.length_cons, List.length_append, List.length_nil] at hlength
    have ha : a.length = 0 := by omega
    have hb : b.length = 0 := by omega
    rw [List.length_eq_zero_iff.mp ha, List.length_eq_zero_iff.mp hb] at heq
    cases heq

/-- Two strings on a line are read as one, and the file that has them loads. -/
theorem two_strings_read :
    (∃ sections, parse_file "f" (some (gateway_line ++ '\n' :: api_key_line ['"', 'a', '"', ' ', '"', 'b', '"'])) =
        .ok sections ∧
      get_string sections "gateway" "api_key" "" "f" = .ok (String.ofList ['a', '"', ' ', '"', 'b'])) ∧
    (load "f" (some ("[postgis]\ndsn=\"d\"\n".toList ++ (gateway_line ++ '\n' ::
        api_key_line ['"', 'a', '"', ' ', '"', 'b', '"'])))).map (fun config => config.gateway.api_key) =
      .ok (String.ofList ['a', '"', ' ', '"', 'b']) ∧
    value_of (trim (strip_comment (api_key_line ['"', 'a', '"', ' ', '"', 'b', '"']))) =
      ['"', 'a', '"', ' ', '"', 'b', '"'] ∧
    ¬WellFormed ['"', 'a', '"', ' ', '"', 'b', '"'] := by
  refine ⟨⟨_, rfl, rfl⟩, by decide +kernel, rfl, ?_⟩
  rintro ⟨inner, heq, hbody⟩
  have hinner : ['a', '"', ' ', '"', 'b'] = inner := List.append_cancel_right (List.cons.inj heq).2
  rw [← hinner] at hbody
  have hbare := ((Escaping.quoted.body_cons_iff (by decide)).mp hbody).2
  exact ((Escaping.quoted.body_cons_iff (by decide)).mp hbare).1 rfl

namespace SettingValue

/-- A text denotes the value of a setting. -/
def Denotes (text : String) : SettingValue → Prop
  | .string value _ =>
    ∃ inner, text.toList = '"' :: (inner ++ ['"']) ∧ Escaping.quoted.unescape inner = some value.toList
  | .int value _ => (Numeric.stoll text = .ok value ∧ Numeric.integerRest text = []) ∧ -2^31 ≤ value ∧ value < 2^31
  | .bool value _ => text = if value then "true" else "false"
  | .double value _ => Numeric.stod text = .ok value ∧ Numeric.floatingRest text = []

/-- The value is the default. -/
def IsDefault : SettingValue → Prop
  | .string value fallback => value = fallback
  | .int value fallback => value = fallback
  | .bool value fallback => value = fallback
  | .double value fallback => value = fallback

/-- The value is denoted by a text, or there is none and it is the default. -/
def Denoted (s : SettingValue) : Option String → Prop
  | none => s.IsDefault
  | some text => s.Denotes text

instance (text : String) : DecidablePred (Denotes text)
  | .string value _ => decidable_of_iff (unquote text.toList "" 0 = .ok value.toList) (unquote_ok_iff _ _)
  | .int _ _ => inferInstanceAs (Decidable ((_ ∧ _) ∧ _ ∧ _))
  | .bool _ _ => inferInstanceAs (Decidable (_ = _))
  | .double _ _ => inferInstanceAs (Decidable (_ ∧ _))

instance : DecidablePred IsDefault
  | .string _ _ => inferInstanceAs (Decidable (_ = _))
  | .int _ _ => inferInstanceAs (Decidable (_ = _))
  | .bool _ _ => inferInstanceAs (Decidable (_ = _))
  | .double _ _ => inferInstanceAs (Decidable (_ = _))

instance (s : SettingValue) : DecidablePred s.Denoted
  | none => inferInstanceAs (Decidable s.IsDefault)
  | some text => inferInstanceAs (Decidable (s.Denotes text))

end SettingValue

/-- A check of a value that is read. -/
theorem ite_error_ok_iff {α : Type} {bad : Prop} [Decidable bad] {e : Exception} {a b : α} :
    (if bad then .error e else .ok a : Except Exception α) = .ok b ↔ ¬bad ∧ a = b := by
  split
  · exact iff_of_false nofun fun h => absurd ‹bad› h.1
  · exact ⟨fun h => ⟨‹¬bad›, Except.ok.inj h⟩, fun h => congrArg Except.ok h.2⟩

section Reading

variable {sections : SectionMap} {section_ key path : String}

/-- A default is read. -/
theorem ok_iff_default {α : Type} {a b : α} : (.ok a : Except Exception α) = .ok b ↔ b = a :=
  ⟨fun h => (Except.ok.inj h).symm, fun h => congrArg Except.ok h.symm⟩

/-- What is read as a string. -/
theorem get_string_ok_iff (value fallback : String) : get_string sections section_ key fallback path = .ok value ↔
    (SettingValue.string value fallback).Denoted (raw_value sections section_ key) := by
  unfold get_string
  cases raw_value sections section_ key with
  | none => exact ok_iff_default
  | some text =>
    refine Iff.trans ?_ (@unquote_ok_iff path 0 text.toList value.toList)
    dsimp only
    cases unquote text.toList path 0 with
    | error e => exact iff_of_false nofun nofun
    | ok l =>
      constructor
      · rintro ⟨⟩
        rw [String.toList_ofList]
      · rintro ⟨⟩
        exact congrArg Except.ok String.ofList_toList

/-- What is read as an integer. -/
theorem get_int_ok_iff (value fallback : ℤ) : get_int sections section_ key fallback path = .ok value ↔
    (SettingValue.int value fallback).Denoted (raw_value sections section_ key) := by
  unfold get_int
  cases raw_value sections section_ key with
  | none => exact ok_iff_default
  | some text =>
    show _ ↔ (Numeric.stoll text = .ok value ∧ Numeric.integerRest text = []) ∧ -2^31 ≤ value ∧ value < 2^31
    dsimp only
    cases Numeric.stoll text with
    | error e => exact iff_of_false nofun fun h => nomatch h.1.1
    | ok parsed =>
      dsimp only
      rw [ite_error_ok_iff, Except.ok.injEq, not_or, not_or, not_not]
      constructor
      · rintro ⟨⟨hrest, hlow, hhigh⟩, rfl⟩
        exact ⟨⟨rfl, hrest⟩, by omega, by omega⟩
      · rintro ⟨⟨rfl, hrest⟩, hlow, hhigh⟩
        exact ⟨⟨hrest, by omega, by omega⟩, rfl⟩

/-- What is read as a flag. -/
theorem get_bool_ok_iff (value fallback : Bool) : get_bool sections section_ key fallback path = .ok value ↔
    (SettingValue.bool value fallback).Denoted (raw_value sections section_ key) := by
  unfold get_bool
  cases raw_value sections section_ key with
  | none => exact ok_iff_default
  | some text =>
    show _ ↔ text = if value then "true" else "false"
    dsimp only
    by_cases htrue : text = "true"
    · rw [if_pos htrue, htrue]
      cases value <;> simp
    by_cases hfalse : text = "false"
    · rw [if_neg htrue, if_pos hfalse, hfalse]
      cases value <;> simp
    rw [if_neg htrue, if_neg hfalse]
    refine iff_of_false nofun ?_
    cases value with
    | true => exact htrue
    | false => exact hfalse

/-- What is read as a number. -/
theorem get_double_ok_iff (value fallback : Double) : get_double sections section_ key fallback path = .ok value ↔
    (SettingValue.double value fallback).Denoted (raw_value sections section_ key) := by
  unfold get_double
  cases raw_value sections section_ key with
  | none => exact ok_iff_default
  | some text =>
    show _ ↔ Numeric.stod text = .ok value ∧ Numeric.floatingRest text = []
    dsimp only
    cases Numeric.stod text with
    | error e => exact iff_of_false nofun fun h => nomatch h.1
    | ok parsed =>
      dsimp only
      rw [ite_error_ok_iff, Except.ok.injEq, not_not, and_comm]

/-- A setting is read exactly if its value is denoted by what the sections have of it. -/
theorem Setting.reads_iff (s : Setting) :
    s.Reads sections path ↔ s.value.Denoted (raw_value sections s.section_ s.key) := by
  obtain ⟨section_, key, value⟩ := s
  cases value with
  | string value fallback => exact get_string_ok_iff value fallback
  | int value fallback => exact get_int_ok_iff value fallback
  | bool value fallback => exact get_bool_ok_iff value fallback
  | double value fallback => exact get_double_ok_iff value fallback

end Reading

end SignalRoute.Config
