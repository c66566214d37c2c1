import SignalRoute.Types

/-!
# Kafka (in-memory build)

`src/common/kafka/kafka_consumer.cpp` and `kafka_producer.cpp` without librdkafka: a topic is a list
of messages in a static broker, and the offset of a message is its position. A consumer reads one
topic and has one partition.
-/

namespace SignalRoute

/-- `kafka_fallback::BrokerMessage`, without the topic and the offset, which say where it is. -/
structure BrokerMessage where
  key : String
  payload : String
  timestamp_ms : ℤ := 0
  deriving DecidableEq

/-- `kafka_fallback::read_message`. -/
def read_message (name : String) (topic : List BrokerMessage) (offset : ℕ) : Option KafkaMessage :=
  topic[offset]?.map fun message =>
    { topic := name, offset, key := message.key, payload := message.payload,
      timestamp_ms := message.timestamp_ms }

/-- `KafkaConsumer` of one topic: its next and its committed offset. -/
structure KafkaConsumer where
  next_offset : ℕ := 0
  committed_offset : ℕ := 0
  deriving DecidableEq

namespace KafkaConsumer

/-- `poll`, when the broker has the messages `topic`. -/
def poll (consumer : KafkaConsumer) (name : String) (topic : List BrokerMessage) :
    Option KafkaMessage × KafkaConsumer :=
  match read_message name topic consumer.next_offset with
  | some message => (some message, { consumer with next_offset := consumer.next_offset + 1 })
  | none => (none, consumer)

/-- `commit`. -/
def commit (consumer : KafkaConsumer) (msg : KafkaMessage) : KafkaConsumer :=
  { consumer with committed_offset := max consumer.committed_offset (msg.offset + 1) }

/-- A poll returns the message at the next offset and moves past it, or changes nothing. -/
theorem poll_cases (consumer : KafkaConsumer) (name : String) (topic : List BrokerMessage) :
    (consumer.poll name topic = (none, consumer) ∧ topic[consumer.next_offset]? = none) ∨
      ∃ message msg, topic[consumer.next_offset]? = some message ∧
        msg.payload = message.payload ∧ msg.offset = consumer.next_offset ∧
        consumer.poll name topic =
          (some msg, { consumer with next_offset := consumer.next_offset + 1 }) := by
  unfold poll read_message
  cases h : topic[consumer.next_offset]? with
  | none => exact .inl ⟨rfl, rfl⟩
  | some message => exact .inr ⟨message, _, rfl, rfl, rfl, rfl⟩

end KafkaConsumer

/-- A message that a producer has appended to a topic. -/
structure ProducedMessage where
  topic : String
  key : String
  payload : String
  deriving DecidableEq

/-- `KafkaProducer::produce`: it throws on an empty topic name and appends otherwise. -/
def produce (topic key payload : String) (produced : List ProducedMessage) :
    Except Exception Unit × List ProducedMessage :=
  if topic = "" then (.error (.std "Kafka topic must not be empty"), produced)
  else (.ok (), produced ++ [⟨topic, key, payload⟩])

/-- What the static broker has of a topic when it has been given these messages. -/
def messages_of (topic : String) (produced : List ProducedMessage) : List BrokerMessage :=
  (produced.filter fun message => message.topic = topic).map fun message =>
    ⟨message.key, message.payload, 0⟩

/-- The messages of a topic are in the order of their production. -/
theorem messages_of_append (topic : String) (produced produced' : List ProducedMessage) :
    messages_of topic (produced ++ produced') = messages_of topic produced ++ messages_of topic produced' := by
  unfold messages_of
  rw [List.filter_append, List.map_append]

end SignalRoute
