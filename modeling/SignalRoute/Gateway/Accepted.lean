import SignalRoute.Interaction.Calls
import SignalRoute.Gateway.Counters
import SignalRoute.Gateway.Batches
import SignalRoute.Gateway.RoundTrip

/-!
# What the gateway lets through

After any run of calls, whatever the producer does, the messages of the gateway are those of the events that
it has reported as published, in order (`run_faithful`). Each of these is an event that was submitted, with a
time of receipt, and was valid when it came.
-/

namespace SignalRoute

open Interaction
open Interaction.Prog (bind_eq pure_eq always_bind always_tryCatch always_atomically always_modify always_ofExcept
  always_read)

/-- The event that is reported as published. -/
def events.Gateway.reported : events.Gateway → Option LocationEvent
  | .IngestEventPublished event _ => some event
  | _ => none

/-- The events that were reported as published, in order. -/
def Gateway.accepted (gateway : Gateway) : List LocationEvent := gateway.published.filterMap events.Gateway.reported

namespace GatewayService

variable {env : GatewayEnvironment} {config : GatewayServiceConfig} {S : Set LocationEvent} {s : Gateway}

/-- An event that the gateway lets through: one of `S`, with a time of receipt, that was valid at some time. -/
structure Admitted (env : GatewayEnvironment) (config : GatewayServiceConfig) (S : Set LocationEvent)
    (event : LocationEvent) : Prop where
  submitted : ∃ original ∈ S, Stamped env event original
  valid : ∃ tick, validate config.toGatewayConfig (env.system_ms tick) event = .ok ()

/-- The topic has the events that were reported, and they were admitted. -/
structure Faithful (env : GatewayEnvironment) (config : GatewayServiceConfig) (S : Set LocationEvent)
    (gateway : Gateway) : Prop where
  produced : gateway.produced = gateway.accepted.map (location_message config)
  admitted : ∀ event ∈ gateway.accepted, Admitted env config S event

/-- An action that leaves the topic alone and reports no event as published. -/
def Unpublished {β : Type} (c : Atomic Gateway β) : Prop :=
  ∀ s : Gateway, (c s).2.produced = s.produced ∧ (c s).2.accepted = s.accepted

/-- Such actions keep the topic faithful. -/
theorem Faithful.unpublished {ε α : Type} {p : Prog (Atomic Gateway) ε α} (hp : p.Calls Unpublished)
    (hs : Faithful env config S s) :
    p.Always .atomic (Faithful env config S) (fun _ => Faithful env config S) (fun _ => Faithful env config S) s :=
  hp.always (fun c s hc hs => by
    obtain ⟨hproduced, haccepted⟩ := hc s
    refine ⟨?_, ?_⟩
    · exact hproduced.trans (hs.produced.trans (congrArg _ haccepted.symm))
    · exact fun event hevent => hs.admitted event (haccepted ▸ hevent)) hs

/-- Publishing anything else reports no event. -/
theorem unpublished_publish {event : events.Gateway} (hevent : event.reported = none) :
    (publish event).Calls Unpublished := by
  refine (Prog.calls_perform _).mpr fun s => ⟨rfl, ?_⟩
  change (s.published ++ [event]).filterMap _ = s.published.filterMap _
  rw [List.filterMap_append, List.filterMap_cons_none hevent, List.filterMap_nil, List.append_nil]

theorem unpublished_now_ms : (now_ms env).Calls Unpublished :=
  (Prog.calls_perform _).mpr fun _ => ⟨rfl, rfl⟩

/-- An admitted event that the topic has got is reported. -/
theorem Faithful.publish {event : LocationEvent} (hs : Faithful env config S s)
    (hadmitted : Admitted env config S event) {t : Gateway}
    (hproduced : t.produced = s.produced ++ [location_message config event]) (haccepted : t.accepted = s.accepted) :
    Faithful env config S (t.publish (.IngestEventPublished event config.ingest_topic)) := by
  have hreported : (t.publish (.IngestEventPublished event config.ingest_topic)).accepted = s.accepted ++ [event] := by
    rw [← haccepted]
    unfold Gateway.accepted Gateway.publish
    dsimp only
    rw [List.filterMap_append]
    rfl
  refine ⟨?_, fun other hother => ?_⟩
  · rw [hreported, List.map_append, ← hs.produced]
    exact hproduced
  · rw [hreported] at hother
    rcases List.mem_append.mp hother with hold | hnew
    · exact hs.admitted other hold
    · rw [List.mem_singleton.mp hnew]
      exact hadmitted

/-- An admitted event that reaches the producer is in the topic and reported, or neither. -/
theorem faithful_publish_one {event : LocationEvent} (hadmitted : Admitted env config S event)
    (hs : Faithful env config S s) :
    (publish_one env config event).Always .atomic (fun _ => True) (fun _ => Faithful env config S)
      (fun _ => Faithful env config S) s := by
  unfold publish_one
  rw [bind_eq, always_bind, always_atomically]
  refine ⟨trivial, ?_⟩
  rw [bind_eq, always_bind, always_ofExcept]
  by_cases htakes : Takes env config s.tick
  · have hproduce : s.produce_location env config event = (.ok (), { s with
        produced := s.produced ++ [location_message config event], tick := s.tick + 1 }) := by
      unfold Gateway.produce_location produce
      rw [htakes.2]
      dsimp only
      rw [if_neg htakes.1]
      rfl
    rw [hproduce]
    exact ⟨trivial, hs.publish hadmitted rfl rfl⟩
  · -- The producer throws, and the topic has nothing more.
    have hproduce : ∃ e, s.produce_location env config event = (.error e, { s with tick := s.tick + 1 }) := by
      unfold Gateway.produce_location produce
      cases herror : env.produce_error s.tick with
      | some what => exact ⟨_, rfl⟩
      | none =>
        have hname : config.ingest_topic = "" := by
          by_contra hname
          exact htakes ⟨hname, herror⟩
        dsimp only
        rw [if_pos hname]
        exact ⟨_, rfl⟩
    obtain ⟨e, hproduce⟩ := hproduce
    rw [hproduce]
    exact ⟨hs.produced, hs.admitted⟩

/-- `ingest_one` of an event of `S`. -/
theorem faithful_ingest_one {event : LocationEvent} (hevent : event ∈ S) (hs : Faithful env config S s) :
    (ingest_one env config event).Always .atomic (fun _ => True) (fun _ => Faithful env config S)
      (fun _ => Faithful env config S) s := by
  unfold ingest_one
  rw [bind_eq, always_bind, always_read]
  refine ⟨trivial, ?_⟩
  split
  · exact hs
  have hstamp : (stamp env event).Always .atomic (fun _ => True)
      (fun stamped t => Stamped env stamped event ∧ Faithful env config S t) (fun _ _ => False) s := by
    refine (Prog.always_iff_exec _ _).mpr ⟨fun _ _ => trivial, fun stamped hresult => ?_, fun e hresult => ?_⟩
    all_goals obtain ⟨hok, hfinal⟩ := Prod.mk.inj (@ends_stamp env s event)
    · rw [hok] at hresult
      rw [hfinal, ← Except.ok.inj hresult]
      exact ⟨⟨s.tick, rfl⟩, hs.produced, hs.admitted⟩
    · rw [hok] at hresult
      cases hresult
  rw [bind_eq, always_bind]
  refine hstamp.imp (fun _ => id) (fun stamped t ⟨hstamped, ht⟩ => ?_) fun _ _ h => h.elim
  unfold now_ms
  rw [bind_eq, always_bind, always_atomically]
  refine ⟨trivial, ?_⟩
  have hu : Faithful env config S { t with tick := t.tick + 1 } := ⟨ht.produced, ht.admitted⟩
  split
  · exact (Faithful.unpublished ((unpublished_publish (by rfl)).bind fun _ => Prog.calls_pure _) hu).imp
      (fun _ _ => trivial) (fun _ _ => id) fun _ _ => id
  · rename_i hvalid
    rw [bind_eq, always_bind, always_atomically]
    refine ⟨trivial, ?_⟩
    have hv : Faithful env config S (Gateway.allow env stamped.device_id { t with tick := t.tick + 1 }).2 :=
      ⟨ht.produced, ht.admitted⟩
    split
    · exact (Faithful.unpublished ((unpublished_publish (by rfl)).bind fun _ =>
        (unpublished_publish (by rfl)).bind fun _ => Prog.calls_pure _) hv).imp
          (fun _ _ => trivial) (fun _ _ => id) fun _ _ => id
    · exact faithful_publish_one ⟨⟨event, hevent, hstamped⟩, _, hvalid⟩ hv

/-- `ingest_batch` of events of `S`. -/
theorem faithful_ingest_batch {batch : List LocationEvent} (hbatch : ∀ event ∈ batch, event ∈ S)
    (hs : Faithful env config S s) :
    (ingest_batch env config batch).Always .atomic (fun _ => True) (fun _ => Faithful env config S)
      (fun _ => Faithful env config S) s := by
  have hquiet : ∀ {α : Type} {p : GatewayAction α} {t : Gateway}, p.Calls Unpublished → Faithful env config S t →
      p.Always .atomic (fun _ => True) (fun _ => Faithful env config S) (fun _ => Faithful env config S) t :=
    fun hp ht => (Faithful.unpublished hp ht).imp (fun _ _ => trivial) (fun _ _ => id) fun _ _ => id
  unfold ingest_batch
  rw [bind_eq, always_bind]
  refine (hquiet unpublished_now_ms hs).imp (fun _ => id) (fun now t ht => ?_) fun _ _ => id
  rw [bind_eq, always_bind]
  refine (hquiet (unpublished_publish (by rfl)) ht).imp (fun _ => id) (fun _ u hu => ?_) fun _ _ => id
  have hvalidate : (validate_batch env config batch).Calls Unpublished := by
    unfold validate_batch
    split
    · exact Prog.calls_pure _
    · exact Prog.Calls.foldEach fun _ _ => unpublished_now_ms.bind fun _ => Prog.calls_pure _
  rw [bind_eq, always_bind]
  refine (hquiet hvalidate hu).imp (fun _ => id) (fun results v hv => ?_) fun _ _ => id
  split
  · exact hquiet ((unpublished_publish (by rfl)).bind fun _ => Prog.calls_pure _) hv
  · unfold ingest_each
    refine (Prog.always_foldEach
      (fun (rest : List LocationEvent) (_ : IngestResult) t => (∀ event ∈ rest, event ∈ S) ∧ Faithful env config S t) _
      (fun event rest result t ⟨hrest, ht⟩ => ?_) batch {} v ⟨hbatch, hv⟩).imp (fun _ => id) (fun _ _ => And.right)
      fun _ _ => id
    rw [bind_eq, always_bind]
    exact (faithful_ingest_one (hrest event List.mem_cons_self) ht).imp (fun _ => id)
      (fun _ _ ht' => ⟨fun other hother => hrest other (List.mem_cons_of_mem _ hother), ht'⟩) fun _ _ => id

/-- The frame of a request adds nothing to the topic. -/
theorem faithful_with_lease {body : GatewayAction IngestResponse}
    (hbody : ∀ t, Faithful env config S t → body.Always .atomic (fun _ => True) (fun _ => Faithful env config S)
      (fun _ => Faithful env config S) t) (api_key : String) (rejected_count : ℤ) (device_id : String)
    (hs : Faithful env config S s) :
    (with_lease env config api_key rejected_count device_id body).Always .atomic (fun _ => True)
      (fun _ => Faithful env config S) (fun _ => Faithful env config S) s := by
  have hreject : ∀ (reason : String) (backpressure : Bool) (t : Gateway), Faithful env config S t →
      (reject_transport_request config reason rejected_count device_id backpressure).Always .atomic (fun _ => True)
        (fun _ => Faithful env config S) (fun _ => Faithful env config S) t := by
    intro reason backpressure t ht
    have hcalls : (reject_transport_request config reason rejected_count device_id backpressure).Calls
        Unpublished := by
      unfold reject_transport_request
      cases backpressure with
      | false => exact (unpublished_publish (by rfl)).bind fun _ => Prog.calls_pure _
      | true =>
        exact (unpublished_publish (by rfl)).bind fun _ => (unpublished_publish (by rfl)).bind fun _ =>
          Prog.calls_pure _
    exact (Faithful.unpublished hcalls ht).imp (fun _ _ => trivial) (fun _ _ => id) fun _ _ => id
  unfold with_lease
  split
  · exact hreject _ _ _ hs
  rw [bind_eq, always_bind, always_atomically]
  refine ⟨trivial, ?_⟩
  have hacquired : Faithful env config S (s.try_acquire env config).2 := by
    unfold Gateway.try_acquire
    split
    · split <;> exact ⟨hs.produced, hs.admitted⟩
    · exact ⟨hs.produced, hs.admitted⟩
  have hrelease : ∀ active t, Faithful env config S t → Faithful env config S (Gateway.release active t) := by
    intro active t ht
    unfold Gateway.release
    split <;> exact ⟨ht.produced, ht.admitted⟩
  split
  · exact hreject _ _ _ hacquired
  · rename_i active _
    rw [bind_eq, always_bind, always_tryCatch]
    refine (hbody _ hacquired).imp (fun _ => id) (fun response t ht => ?_) fun e t ht => ?_
    · exact ⟨trivial, hrelease active t ht⟩
    · exact ⟨trivial, hrelease active t ht⟩

theorem faithful_handle_ingest_one {request : IngestOneRequest} (hevent : request.event ∈ S)
    (hs : Faithful env config S s) :
    (handle_ingest_one env config request).Always .atomic (fun _ => True) (fun _ => Faithful env config S)
      (fun _ => Faithful env config S) s := by
  unfold handle_ingest_one
  refine faithful_with_lease (fun t ht => ?_) _ _ _ hs
  rw [bind_eq, always_bind]
  refine (faithful_ingest_one hevent ht).imp (fun _ => id) (fun answer u hu => ?_) fun _ _ => id
  cases answer <;> exact hu

theorem faithful_handle_ingest_batch {request : IngestBatchRequest} (hbatch : ∀ event ∈ request.events, event ∈ S)
    (hs : Faithful env config S s) :
    (handle_ingest_batch env config request).Always .atomic (fun _ => True) (fun _ => Faithful env config S)
      (fun _ => Faithful env config S) s := by
  rw [handle_ingest_batch_eq]
  refine faithful_with_lease (fun t ht => ?_) _ _ _ hs
  unfold respond
  rw [bind_eq, always_bind]
  exact (faithful_ingest_batch hbatch ht).imp (fun _ => id) (fun _ _ => id) fun _ _ => id

/-- The events that a call submits. -/
def Call.events : Call → List LocationEvent
  | ingest_one event => [event]
  | ingest_batch batch => batch
  | handle_ingest_one request => [request.event]
  | handle_ingest_batch request => request.events

/-- A call of events of `S`, that ends or is left by an exception. -/
theorem Call.faithful {call : Call} (hcall : ∀ event ∈ call.events, event ∈ S) (hs : Faithful env config S s) :
    Faithful env config S (call.after env config s) := by
  have hfinish : ∀ {α : Type} {p : GatewayAction α},
      p.Always .atomic (fun _ => True) (fun _ => Faithful env config S) (fun _ => Faithful env config S) s →
      Faithful env config S (finish p s) := Prog.Always.final
  unfold Call.after
  cases call with
  | ingest_one event => exact hfinish (faithful_ingest_one (hcall event List.mem_cons_self) hs)
  | ingest_batch batch => exact hfinish (faithful_ingest_batch hcall hs)
  | handle_ingest_one request => exact hfinish (faithful_handle_ingest_one (hcall _ List.mem_cons_self) hs)
  | handle_ingest_batch request => exact hfinish (faithful_handle_ingest_batch hcall hs)

/-- After any run of calls the topic has the events that were reported as published, and these are
submitted events, each with a time of receipt, that were valid when they came. -/
theorem run_faithful {calls : List Call} (hcalls : ∀ call ∈ calls, ∀ event ∈ call.events, event ∈ S) :
    Faithful env config S (run env config calls (Gateway.start config)) := by
  induction calls using List.reverseRecOn with
  | nil => exact ⟨rfl, fun _ h => absurd h List.not_mem_nil⟩
  | append_singleton calls call ih =>
    rw [run_append]
    exact Call.faithful (hcalls call (by simp)) (ih fun earlier hearlier => hcalls earlier (by simp [hearlier]))

end GatewayService

end SignalRoute
