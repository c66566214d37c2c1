import SignalRoute.Geofence.Prefilter
import SignalRoute.Geofence.Protocol

/-!
# Fences that change while a device is inside

Location events of one device, dwell scans and reloads of the registry, in any order. The evaluator
takes its candidates from the current registry, by the old and the new cell of the device, and
nothing looks at the stored states when the fences change. So a fence that is drawn anew, or that
comes back after it was removed, is only tested again when the device comes to one of its new cells:
until then the device stays stored inside.

An evaluation leaves a justified state exactly if every fence that the device is stored inside is in
sight, which is to say indexed under the old or the new cell (`justified_iff_inSight`). What keeps
the fences in sight (`KeepsSight`) is an invariant: the device is stored in a cell of each fence
that it is inside (`Located`). `inside_justified_iff` says both of every run.
-/

namespace SignalRoute

open Store (HashOrder)
open Numeric (Double)
open Interaction (Prog)
open Interaction.Prog (always_bind always_foldEach)

/-- The cells of a fence cover its polygon: every point inside is in one of them. -/
def GeofenceRule.Covered (h3 : H3Index) (fence : GeofenceRule) : Prop :=
  ∀ lat lon cell, h3.lat_lng_to_cell lat lon = .ok cell →
    geo.point_in_polygon lat lon fence.polygon_vertices = true → cell ∈ fence.h3_cells

/-- A registry whose fences are covered by their cells. -/
structure CoveredRegistry (h3 : H3Index) where
  registry : FenceRegistry
  loaded : registry.Loaded
  covers : ∀ fence, registry.fences.lookup fence.fence_id = some fence → fence.Covered h3

namespace CoveredRegistry

variable {h3 : H3Index}

/-- Nothing has been loaded. -/
def empty : CoveredRegistry h3 := ⟨{}, FenceRegistry.loaded_empty, fun _ h => by cases h⟩

/-- What `load` makes of fences whose active ones are covered. -/
def load (order : HashOrder) (pg : PostgresClient) (fences : List GeofenceRule)
    (covered : ∀ fence ∈ fences, fence.active = true → fence.Covered h3) : CoveredRegistry h3 where
  registry := FenceRegistry.load order (pg.set_active_fences fences)
  loaded := FenceRegistry.loaded_load order _
  covers fence hl := by
    obtain ⟨hmem, -⟩ := (FenceRegistry.lookup_insert_rules _ _ hl).resolve_right (by simp)
    obtain ⟨hfence, hactive⟩ := List.mem_filter.mp hmem
    exact covered fence hfence hactive

end CoveredRegistry

/-- The engine of one device with an id, and the cells of its positions. -/
structure ReloadingEngine extends GeofenceEngine where
  h3 : H3Index
  device_id_ne : device_id ≠ ""

/-- The registry, the device states and the stores. -/
structure ReloadingWorld (h3 : H3Index) where
  registry : CoveredRegistry h3 := .empty
  pipeline : PipelineWorld := {}

/-- The steps: a location event that is written and evaluated, a dwell scan, and a reload of the
fences that are then in the table. -/
inductive ReloadingStep (h3 : H3Index) (device_id : String) where
  | write (arrival : Arrival device_id)
  | check_once (now_ms : ℤ)
  | reload (order : HashOrder) (fences : List GeofenceRule)
    (covered : ∀ fence ∈ fences, fence.active = true → fence.Covered h3)

namespace ReloadingEngine

variable (engine : ReloadingEngine)

/-- The pipeline with the fences of a registry. -/
def pipeline (registry : CoveredRegistry engine.h3) : Pipeline where
  h3 := engine.h3
  registry := registry.registry
  event_topic := engine.event_topic
  device_id := engine.device_id
  orders := engine.orders
  loaded := registry.loaded
  event_topic_ne := engine.event_topic_ne
  device_id_ne := engine.device_id_ne
  covers := registry.covers

/-- One step. -/
def step (w : ReloadingWorld engine.h3) :
    ReloadingStep engine.h3 engine.device_id → ReloadingWorld engine.h3
  | .write arrival =>
    let pipeline := engine.pipeline w.registry
    { w with pipeline := pipeline.handle pipeline.evaluate w.pipeline arrival }
  | .check_once now_ms =>
    let after := engine.toGeofenceEngine.step ⟨w.registry.registry, w.pipeline.store⟩ (.check_once now_ms)
    { w with pipeline := { w.pipeline with store := after.store } }
  | .reload order fences covered =>
    let after := engine.toGeofenceEngine.step ⟨w.registry.registry, w.pipeline.store⟩ (.reload order fences)
    { registry := .load order w.pipeline.store.pg fences covered
      pipeline := { w.pipeline with store := after.store } }

/-- The steps of a run, from an engine without fences and empty stores. -/
def run (steps : List (ReloadingStep engine.h3 engine.device_id)) : ReloadingWorld engine.h3 :=
  steps.foldl engine.step {}

/-- The state that the device is stored in at a fence. -/
def state (w : ReloadingWorld engine.h3) (fence : GeofenceRule) : FenceState :=
  w.pipeline.store.state engine.device_id fence.fence_id

/-- An event that is accepted in a world, and evaluated with its cell. -/
def Evaluates (w : ReloadingWorld engine.h3) (arrival : Arrival engine.device_id) (cell : ℤ) : Prop :=
  (engine.pipeline w.registry).Accepts w.pipeline.redis arrival cell

/-- The device, at a position, is stored inside only of active fences that it is inside, and the
records of the other ones end with an `EXIT` if there are any. -/
def Justified (w : ReloadingWorld engine.h3) (lat lon : Double) : Prop :=
  ∀ fence, w.registry.registry.get_fence fence.fence_id = some fence → fence.active = true →
    (engine.state w fence ≠ .OUTSIDE → geo.point_in_polygon lat lon fence.polygon_vertices = true) ∧
      (geo.point_in_polygon lat lon fence.polygon_vertices = false →
        let types := typesOf engine.device_id fence.fence_id w.pipeline.store.events
        types = [] ∨ types.getLast? = some .EXIT)

/-- Every active fence that the device is stored inside is indexed under its new cell, or under the
one that it leaves, where that is not zero. -/
def InSight (w : ReloadingWorld engine.h3) (cell : ℤ) : Prop :=
  ∀ fence, w.registry.registry.get_fence fence.fence_id = some fence → fence.active = true →
    engine.state w fence ≠ .OUTSIDE →
      Evaluator.Considered ((engine.pipeline w.registry).previous_cell w.pipeline.redis) cell fence

/-- The device is stored in a cell of each fence that it is stored inside. -/
def Located (w : ReloadingWorld engine.h3) : Prop :=
  ∀ fence, w.registry.registry.get_fence fence.fence_id = some fence → engine.state w fence ≠ .OUTSIDE →
    ∃ current, w.pipeline.redis.get_device_state engine.device_id = some current ∧
      current.h3_cell ∈ fence.h3_cells

/-- What a step must not do: an event takes the device out of cell zero and out of the cells of a
fence, or a reload takes the cell of the device away from a fence, while the device is stored
inside. -/
def KeepsSight (w : ReloadingWorld engine.h3) : ReloadingStep engine.h3 engine.device_id → Prop
  | .write arrival => ¬(engine.pipeline w.registry).LosesExit w.pipeline arrival
  | .check_once _ => True
  | .reload order fences covered => engine.Located (engine.step w (.reload order fences covered))

/-- A dwell scan leaves no fence and enters none. -/
theorem state_check_once_eq_outside {w : ReloadingWorld engine.h3}
    (h : Tracked engine.device_id w.pipeline.store) (now_ms : ℤ) (fence : GeofenceRule) :
    engine.state (engine.step w (.check_once now_ms)) fence = .OUTSIDE ↔
      engine.state w fence = .OUTSIDE := by
  let d := engine.device_id
  let store := w.pipeline.store
  -- The states that are still to come are listed, and so the device is stored inside of their fences.
  let I := fun (rest : List FenceStateRecord) (_ : ℤ) (store' : GeofenceStore) =>
    (∀ record ∈ rest, record.device_id = d ∧ store.state d record.fence_id = .INSIDE) ∧
      ∀ f, store'.state d f = .OUTSIDE ↔ store.state d f = .OUTSIDE
  have hscan : (DwellChecker.check_once w.registry.registry engine.config engine.event_topic now_ms).Always
      (GeofenceStore.handler engine.orders) (fun _ => True) (fun transitioned => I [] transitioned)
      (fun _ _ => False) store := by
    unfold DwellChecker.check_once
    rw [Prog.bind_eq, always_bind, Prog.always_perform]
    refine ⟨trivial, always_foldEach I _ (fun record rest transitioned store' hs => ?_) _ _ _ ?_⟩
    · obtain ⟨hlisted, hstates⟩ := hs
      obtain ⟨hd, hinside⟩ := hlisted record List.mem_cons_self
      have hrest := fun record' hrecord' => hlisted record' (List.mem_cons_of_mem _ hrecord')
      unfold DwellChecker.check_state
      -- A listed state that is not due is left as it is.
      cases hdue : DwellChecker.due w.registry.registry engine.config now_ms record with
      | none => exact ⟨hrest, hstates⟩
      | some due =>
        simp only [Prog.bind_eq, always_bind, Prog.always_perform,
          always_publish_event engine.event_topic_ne, Prog.pure_eq, Prog.always_pure]
        refine ⟨trivial, trivial, trivial, hrest, fun f => ?_⟩
        -- The only state that is set is that of the listed pair, which was `INSIDE`.
        have hset : (store'.redis.set_fence_state record.device_id record.fence_id .DWELL
            now_ms).get_fence_state d f =
              if f = record.fence_id then some .DWELL else store'.redis.get_fence_state d f := by
          unfold RedisClient.get_fence_state
          rw [hd, RedisClient.get_fence_state_record_set]
          split <;> rfl
        change (RedisClient.get_fence_state (store'.redis.set_fence_state record.device_id record.fence_id
          .DWELL now_ms) d f).getD .OUTSIDE = .OUTSIDE ↔ _
        rw [hset]
        split
        · rename_i hf
          subst hf
          exact iff_of_false (by decide) (by rw [hinside]; decide)
        · exact hstates f
    · obtain ⟨hlisted, -⟩ := h.listed (engine.orders store.listings)
      refine ⟨fun record hrecord => ?_, fun _ => Iff.rfl⟩
      obtain ⟨hd, hinside, hstored⟩ := hlisted record hrecord
      refine ⟨hd, ?_⟩
      unfold GeofenceStore.state RedisClient.get_fence_state
      rw [hstored, Option.map_some, hinside]
      rfl
  have hfinal := (hscan.imp (fun _ => id) (fun _ _ hs => hs.2) fun _ _ => False.elim).final
  exact hfinal fence.fence_id

/-- An event changes nothing, or it is evaluated: the device moves to its cell, the fences of the
old and the new cell are tested, and the others are left alone. -/
theorem step_write_cases (w : ReloadingWorld engine.h3) (arrival : Arrival engine.device_id) :
    engine.step w (.write arrival) = w ∧ (∀ cell, ¬engine.Evaluates w arrival cell) ∨
      ∃ cell redis store, engine.Evaluates w arrival cell ∧
        (redis.get_device_state engine.device_id).map DeviceState.h3_cell = some cell ∧
        engine.step w (.write arrival) = { w with pipeline := ⟨redis, store⟩ } ∧
        (Tracked engine.device_id w.pipeline.store → Tracked engine.device_id store) ∧
        ∀ fence, w.registry.registry.get_fence fence.fence_id = some fence →
          let p := engine.pipeline w.registry
          (Evaluator.Considered (p.previous_cell w.pipeline.redis) cell fence →
              Tested engine.device_id arrival.event.lat arrival.event.lon (p.event_time arrival)
                w.pipeline.store store fence) ∧
            (¬Evaluator.Considered (p.previous_cell w.pipeline.redis) cell fence →
              Untouched engine.device_id fence.fence_id w.pipeline.store store) := by
  let p := engine.pipeline w.registry
  -- Whether the event is evaluated does not depend on the engine's fences.
  rcases p.handle_cases w.pipeline.redis arrival with ⟨hsame, hno⟩ | ⟨cell, redis, hacc, hcell, hhandle⟩
  · refine .inl ⟨?_, hno⟩
    change { w with pipeline := p.handle p.evaluate w.pipeline arrival } = w
    rw [hsame p.evaluate w.pipeline.store]
  · let store := w.pipeline.store.after engine.orders (p.evaluate arrival.order ⟨engine.device_id,
      p.previous_cell w.pipeline.redis, cell, arrival.event.lat, arrival.event.lon, p.event_time arrival⟩)
    refine .inr ⟨cell, redis, store, hacc, hcell, ?_, fun h => ?_,
      fun fence hl => Pipeline.evaluate_spec (p := p) hl⟩
    · change { w with pipeline := p.handle p.evaluate w.pipeline arrival } = _
      rw [hhandle p.evaluate w.pipeline.store]
      rfl
    · exact (h.evaluate engine.orders engine.event_topic_ne w.registry.registry _ _ _ _ _ _).1

/-- Every step keeps the records and the states in agreement. -/
theorem tracked_step {w : ReloadingWorld engine.h3} (h : Tracked engine.device_id w.pipeline.store)
    (step : ReloadingStep engine.h3 engine.device_id) :
    Tracked engine.device_id (engine.step w step).pipeline.store := by
  cases step with
  | write arrival =>
    rcases engine.step_write_cases w arrival with ⟨hsame, -⟩ |
      ⟨cell, redis, store, -, -, hstep, htracked, -⟩
    · rw [hsame]
      exact h
    · rw [hstep]
      exact htracked h
  | check_once now_ms => exact (engine.step_spec w.registry.loaded h (.check_once now_ms)).2.1
  | reload order fences covered =>
    exact (engine.step_spec w.registry.loaded h (.reload order fences)).2.1

/-- Every run does. -/
theorem tracked_run (steps : List (ReloadingStep engine.h3 engine.device_id)) :
    Tracked engine.device_id (engine.run steps).pipeline.store := by
  unfold run
  refine List.foldlRecOn (motive := fun w => Tracked engine.device_id w.pipeline.store) steps engine.step
    ?_ fun w hw step _ => engine.tracked_step hw step
  exact (engine.toGeofenceEngine.run_spec []).2

/-- Outside of a fence, the records end with an `EXIT` if there are any. -/
theorem types_of_outside {store : GeofenceStore} {d f : String} (h : Tracked d store)
    (houtside : store.state d f = .OUTSIDE) :
    typesOf d f store.events = [] ∨ (typesOf d f store.events).getLast? = some .EXIT := by
  rw [eq_stateAfter_of_track (h.track_eq f)] at houtside
  cases hlast : (typesOf d f store.events).getLast? with
  | none => exact .inl (List.getLast?_eq_none_iff.mp hlast)
  | some event =>
    rw [hlast] at houtside
    cases event with
    | ENTER => cases houtside
    | DWELL => cases houtside
    | EXIT => exact .inr rfl

/-- An evaluation leaves a justified state exactly if all fences that the device is stored inside
are in sight. -/
theorem justified_iff_inSight {w : ReloadingWorld engine.h3} (h : Tracked engine.device_id w.pipeline.store)
    {arrival : Arrival engine.device_id} {cell : ℤ} (heval : engine.Evaluates w arrival cell) :
    engine.Justified (engine.step w (.write arrival)) arrival.event.lat arrival.event.lon ↔
      engine.InSight w cell := by
  rcases engine.step_write_cases w arrival with ⟨-, hno⟩ |
    ⟨cell', redis, store, heval', -, hstep, htracked, htests⟩
  · exact absurd heval (hno cell)
  -- The event has one cell.
  obtain rfl : cell = cell' := Except.ok.inj (heval.cell_eq.symm.trans heval'.cell_eq)
  rw [hstep]
  constructor
  · intro hjustified fence hl hactive hinside
    -- A fence out of sight keeps its state, and the polygon has the new position if that is
    -- justified.
    by_contra hc
    refine hc (.inl (w.registry.covers fence hl _ _ _ heval.cell_eq ((hjustified fence hl hactive).1 ?_)))
    exact fun houtside => hinside (((htests fence hl).2 hc).state_eq.symm.trans houtside)
  · intro hsight fence hl hactive
    -- Outside of the polygon, a tested fence is left and a fence out of sight was not entered.
    have houtside : geo.point_in_polygon arrival.event.lat arrival.event.lon
        fence.polygon_vertices = false → store.state engine.device_id fence.fence_id = .OUTSIDE := by
      intro hout
      by_cases hc : Evaluator.Considered ((engine.pipeline w.registry).previous_cell w.pipeline.redis) cell
        fence
      · rw [((htests fence hl).1 hc).state_eq, hout]
        cases w.pipeline.store.state engine.device_id fence.fence_id <;> rfl
      · rw [((htests fence hl).2 hc).state_eq]
        by_contra hinside
        exact hc (hsight fence hl hactive hinside)
    refine ⟨fun hinside => ?_, fun hout => types_of_outside (htracked h) (houtside hout)⟩
    by_contra hout
    exact hinside (houtside (eq_false_of_ne_true hout))

/-- An event that does not take the device out of cell zero finds the fences in sight, if the device
is stored in a cell of each. -/
theorem inSight_of_located {w : ReloadingWorld engine.h3} (hlocated : engine.Located w)
    {arrival : Arrival engine.device_id} {cell : ℤ} (heval : engine.Evaluates w arrival cell)
    (hkeeps : engine.KeepsSight w (.write arrival)) : engine.InSight w cell := by
  intro fence hl hactive hinside
  obtain ⟨current, hcurrent, hcell⟩ := hlocated fence hl hinside
  have hprevious : (engine.pipeline w.registry).previous_cell w.pipeline.redis = current.h3_cell :=
    congrArg (fun stored => (Option.map DeviceState.h3_cell stored).getD 0) hcurrent
  rw [hprevious]
  by_contra hc
  obtain ⟨hnew, hold⟩ := not_or.mp hc
  -- The old cell is not looked at only if it is zero.
  have hzero : current.h3_cell = 0 := by
    by_contra hne
    exact hold ⟨hne, fun heq => hnew (heq ▸ hcell), hcell⟩
  exact hkeeps ⟨current, cell, fence, hcurrent, heval.newer current hcurrent, hzero, heval.cell_eq, hl,
    hnew, hinside⟩

/-- A step that keeps the fences in sight keeps the device in their cells. -/
theorem located_step {w : ReloadingWorld engine.h3} (h : Tracked engine.device_id w.pipeline.store)
    (hlocated : engine.Located w) {step : ReloadingStep engine.h3 engine.device_id}
    (hkeeps : engine.KeepsSight w step) : engine.Located (engine.step w step) := by
  cases step with
  | write arrival =>
    rcases engine.step_write_cases w arrival with ⟨hsame, -⟩ |
      ⟨cell, redis, store, heval, hcell, hstep, -, -⟩
    · rw [hsame]
      exact hlocated
    · have hjustified := (engine.justified_iff_inSight h heval).mpr
        (engine.inSight_of_located hlocated heval hkeeps)
      rw [hstep] at hjustified ⊢
      intro fence hl hinside
      obtain ⟨current, hcurrent, rfl⟩ := Option.map_eq_some_iff.mp hcell
      refine ⟨current, hcurrent, w.registry.covers fence hl _ _ _ heval.cell_eq ?_⟩
      exact (hjustified fence hl (w.registry.loaded.active _ fence hl)).1 hinside
  | check_once now_ms =>
    intro fence hl hinside
    exact hlocated fence hl ((engine.state_check_once_eq_outside h now_ms fence).not.mp hinside)
  | reload order fences covered => exact hkeeps

/-- A run whose steps keep the fences in sight keeps the device in their cells. -/
theorem located_run {steps : List (ReloadingStep engine.h3 engine.device_id)}
    (hkeeps : ∀ before step, before ++ [step] <+: steps → engine.KeepsSight (engine.run before) step) :
    engine.Located (engine.run steps) := by
  induction steps using List.reverseRecOn with
  | nil =>
    intro fence hl
    cases hl
  | append_singleton before step ih =>
    have hbefore := ih fun l step' hl => hkeeps l step' (hl.trans (List.prefix_append before _))
    unfold run
    rw [List.foldl_append]
    exact engine.located_step (engine.tracked_run before) hbefore (hkeeps before step List.prefix_rfl)

/-- The property `P` of a run and its next event holds wherever the run comes to an event that is
evaluated. -/
def AtEvaluations (steps : List (ReloadingStep engine.h3 engine.device_id))
    (P : ReloadingWorld engine.h3 → Arrival engine.device_id → ℤ → Prop) : Prop :=
  ∀ before arrival cell, before ++ [.write arrival] <+: steps →
    engine.Evaluates (engine.run before) arrival cell → P (engine.run before) arrival cell

/-- In every run of events, dwell scans and reloads: every evaluation leaves a justified state
exactly if at every evaluation the fences that the device is stored inside are in sight, and they
are if no step of the run takes one out of sight. -/
theorem inside_justified_iff (steps : List (ReloadingStep engine.h3 engine.device_id)) :
    (engine.AtEvaluations steps (fun w arrival _ =>
        engine.Justified (engine.step w (.write arrival)) arrival.event.lat arrival.event.lon) ↔
      engine.AtEvaluations steps fun w _ cell => engine.InSight w cell) ∧
    ((∀ before step, before ++ [step] <+: steps → engine.KeepsSight (engine.run before) step) →
      engine.AtEvaluations steps fun w _ cell => engine.InSight w cell) := by
  constructor
  · refine forall₃_congr fun before arrival cell => forall₂_congr fun _ heval => ?_
    exact engine.justified_iff_inSight (engine.tracked_run before) heval
  · intro hkeeps before arrival cell hprefix heval
    refine engine.inSight_of_located (engine.located_run fun l step hl => hkeeps l step ?_) heval
      (hkeeps before _ hprefix)
    exact hl.trans ((List.prefix_append before _).trans hprefix)

end ReloadingEngine

/-- One device, at resolution zero. -/
def cornerEngine : ReloadingEngine where
  config := {}
  event_topic := "tm.geofence.events"
  device_id := "d"
  orders _ := .insertion
  event_topic_ne := Pipeline.corner.event_topic_ne
  h3 := .coarsest
  device_id_ne := Pipeline.corner.device_id_ne

/-- The table with the fence of the corner is reloaded. -/
def corner_reload : ReloadingStep cornerEngine.h3 cornerEngine.device_id :=
  .reload .insertion [Pipeline.cornerFence] fun fence hmem _ lat lon cell hcell hin => by
    rw [List.mem_singleton.mp hmem] at hin ⊢
    rw [Pipeline.cornerFence_covers hcell hin]
    exact Finset.mem_singleton_self 0

/-- An event at the equator. -/
def equator_arrival (seq : ℕ) : Arrival "d" where
  event := { device_id := "d", seq := seq, server_recv_ms := seq }
  now_ms := 0
  order := .insertion
  device_id_eq := rfl

/-- The device enters the fence. The fence is removed, the device goes to the equator, and the fence
comes back. -/
def fence_comes_back : List (ReloadingStep cornerEngine.h3 cornerEngine.device_id) :=
  [corner_reload,
   .write Pipeline.corner_arrival,
   .reload .insertion [] nofun,
   .write (equator_arrival 2),
   corner_reload]

/-- The device at the equator is stored inside the fence that came back, without an `EXIT`. -/
theorem returning_fence_keeps_device : (¬∀ (engine : ReloadingEngine)
    (steps : List (ReloadingStep engine.h3 engine.device_id)), engine.AtEvaluations steps fun w arrival _ =>
      engine.Justified (engine.step w (.write arrival)) arrival.event.lat arrival.event.lon) ∧
    typesOf "d" "f" (cornerEngine.run (fence_comes_back ++
      [.write (equator_arrival 3)])).pipeline.store.events = [.ENTER] := by
  refine ⟨fun h => ?_, by decide +kernel⟩
  have hseq : ((cornerEngine.run fence_comes_back).pipeline.redis.get_device_state "d").map DeviceState.seq =
      some 2 := by decide +kernel
  have hevaluates : cornerEngine.Evaluates (cornerEngine.run fence_comes_back) (equator_arrival 3)
      (90 * 2^29 + 180) := by
    refine ⟨by decide +kernel, fun current hcurrent => ?_⟩
    change (cornerEngine.run fence_comes_back).pipeline.redis.get_device_state "d" = some current at hcurrent
    rw [hcurrent] at hseq
    have hcurrent_seq : current.seq = 2 := Option.some.inj hseq
    rw [hcurrent_seq]
    decide
  have hjustified := h cornerEngine (fence_comes_back ++ [.write (equator_arrival 3)]) fence_comes_back
    (equator_arrival 3) _ List.prefix_rfl hevaluates Pipeline.cornerFence (by decide +kernel) rfl
  have hin := hjustified.1 (by decide +kernel)
  revert hin
  decide +kernel

end SignalRoute
