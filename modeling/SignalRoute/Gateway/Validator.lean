import SignalRoute.Types

/-!
# The validator of the gateway

`src/gateway/validator.cpp`. A field that is not valid is named in the error; `validate_eq_ok_iff`
says what passes all checks.
-/

namespace SignalRoute

open Numeric (Double)

/-- `Validator::validate`, with the system clock at `now_ms`. -/
def validate (config : GatewayConfig) (now_ms : ℤ) (event : LocationEvent) : Except String Unit :=
  if event.device_id = "" then .error "device_id is required"
  else if !event.lat.isfinite || !event.lon.isfinite then .error "coordinates must be finite"
  else if event.lat < .finite (-90) ∨ event.lat > .finite 90 then .error "lat out of range [-90, 90]"
  else if event.lon < .finite (-180) ∨ event.lon > .finite 180 then
    .error "lon out of range [-180, 180]"
  else if event.seq = 0 then .error "seq must be > 0"
  else if event.accuracy_m < 0 then .error "accuracy_m must be >= 0"
  else if event.timestamp_ms ≤ 0 then .error "timestamp_ms is required"
  else if event.timestamp_ms > now_ms + config.timestamp_skew_tolerance_s * 1000 then
    .error "timestamp is in the future"
  else if event.timestamp_ms < now_ms - 24 * 60 * 60 * 1000 then .error "timestamp is too old"
  else .ok ()

/-- A valid event has an id, a position on the globe, a sequence number and a recent timestamp. -/
structure LocationEvent.Valid (config : GatewayConfig) (now_ms : ℤ) (event : LocationEvent) : Prop where
  device_id : event.device_id ≠ ""
  lat : ∃ q : ℚ, event.lat = .finite q ∧ -90 ≤ q ∧ q ≤ 90
  lon : ∃ q : ℚ, event.lon = .finite q ∧ -180 ≤ q ∧ q ≤ 180
  seq : event.seq ≠ 0
  accuracy_m : ¬ event.accuracy_m < 0
  timestamp_ms : 0 < event.timestamp_ms
  not_future : event.timestamp_ms ≤ now_ms + config.timestamp_skew_tolerance_s * 1000
  not_old : now_ms - 24 * 60 * 60 * 1000 ≤ event.timestamp_ms

variable {config : GatewayConfig} {now_ms : ℤ} {event : LocationEvent}

/-- A finite coordinate within its bounds. -/
theorem finite_between_iff (x : Double) (lo hi : ℚ) :
    (x.isfinite = true ∧ ¬ x < .finite lo ∧ ¬ x > .finite hi) ↔ ∃ q : ℚ, x = .finite q ∧ lo ≤ q ∧ q ≤ hi := by
  cases x with
  | finite q => simp [GT.gt]
  | infinite s => simp
  | nan => simp

/-- A check that returns an error is passed, and what follows accepts. -/
theorem check_eq_ok_iff {fails : Prop} [Decidable fails] {message : String} {rest : Except String Unit} :
    (if fails then .error message else rest) = .ok () ↔ ¬fails ∧ rest = .ok () := by
  by_cases h : fails
  · rw [if_pos h]
    exact iff_of_false nofun fun hpassed => hpassed.1 h
  · rw [if_neg h]
    exact (and_iff_right h).symm

/-- The validator accepts the valid events. -/
theorem validate_eq_ok_iff : validate config now_ms event = .ok () ↔ event.Valid config now_ms := by
  have hlat := finite_between_iff event.lat (-90) 90
  have hlon := finite_between_iff event.lon (-180) 180
  unfold validate
  simp only [check_eq_ok_iff]
  constructor
  · rintro ⟨hid, hfinite, hlat_range, hlon_range, hseq, haccuracy, htimestamp, hfuture, hold, -⟩
    rw [Bool.or_eq_true, Bool.not_eq_true', Bool.not_eq_true', not_or, Bool.not_eq_false,
      Bool.not_eq_false] at hfinite
    rw [not_or] at hlat_range hlon_range
    exact ⟨hid, hlat.mp ⟨hfinite.1, hlat_range⟩, hlon.mp ⟨hfinite.2, hlon_range⟩, hseq, haccuracy,
      by omega, by omega, by omega⟩
  · rintro ⟨hid, hlat_valid, hlon_valid, hseq, haccuracy, htimestamp, hfuture, hold⟩
    obtain ⟨hlat_finite, hlat_range⟩ := hlat.mpr hlat_valid
    obtain ⟨hlon_finite, hlon_range⟩ := hlon.mpr hlon_valid
    rw [hlat_finite, hlon_finite]
    exact ⟨hid, by decide, not_or.mpr hlat_range, not_or.mpr hlon_range, hseq, haccuracy, by omega,
      by omega, by omega, trivial⟩

end SignalRoute
