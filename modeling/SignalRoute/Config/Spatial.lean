import SignalRoute.Query.Nearby
import SignalRoute.Numeric.Text

/-!
# The spatial configuration, and what it promises a query

`src/common/config/config.cpp`: the values of the section `spatial`, their checks, and the two
things that the nearby query makes of them, a cell index and its limits.

The checks bound the resolution and want a positive radius, but not a finite one, nor one whose disk
has a size that fits an `int`: that takes a radius of at most 26754 cell edges.
-/

namespace SignalRoute

open Numeric (Double)
open Store (HashOrder UnorderedMap)

namespace Config

/-- `SectionMap`: for each section, the text of each key. -/
abbrev SectionMap : Type := UnorderedMap String (UnorderedMap String String)

/-- `raw_value`. -/
def raw_value (sections : SectionMap) (section_ key : String) : Option String := do
  (← sections.lookup section_).lookup key

/-- `get_int`: a `long` that is the whole text and fits an `int`. -/
def get_int (sections : SectionMap) (section_ key : String) (fallback : ℤ) (path : String) :
    Except Exception ℤ :=
  match raw_value sections section_ key with
  | none => .ok fallback
  | some value =>
    match Numeric.stoll value with
    | .ok parsed =>
      if Numeric.integerRest value ≠ [] ∨ parsed < -2^31 ∨ 2^31 - 1 < parsed then
        .error (.std ("Config parse error in " ++ path ++ ": expected integer for " ++ section_ ++
          "." ++ key))
      else .ok parsed
    | .error _ =>
      .error (.std ("Config parse error in " ++ path ++ ": expected integer for " ++ section_ ++
        "." ++ key))

/-- `get_double`: a floating numeral that is the whole text. -/
def get_double (sections : SectionMap) (section_ key : String) (fallback : Double) (path : String) :
    Except Exception Double :=
  match raw_value sections section_ key with
  | none => .ok fallback
  | some value =>
    match Numeric.stod value with
    | .ok parsed =>
      if Numeric.floatingRest value ≠ [] then
        .error (.std ("Config parse error in " ++ path ++ ": expected number for " ++ section_ ++
          "." ++ key))
      else .ok parsed
    | .error _ =>
      .error (.std ("Config parse error in " ++ path ++ ": expected number for " ++ section_ ++
        "." ++ key))

/-- A check of `validate_config`: it throws unless the condition holds. -/
def require (condition : Prop) [Decidable condition] (what : String) : Except Exception Unit :=
  if condition then .ok () else .error (.std ("Invalid config: " ++ what))

/-- `require_positive`. -/
def require_positive (value : ℤ) (name : String) : Except Exception Unit :=
  require (¬value ≤ 0) (name ++ " must be positive")

/-- A check passes exactly where its condition holds. -/
theorem require_ok_iff {condition : Prop} [Decidable condition] {what : String} :
    require condition what = .ok () ↔ condition := by
  unfold require
  split
  · exact iff_of_true rfl ‹_›
  · exact iff_of_false nofun ‹_›

/-- A check before others passes, and the others pass. -/
theorem seq_ok_iff {x y : Except Exception Unit} :
    (do x; y) = .ok () ↔ x = .ok () ∧ y = .ok () := by
  cases x with
  | error e => exact iff_of_false nofun nofun
  | ok a => exact ⟨fun h => ⟨rfl, h⟩, fun h => h.2⟩

/-- `SpatialConfig` (`config.h`) as it is loaded. -/
structure SpatialSection where
  h3_resolution : ℤ := 7
  nearby_max_results : ℤ := 1000
  nearby_max_radius_m : Double := .finite 50000
  h3_cache_size_mb : ℤ := 64
  deriving DecidableEq

namespace SpatialSection

/-- The part of `Config::load` that reads the section. -/
def load (sections : SectionMap) (path : String) : Except Exception SpatialSection := do
  let config : SpatialSection := {}
  let h3_resolution ← get_int sections "spatial" "h3_resolution" config.h3_resolution path
  let nearby_max_results ←
    get_int sections "spatial" "nearby_max_results" config.nearby_max_results path
  let nearby_max_radius_m ←
    get_double sections "spatial" "nearby_max_radius_m" config.nearby_max_radius_m path
  let h3_cache_size_mb ← get_int sections "spatial" "h3_cache_size_mb" config.h3_cache_size_mb path
  return { h3_resolution, nearby_max_results, nearby_max_radius_m, h3_cache_size_mb }

/-- The part of `validate_config` that checks the section. -/
def validate (config : SpatialSection) : Except Exception Unit := do
  require (¬(config.h3_resolution < 0 ∨ 15 < config.h3_resolution))
    "spatial.h3_resolution must be between 0 and 15"
  require_positive config.nearby_max_results "spatial.nearby_max_results"
  require (¬config.nearby_max_radius_m ≤ .finite 0) "spatial.nearby_max_radius_m must be positive"
  require_positive config.h3_cache_size_mb "spatial.h3_cache_size_mb"

/-- What the checks establish. A radius that is not a number passes, as an infinite one does. -/
theorem validate_ok_iff (config : SpatialSection) : config.validate = .ok () ↔
    (0 ≤ config.h3_resolution ∧ config.h3_resolution ≤ 15) ∧ 0 < config.nearby_max_results ∧
      ¬config.nearby_max_radius_m ≤ .finite 0 ∧ 0 < config.h3_cache_size_mb := by
  unfold validate require_positive
  simp only [seq_ok_iff, require_ok_iff, not_or, not_lt, not_le]

/-- The defaults pass their checks. -/
theorem validate_default : validate {} = .ok () := by
  rw [validate_ok_iff]
  decide +kernel

/-- The constructor of `H3Index` takes every resolution that passes the check. -/
def h3 (config : SpatialSection) (h : config.validate = .ok ()) : H3Index where
  resolution := config.h3_resolution.toNat
  valid := by
    have := (config.validate_ok_iff.mp h).1
    omega

/-- The limits of the nearby query. -/
def limits (config : SpatialSection) (h : config.validate = .ok ()) : SpatialConfig where
  nearby_max_results := config.nearby_max_results
  nearby_max_radius_m := config.nearby_max_radius_m
  max_results_pos := (config.validate_ok_iff.mp h).2.1
  max_radius_pos := (config.validate_ok_iff.mp h).2.2.1

end SpatialSection

end Config

/-- The size of the disk of a radius fits an `int`: the radius is a finite number that the edge length goes
into at most 26754 times, as doubles are divided. -/
def H3Index.DiskFits (h3 : H3Index) (radius_m : Double) : Prop :=
  radius_m.isfinite = true ∧ h3.edges radius_m.toRat ≤ 26754

instance (h3 : H3Index) (radius_m : Double) : Decidable (h3.DiskFits radius_m) :=
  inferInstanceAs (Decidable (_ ∧ _))

namespace NearbyHandler

open Config (SectionMap SpatialSection)

/-- What the checks at the start of `handle` let through. -/
def Admitted (lat lon radius_m : Double) (last_seen_s : ℤ) : Prop :=
  valid_lat_lon lat lon = true ∧ radius_m.isfinite = true ∧ .finite 0 < radius_m ∧ 0 ≤ last_seen_s

section Safety

variable {D : Type} [LinearOrder D] (haversine : ℚ → ℚ → ℚ → ℚ → D) (metres : ℚ → D)

/-- The arithmetic of the query is safe: for every request the radius that `radius_to_k` gets is
finite and at most a finite maximum, the number of rings fits an `int`, and so does the number of
cells that `grid_disk` reserves; and the query returns. -/
def QueriesSafe (h3 : H3Index) (cfg : SpatialConfig) : Prop :=
  ∀ lat lon radius_m last_seen_s,
    (Admitted lat lon radius_m last_seen_s → ∃ r m k,
      effective_radius cfg radius_m = .finite r ∧ cfg.nearby_max_radius_m = .finite m ∧ r ≤ m ∧
      h3.radius_to_k (.finite r) = .ok k ∧ k ≤ 2^31 - 1 ∧ 3 * k * (k + 1) + 1 ≤ 2^31 - 1) ∧
    ∀ order redis now_ms limit, ∃ result, handle haversine metres h3 cfg order redis now_ms lat lon
      radius_m limit last_seen_s = .ok result

/-- Any other request is answered with nothing. -/
theorem handle_of_not_admitted (h3 : H3Index) (cfg : SpatialConfig) (order : HashOrder)
    (redis : RedisClient) (now_ms limit : ℤ) {lat lon radius_m : Double} {last_seen_s : ℤ}
    (h : ¬Admitted lat lon radius_m last_seen_s) :
    handle haversine metres h3 cfg order redis now_ms lat lon radius_m limit last_seen_s =
      .ok {} := by
  unfold handle
  rw [if_pos]
  · rfl
  · by_contra hpass
    refine h ?_
    simp only [Bool.or_eq_true, Bool.not_eq_true', decide_eq_true_eq, not_or,
      Bool.not_eq_false] at hpass
    obtain ⟨⟨⟨⟨⟨⟨⟨⟨hlat, hlon⟩, hradius⟩, h1⟩, h2⟩, h3⟩, h4⟩, h5⟩, h6⟩ := hpass
    obtain ⟨a, rfl⟩ := lat.isfinite_iff.mp hlat
    obtain ⟨b, rfl⟩ := lon.isfinite_iff.mp hlon
    obtain ⟨q, rfl⟩ := radius_m.isfinite_iff.mp hradius
    simp only [Double.finite_lt_finite, Double.finite_le_finite, not_lt, not_le] at h1 h2 h3 h4 h5 h6
    exact ⟨(valid_lat_lon_iff _ _).mpr ⟨a, b, rfl, rfl, h1, h2, h3, h4⟩, rfl,
      (Double.finite_lt_finite _ _).mpr h5, h6⟩

/-- The disks whose size fits an `int` are those of at most 26754 rings. -/
theorem disk_fits_iff {k : ℤ} (hk : 0 ≤ k) : 3 * k * (k + 1) + 1 ≤ 2^31 - 1 ↔ k ≤ 26754 := by
  constructor
  · intro h
    by_contra hlt
    nlinarith
  · intro h
    nlinarith

omit [LinearOrder D] in
/-- Under such a maximum, a request that the checks let through has a radius of at most 26754
rings. -/
theorem Admitted.request {h3 : H3Index} {cfg : SpatialConfig} {lat lon radius_m : Double}
    {last_seen_s : ℤ} (hfits : h3.DiskFits cfg.nearby_max_radius_m)
    (h : Admitted lat lon radius_m last_seen_s) : ∃ r m k,
      effective_radius cfg radius_m = .finite r ∧ cfg.nearby_max_radius_m = .finite m ∧ r ≤ m ∧
      k ≤ 26754 ∧ h3.radius_to_k (.finite r) = .ok k ∧
      Request h3 cfg lat lon radius_m last_seen_s k := by
  obtain ⟨hposition, hfinite, hradius, hlast⟩ := h
  obtain ⟨q, rfl⟩ := radius_m.isfinite_iff.mp hfinite
  have hq : 0 < q := (Double.finite_lt_finite _ _).mp hradius
  obtain ⟨hmfinite, hmax⟩ := hfits
  obtain ⟨m, hm⟩ := cfg.nearby_max_radius_m.isfinite_iff.mp hmfinite
  have hpos := cfg.max_radius_pos
  rw [hm, Double.toRat_finite] at hmax
  rw [hm, Double.finite_le_finite] at hpos
  have heff : effective_radius cfg (.finite q) = .finite (min q m) := by
    rw [← Double.finite_min, ← hm]
    rfl
  have hmin : 0 ≤ min q m := le_min hq.le (not_le.mp hpos).le
  have hk := h3.radius_to_k_finite hmin
  have hle : ⌈h3.edges (min q m)⌉ ≤ 26754 := by
    rw [Int.ceil_le]
    exact (h3.edges_mono hmin (min_le_right q m)).trans (by exact_mod_cast hmax)
  have hnonneg : 0 ≤ ⌈h3.edges (min q m)⌉ := Int.ceil_nonneg (h3.edges_nonneg hmin)
  refine ⟨min q m, m, _, heff, hm, min_le_right q m, hle, hk, ?_⟩
  exact
    { position := hposition
      radius_finite := hfinite
      radius_pos := hradius
      last_seen := hlast
      rings := by
        rw [← hk, ← heff]
        rfl
      disk_fits := (disk_fits_iff hnonneg).mpr hle }

/-- The query's arithmetic is safe for every request exactly if the disk of the configured maximum radius
fits. -/
theorem queriesSafe_iff (h3 : H3Index) (cfg : SpatialConfig) :
    QueriesSafe haversine metres h3 cfg ↔ h3.DiskFits cfg.nearby_max_radius_m := by
  constructor
  · intro hsafe
    -- The first request tells that the maximum is finite; the second one asks for all of it.
    obtain ⟨-, m, -, -, hm, -⟩ := (hsafe (.finite 0) (.finite 0) (.finite 1) 0).1
      ⟨by decide +kernel, rfl, by decide +kernel, le_refl 0⟩
    have hpos := cfg.max_radius_pos
    rw [hm, Double.finite_le_finite, not_le] at hpos
    obtain ⟨r, -, k, hr, -, -, hk, -, hfits⟩ := (hsafe (.finite 0) (.finite 0) (.finite m) 0).1
      ⟨by decide +kernel, rfl, (Double.finite_lt_finite _ _).mpr hpos, le_refl 0⟩
    unfold effective_radius at hr
    rw [hm, ite_self, Double.finite.injEq] at hr
    rw [← hr, h3.radius_to_k_finite hpos.le, Except.ok.injEq] at hk
    have hnonneg : 0 ≤ k := hk ▸ Int.ceil_nonneg (h3.edges_nonneg hpos.le)
    rw [disk_fits_iff hnonneg, ← hk, Int.ceil_le] at hfits
    rw [hm]
    exact ⟨rfl, by exact_mod_cast hfits⟩
  · intro hmax lat lon radius_m last_seen_s
    by_cases hadm : Admitted lat lon radius_m last_seen_s
    · obtain ⟨r, m, k, heff, hm, hrm, hle, hk, hreq⟩ := hadm.request hmax
      refine ⟨fun _ => ⟨r, m, k, heff, hm, hrm, hk, by omega, hreq.disk_fits⟩, ?_⟩
      intro order redis now_ms limit
      obtain ⟨total, hrun⟩ := handle_eq haversine metres order redis now_ms limit hreq
      exact ⟨_, hrun⟩
    · exact ⟨fun h => absurd h hadm, fun order redis now_ms limit =>
        ⟨{}, handle_of_not_admitted haversine metres h3 cfg order redis now_ms limit hadm⟩⟩

/-- For every configuration that passes its checks, the query's arithmetic is safe for every request
if and only if the configured maximum radius is a finite number that the edge length of the configured
resolution goes into at most 26754 times, as doubles are divided. -/
theorem accepted_queriesSafe_iff (config : SpatialSection) (h : config.validate = .ok ()) :
    QueriesSafe haversine metres (config.h3 h) (config.limits h) ↔
      (config.h3 h).DiskFits config.nearby_max_radius_m :=
  queriesSafe_iff haversine metres (config.h3 h) (config.limits h)

end Safety

/-- The witness at the default configuration. -/
theorem accepted_queriesSafe_iff_default :
    QueriesSafe great_circle (fun r => (r : ℝ))
      (SpatialSection.h3 {} SpatialSection.validate_default)
      (SpatialSection.limits {} SpatialSection.validate_default) ↔
      (SpatialSection.h3 {} SpatialSection.validate_default).DiskFits (SpatialSection.nearby_max_radius_m {}) :=
  accepted_queriesSafe_iff great_circle (fun r => (r : ℝ)) {} SpatialSection.validate_default

/-- A file that sets one key of the section. -/
def setting (key value : String) : SectionMap :=
  AList.singleton "spatial" (AList.singleton key value)

/-- A file that sets the key to the value loads and passes the checks, and some request breaks the
arithmetic of the query. -/
def AcceptsUnsafe (key value : String) : Prop :=
  ∃ (config : SpatialSection) (h : config.validate = .ok ()),
    SpatialSection.load (setting key value) "signalroute.toml" = .ok config ∧
      ¬QueriesSafe great_circle (fun r => (r : ℝ)) (config.h3 h) (config.limits h)

/-- The finest resolution under the default radius, and an infinity or a NaN as the radius: all three
pass the checks, and some request breaks the arithmetic. -/
theorem accepted_unsafe : AcceptsUnsafe "h3_resolution" "15" ∧
    AcceptsUnsafe "nearby_max_radius_m" "inf" ∧ AcceptsUnsafe "nearby_max_radius_m" "nan" := by
  have hunsafe : ∀ (config : SpatialSection) (h : config.validate = .ok ()),
      ¬(config.h3 h).DiskFits config.nearby_max_radius_m →
      ¬QueriesSafe great_circle (fun r => (r : ℝ)) (config.h3 h) (config.limits h) :=
    fun config h hmax hsafe => hmax ((queriesSafe_iff _ _ _ _).mp hsafe)
  refine ⟨?_, ?_, ?_⟩
  · refine ⟨{ h3_resolution := 15 }, (SpatialSection.validate_ok_iff _).mpr (by decide +kernel),
      by decide +kernel, hunsafe _ _ ?_⟩
    show ¬H3Index.DiskFits ⟨15, le_rfl⟩ (.finite 50000)
    decide +kernel
  · exact ⟨{ nearby_max_radius_m := .infinite false },
      (SpatialSection.validate_ok_iff _).mpr (by decide +kernel),
      by decide +kernel, hunsafe _ _ nofun⟩
  · exact ⟨{ nearby_max_radius_m := .nan },
      (SpatialSection.validate_ok_iff _).mpr (by decide +kernel),
      by decide +kernel, hunsafe _ _ nofun⟩

end NearbyHandler

end SignalRoute
