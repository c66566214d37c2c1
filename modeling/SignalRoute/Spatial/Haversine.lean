import Mathlib.Analysis.SpecialFunctions.Complex.Arg

/-!
# The haversine distance

`src/common/spatial/haversine.cpp` over the real numbers: the constants and functions of `<cmath>`
are the exact ones.
-/

namespace SignalRoute.geo

/-- `std::atan2`. -/
noncomputable def atan2 (y x : ℝ) : ℝ := Complex.arg ⟨x, y⟩

/-- `EARTH_RADIUS_M`. -/
noncomputable def EARTH_RADIUS_M : ℝ := 6371000

/-- `deg_to_rad`. -/
noncomputable def deg_to_rad (deg : ℝ) : ℝ := deg * Real.pi / 180

/-- `haversine`. -/
noncomputable def haversine (lat1 lon1 lat2 lon2 : ℝ) : ℝ :=
  let dlat := deg_to_rad (lat2 - lat1)
  let dlon := deg_to_rad (lon2 - lon1)
  let rlat1 := deg_to_rad lat1
  let rlat2 := deg_to_rad lat2
  let a := Real.sin (dlat / 2) * Real.sin (dlat / 2) +
    Real.cos rlat1 * Real.cos rlat2 * Real.sin (dlon / 2) * Real.sin (dlon / 2)
  let c := 2 * atan2 (√a) (√(1 - a))
  EARTH_RADIUS_M * c

/-- The two longitudes of the antimeridian name the same points: whatever the latitude, they are at
distance zero. -/
theorem haversine_antimeridian (lat : ℝ) : haversine lat 180 lat (-180) = 0 := by
  have hlon : deg_to_rad (-180 - 180) / 2 = -Real.pi := by
    unfold deg_to_rad
    ring
  have hlat : deg_to_rad (lat - lat) / 2 = 0 := by
    unfold deg_to_rad
    ring
  unfold haversine atan2
  simp only [hlon, hlat, Real.sin_zero, Real.sin_neg, Real.sin_pi]
  have hone : (⟨√(1 - (0 * 0 + Real.cos (deg_to_rad lat) * Real.cos (deg_to_rad lat) * -0 * -0)),
      √(0 * 0 + Real.cos (deg_to_rad lat) * Real.cos (deg_to_rad lat) * -0 * -0)⟩ : ℂ) = 1 := by
    apply Complex.ext <;> simp
  rw [hone, Complex.arg_one]
  ring

end SignalRoute.geo
