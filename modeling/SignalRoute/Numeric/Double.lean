import Mathlib.Data.Rat.Floor
import Mathlib.Tactic.NormNum

/-!
# Doubles as extended rationals

Every finite IEEE double is a rational number, so a double is modelled as the rational that it
denotes, an infinity, or NaN. Comparisons are IEEE's: every comparison with NaN is false. Arithmetic
is exact on finite operands, without rounding or overflow, and signed zeros are identified;
the cases with an infinity or NaN follow IEEE.
-/

namespace Numeric

/-- A double: the rational it denotes, an infinity with its sign, or NaN. -/
inductive Double where
  | finite (q : ℚ)
  | infinite (negative : Bool)
  | nan
  deriving DecidableEq

namespace Double

instance : Coe ℚ Double := ⟨finite⟩

instance : Zero Double := ⟨finite 0⟩

instance : Inhabited Double := ⟨0⟩

/-- `std::isfinite`. -/
def isfinite : Double → Bool
  | finite _ => true
  | _ => false

/-- The rational that a finite double denotes; zero for the others. -/
def toRat : Double → ℚ
  | finite q => q
  | _ => 0

/-- IEEE `<`. -/
def lt : Double → Double → Bool
  | finite p, finite q => p < q
  | finite _, infinite t => !t
  | infinite s, finite _ => s
  | infinite s, infinite t => s && !t
  | _, _ => false

/-- IEEE `<=`. -/
def le : Double → Double → Bool
  | finite p, finite q => p ≤ q
  | finite _, infinite t => !t
  | infinite s, finite _ => s
  | infinite s, infinite t => s || !t
  | _, _ => false

instance : LT Double := ⟨fun a b => lt a b = true⟩

instance : LE Double := ⟨fun a b => le a b = true⟩

instance (a b : Double) : Decidable (a < b) := inferInstanceAs (Decidable (lt a b = true))

instance (a b : Double) : Decidable (a ≤ b) := inferInstanceAs (Decidable (le a b = true))

/-- Negation. -/
def neg : Double → Double
  | finite p => finite (-p)
  | infinite s => infinite (!s)
  | nan => nan

/-- Addition; opposite infinities have no sum. -/
def add : Double → Double → Double
  | finite p, finite q => finite (p + q)
  | finite _, infinite t => infinite t
  | infinite s, finite _ => infinite s
  | infinite s, infinite t => if s = t then infinite s else nan
  | _, _ => nan

/-- Multiplication; zero times an infinity has no value. -/
def mul : Double → Double → Double
  | finite p, finite q => finite (p * q)
  | finite p, infinite t => if p = 0 then nan else infinite (xor (decide (p < 0)) t)
  | infinite s, finite q => if q = 0 then nan else infinite (xor s (decide (q < 0)))
  | infinite s, infinite t => infinite (xor s t)
  | _, _ => nan

instance : Neg Double := ⟨neg⟩

instance : Add Double := ⟨add⟩

instance : Sub Double := ⟨fun a b => add a (neg b)⟩

instance : Mul Double := ⟨mul⟩

/-- `std::abs`. -/
def abs : Double → Double
  | finite p => finite |p|
  | infinite _ => infinite false
  | nan => nan

/-- `std::min`, which returns its first argument unless the second is smaller. -/
def min (a b : Double) : Double := if b < a then b else a

/-- `std::max`, which returns its first argument unless the second is larger. -/
def max (a b : Double) : Double := if a < b then b else a

@[simp] theorem isfinite_finite (p : ℚ) : isfinite (finite p) = true := rfl

@[simp] theorem isfinite_infinite (s : Bool) : isfinite (infinite s) = false := rfl

@[simp] theorem isfinite_nan : isfinite nan = false := rfl

@[simp] theorem toRat_finite (p : ℚ) : toRat (finite p) = p := rfl

@[simp] theorem finite_lt_finite (p q : ℚ) : finite p < finite q ↔ p < q := by
  show lt (finite p) (finite q) = true ↔ p < q
  simp [lt]

@[simp] theorem finite_le_finite (p q : ℚ) : finite p ≤ finite q ↔ p ≤ q := by
  show le (finite p) (finite q) = true ↔ p ≤ q
  simp [le]

@[simp] theorem not_nan_lt (a : Double) : ¬ nan < a := by
  cases a <;> exact Bool.false_ne_true

@[simp] theorem not_lt_nan (a : Double) : ¬ a < nan := by
  cases a <;> exact Bool.false_ne_true

@[simp] theorem not_nan_le (a : Double) : ¬ nan ≤ a := by
  cases a <;> exact Bool.false_ne_true

@[simp] theorem not_le_nan (a : Double) : ¬ a ≤ nan := by
  cases a <;> exact Bool.false_ne_true

@[simp] theorem finite_add (p q : ℚ) : finite p + finite q = finite (p + q) := rfl

@[simp] theorem finite_sub (p q : ℚ) : finite p - finite q = finite (p - q) := by
  show finite (p + -q) = finite (p - q)
  rw [sub_eq_add_neg]

@[simp] theorem finite_mul (p q : ℚ) : finite p * finite q = finite (p * q) := rfl

@[simp] theorem finite_max (p q : ℚ) : (finite p).max (finite q) = finite (Max.max p q) := by
  unfold max
  simp only [finite_lt_finite]
  split
  · rw [max_eq_right (le_of_lt ‹_›)]
  · rw [max_eq_left (not_lt.mp ‹_›)]

@[simp] theorem finite_min (p q : ℚ) : (finite p).min (finite q) = finite (Min.min p q) := by
  unfold min
  simp only [finite_lt_finite]
  split
  · rw [min_eq_right (le_of_lt ‹_›)]
  · rw [min_eq_left (not_lt.mp ‹_›)]

/-- Zero is a rational. -/
theorem zero_eq : (0 : Double) = finite 0 := rfl

/-- A finite double is the rational it denotes. -/
theorem isfinite_iff (a : Double) : a.isfinite = true ↔ ∃ q, a = finite q := by
  cases a <;> simp

end Double

end Numeric
