import SignalRoute.Store.Unordered
import Mathlib.Data.List.Chain
import Mathlib.Data.List.TakeWhile

/-!
# The rate limiter

`src/gateway/rate_limiter.cpp`: a counter for each device, which starts again at the first call that
comes a second or more after its start. The specification is the sliding window of its header:
however a second is placed over the calls of a device, at most `max_rps` of those in it are allowed.

The limiter decides each device by its own calls, and it refuses none that the sliding window would
not (`SlidingWindow.justified`). It allows more where a burst at the end of one window meets a burst
at the beginning of the next; `slidingWindow_iff` says how far apart the two have to be.
-/

namespace SignalRoute

open Store (UnorderedMap)

/-- `kWindow`: a second, in the nanoseconds of the steady clock. -/
def kWindow : ℤ := 1000000000

/-- `RateLimiter::Window`. -/
structure RateWindow where
  started_at : ℤ := 0
  count : ℤ := 0
  deriving DecidableEq

/-- `RateLimiter`. -/
structure RateLimiter where
  max_rps : ℤ
  windows : UnorderedMap String RateWindow := ∅

namespace RateWindow

variable (max_rps : ℤ) (window : RateWindow)

/-- What `allow` does to the window of a device, with the clock at `now_ns`. -/
def allow (now_ns : ℤ) : Bool × RateWindow :=
  let window := if window.count = 0 ∨ now_ns - window.started_at ≥ kWindow then ⟨now_ns, 0⟩ else window
  if window.count ≥ max_rps then (false, window)
  else (true, { window with count := window.count + 1 })

/-- A window after calls at some times. -/
def after (times : List ℤ) : RateWindow :=
  times.foldl (fun window now_ns => (window.allow max_rps now_ns).2) window

/-- The calls at some times, each with its answer. -/
def verdicts (window : RateWindow) : List ℤ → List (ℤ × Bool)
  | [] => []
  | now_ns :: times =>
    (now_ns, (window.allow max_rps now_ns).1) :: verdicts (window.allow max_rps now_ns).2 times

/-- Calls after other calls. -/
theorem verdicts_append (times later : List ℤ) :
    verdicts max_rps window (times ++ later) =
      verdicts max_rps window times ++ verdicts max_rps (window.after max_rps times) later := by
  induction times generalizing window with
  | nil => rfl
  | cons t times ih =>
    rw [List.cons_append, verdicts, verdicts, ih, List.cons_append]
    rfl

end RateWindow

namespace RateLimiter

/-- `windows_[device_id]`. -/
def window (limiter : RateLimiter) (device_id : String) : RateWindow :=
  (limiter.windows.lookup device_id).getD {}

/-- `allow`. -/
def allow (limiter : RateLimiter) (device_id : String) (now_ns : ℤ) : Bool × RateLimiter :=
  if device_id = "" ∨ limiter.max_rps ≤ 0 then (false, limiter)
  else
    let (allowed, window) := (limiter.window device_id).allow limiter.max_rps now_ns
    (allowed, { limiter with windows := limiter.windows.insert device_id window })

/-- The limiter after some calls, each a device and a time. -/
def after (limiter : RateLimiter) (calls : List (String × ℤ)) : RateLimiter :=
  calls.foldl (fun limiter call => (limiter.allow call.1 call.2).2) limiter

/-- Some calls, each with its answer. -/
def answers (limiter : RateLimiter) : List (String × ℤ) → List ((String × ℤ) × Bool)
  | [] => []
  | call :: calls =>
    (call, (limiter.allow call.1 call.2).1) :: answers (limiter.allow call.1 call.2).2 calls

/-- The times of the calls of a device. -/
def times (device_id : String) (calls : List (String × ℤ)) : List ℤ :=
  (calls.filter fun call => call.1 = device_id).map Prod.snd

/-- The answers to the calls of a device. -/
def verdicts (limiter : RateLimiter) (device_id : String) (calls : List (String × ℤ)) :
    List (ℤ × Bool) :=
  ((limiter.answers calls).filter fun answer => answer.1.1 = device_id).map fun answer =>
    (answer.1.2, answer.2)

/-- The times of the allowed calls. -/
def granted (verdicts : List (ℤ × Bool)) : List ℤ := (verdicts.filter Prod.snd).map Prod.fst

/-- A sliding window of a second: at most `max_rps` calls of a device are allowed in any second, the
answers to a device depend on its own calls, and a call is refused only after `max_rps` calls of the
device were allowed in the second before it. -/
structure SlidingWindow (max_rps : ℤ) (calls : List (String × ℤ)) : Prop where
  bound : ∀ device_id from_ns, ((granted (verdicts ⟨max_rps, ∅⟩ device_id calls)).countP
    fun t => from_ns ≤ t ∧ t < from_ns + kWindow) ≤ max_rps
  own : ∀ device_id others, times device_id others = times device_id calls →
    verdicts ⟨max_rps, ∅⟩ device_id others = verdicts ⟨max_rps, ∅⟩ device_id calls
  justified : ∀ earlier device_id now_ns later, calls = earlier ++ (device_id, now_ns) :: later →
    ((after ⟨max_rps, ∅⟩ earlier).allow device_id now_ns).1 = false →
    max_rps ≤ (granted (verdicts ⟨max_rps, ∅⟩ device_id earlier)).countP
      fun t => now_ns - kWindow < t ∧ t ≤ now_ns

section Devices

variable {limiter : RateLimiter} {device_id : String}

/-- A call of a device, with a positive limit, concerns the window of that device. -/
theorem allow_eq (hmax : 0 < limiter.max_rps) (hid : device_id ≠ "") (now_ns : ℤ) :
    (limiter.allow device_id now_ns).1 =
        ((limiter.window device_id).allow limiter.max_rps now_ns).1 ∧
      (limiter.allow device_id now_ns).2.window device_id =
        ((limiter.window device_id).allow limiter.max_rps now_ns).2 := by
  unfold allow
  rw [if_neg (not_or.mpr ⟨hid, not_le.mpr hmax⟩)]
  refine ⟨rfl, ?_⟩
  unfold window
  rw [AList.lookup_insert]
  rfl

/-- A call of another device leaves the window. -/
theorem window_allow_of_ne {other : String} (hne : device_id ≠ other) (now_ns : ℤ) :
    (limiter.allow other now_ns).2.window device_id = limiter.window device_id := by
  unfold allow
  split
  · rfl
  · unfold window
    rw [AList.lookup_insert_ne hne]

/-- The limit stays. -/
theorem max_rps_allow (now_ns : ℤ) :
    (limiter.allow device_id now_ns).2.max_rps = limiter.max_rps := by
  unfold allow
  split <;> rfl

/-- The limiter answers a device as a window of its own does. -/
theorem verdicts_eq (hmax : 0 < limiter.max_rps) (hid : device_id ≠ "")
    (calls : List (String × ℤ)) : limiter.verdicts device_id calls =
      (limiter.window device_id).verdicts limiter.max_rps (times device_id calls) := by
  induction calls generalizing limiter with
  | nil => rfl
  | cons call calls ih =>
    obtain ⟨other, now_ns⟩ := call
    have hrest := @ih (limiter.allow other now_ns).2 (by rwa [max_rps_allow])
    rw [max_rps_allow] at hrest
    unfold verdicts times at hrest ⊢
    rw [answers]
    by_cases heq : other = device_id
    · subst heq
      obtain ⟨hanswer, hwindow⟩ := allow_eq hmax hid now_ns
      rw [List.filter_cons_of_pos (by simp), List.filter_cons_of_pos (by simp), List.map_cons,
        List.map_cons, hrest, hwindow, hanswer]
      rfl
    · rw [List.filter_cons_of_neg (by simpa using heq), List.filter_cons_of_neg (by simpa using heq),
        hrest, window_allow_of_ne (Ne.symm heq)]

/-- The window of a device after some calls. -/
theorem window_after (hmax : 0 < limiter.max_rps) (hid : device_id ≠ "")
    (calls : List (String × ℤ)) : (limiter.after calls).max_rps = limiter.max_rps ∧
      (limiter.after calls).window device_id =
        (limiter.window device_id).after limiter.max_rps (times device_id calls) := by
  induction calls generalizing limiter with
  | nil => exact ⟨rfl, rfl⟩
  | cons call calls ih =>
    obtain ⟨other, now_ns⟩ := call
    have hrest := @ih (limiter.allow other now_ns).2 (by rwa [max_rps_allow])
    rw [max_rps_allow] at hrest
    refine ⟨hrest.1, hrest.2.trans ?_⟩
    unfold times
    by_cases heq : other = device_id
    · subst heq
      rw [List.filter_cons_of_pos (by simp), List.map_cons, (allow_eq hmax hid now_ns).2]
      rfl
    · rw [List.filter_cons_of_neg (by simpa using heq), window_allow_of_ne (Ne.symm heq)]

/-- A call without a device id is refused. -/
theorem verdicts_of_empty (calls : List (String × ℤ)) :
    limiter.verdicts "" calls = (times "" calls).map fun now_ns => (now_ns, false) := by
  induction calls generalizing limiter with
  | nil => rfl
  | cons call calls ih =>
    obtain ⟨other, now_ns⟩ := call
    have hrest := @ih (limiter.allow other now_ns).2
    unfold verdicts times at hrest ⊢
    rw [answers]
    by_cases heq : other = ""
    · subst heq
      have hrefused : (limiter.allow "" now_ns).1 = false := by
        unfold allow
        rw [if_pos (.inl rfl)]
      rw [List.filter_cons_of_pos (by simp), List.filter_cons_of_pos (by simp), List.map_cons,
        List.map_cons, List.map_cons, hrest, hrefused]
    · rw [List.filter_cons_of_neg (by simpa using heq), List.filter_cons_of_neg (by simpa using heq),
        hrest]

end Devices

end RateLimiter

/-! ## Elements far apart -/

/-- Of `m + 1` elements in a row, the first and the last are at least `d` apart. -/
def Scattered (m : ℕ) (d : ℤ) (l : List ℤ) : Prop :=
  ∀ (k : ℕ) (x y : ℤ), l[k]? = some x → l[k + m]? = some y → x + d ≤ y

/-- A sorted list is scattered exactly if no interval of length `d` has more than `m` of its
elements. -/
theorem scattered_iff {m : ℕ} {d : ℤ} {l : List ℤ} (hl : l.Pairwise (· ≤ ·)) :
    Scattered m d l ↔ ∀ a, (l.countP fun t => a ≤ t ∧ t < a + d) ≤ m := by
  constructor
  · intro hsc a
    induction l with
    | nil => simp
    | cons x l ih =>
      have hrest : Scattered m d l := fun k y z hy hz => hsc (k + 1) y z hy (by
        rw [show k + 1 + m = (k + m) + 1 by omega]
        exact hz)
      by_cases hx : a ≤ x ∧ x < a + d
      · -- Everything from position `m` on is past the interval.
        have hdrop : ((x :: l).drop m).countP (fun t => a ≤ t ∧ t < a + d) = 0 := by
          rw [List.countP_eq_zero]
          intro t ht
          obtain ⟨i, hi⟩ := List.mem_iff_getElem?.mp ht
          rw [List.getElem?_drop] at hi
          obtain ⟨hlt, rfl⟩ := List.getElem?_eq_some_iff.mp hi
          have hfar := hsc 0 x (x :: l)[m] rfl (by rw [Nat.zero_add, List.getElem?_eq_getElem])
          have hle := hl.rel_get_of_le (a := ⟨m, by omega⟩) (b := ⟨m + i, hlt⟩)
            (Fin.mk_le_mk.mpr (by omega))
          simp only [List.get_eq_getElem] at hle
          simp only [decide_eq_true_eq, not_and, not_lt]
          omega
        rw [← List.take_append_drop m (x :: l), List.countP_append, hdrop]
        exact (List.countP_le_length).trans (by simp)
      · rw [List.countP_cons_of_neg (by simpa using hx)]
        exact ih hl.of_cons hrest
  · intro hcount k x y hx hy
    by_contra hlt
    obtain ⟨hk, rfl⟩ := List.getElem?_eq_some_iff.mp hx
    obtain ⟨hkm, rfl⟩ := List.getElem?_eq_some_iff.mp hy
    -- The elements from the first to the last are in the interval that begins at the first.
    have hall : ∀ t ∈ (l.drop k).take (m + 1), (decide (l[k] ≤ t ∧ t < l[k] + d)) = true := by
      intro t ht
      obtain ⟨i, hi, rfl⟩ := List.mem_take_iff_getElem.mp ht
      have hlo := hl.rel_get_of_le (a := ⟨k, hk⟩) (b := ⟨k + i, by simp at hi; omega⟩)
        (Fin.mk_le_mk.mpr (by omega))
      have hhi := hl.rel_get_of_le (a := ⟨k + i, by simp at hi; omega⟩) (b := ⟨k + m, hkm⟩)
        (Fin.mk_le_mk.mpr (by omega))
      simp only [List.get_eq_getElem] at hlo hhi
      rw [List.getElem_drop, decide_eq_true_eq]
      omega
    have hsub : ((l.drop k).take (m + 1)).Sublist l :=
      (List.take_sublist _ _).trans (List.drop_sublist _ _)
    have hle := (hsub.countP_le (p := fun t => l[k] ≤ t ∧ t < l[k] + d)).trans (hcount l[k])
    rw [List.countP_eq_length.mpr hall, List.length_take, List.length_drop] at hle
    omega

/-- A list of at most `m` elements before another one. -/
theorem scattered_append_iff {m : ℕ} {d : ℤ} {a l : List ℤ} (ha : a.length ≤ m) :
    Scattered m d (a ++ l) ↔
      (∀ (k i : ℕ) (x y : ℤ), a[k]? = some x → l[i]? = some y → k + m = a.length + i → x + d ≤ y) ∧
        Scattered m d l := by
  constructor
  · intro h
    refine ⟨fun k i x y hx hy hki => ?_, fun k x y hx hy => ?_⟩
    · have hk := (List.getElem?_eq_some_iff.mp hx).1
      refine h k x y (by rwa [List.getElem?_append_left hk]) ?_
      rw [hki, List.getElem?_append_right (by omega), Nat.add_sub_cancel_left]
      exact hy
    · refine h (a.length + k) x y ?_ ?_
      · rwa [List.getElem?_append_right (by omega), Nat.add_sub_cancel_left]
      · rwa [Nat.add_assoc, List.getElem?_append_right (by omega), Nat.add_sub_cancel_left]
  · rintro ⟨hcross, h⟩ k x y hx hy
    rw [List.getElem?_append_right (by omega)] at hy
    rcases Nat.lt_or_ge k a.length with hk | hk
    · rw [List.getElem?_append_left hk] at hx
      exact hcross k _ x y hx hy (by omega)
    · rw [List.getElem?_append_right hk] at hx
      refine h (k - a.length) x y hx ?_
      rwa [show k - a.length + m = k + m - a.length by omega]

/-! ## The windows of a device -/

namespace RateLimiter

/-- The times of a device's calls, window by window: a window begins at the first call that comes a
second or more after the beginning of the window before. -/
def windowsOf : List ℤ → List (List ℤ)
  | [] => []
  | t :: ts =>
    (t :: ts.takeWhile fun u => u < t + kWindow) :: windowsOf (ts.dropWhile fun u => u < t + kWindow)
termination_by ts => ts.length
decreasing_by exact Nat.lt_succ_of_le (List.length_dropWhile_le _ _)

/-- A burst at the end of a window and one at the beginning of the next are far enough apart: of the
first `m` calls of either, no `m + 1` in a row are within a second. -/
def Spaced (m : ℕ) (earlier later : List ℤ) : Prop :=
  ∀ (k i : ℕ) (x y : ℤ), (earlier.take m)[k]? = some x → (later.take m)[i]? = some y →
    k + m = (earlier.take m).length + i → x + kWindow ≤ y

/-- The calls that are counted: the first `m` of each window. -/
def counted (m : ℕ) (ts : List ℤ) : List ℤ := (windowsOf ts).flatMap fun w => w.take m

/-- The first window, and the others. -/
theorem counted_cons (m : ℕ) (t : ℤ) (ts : List ℤ) : counted m (t :: ts) =
    (t :: ts.takeWhile fun u => u < t + kWindow).take m ++
      counted m (ts.dropWhile fun u => u < t + kWindow) := by
  unfold counted
  rw [windowsOf, List.flatMap_cons]

/-- Only calls are counted, in their order. -/
theorem counted_sublist (m : ℕ) (ts : List ℤ) : (counted m ts).Sublist ts := by
  induction ts using windowsOf.induct with
  | case1 =>
    unfold counted
    rw [windowsOf]
    exact List.Sublist.refl _
  | case2 t ts ih =>
    rw [counted_cons]
    have happ := (List.take_sublist m (t :: ts.takeWhile fun u => u < t + kWindow)).append ih
    rwa [List.cons_append, List.takeWhile_append_dropWhile] at happ

/-- What is not in the first window comes a second or more after its beginning. -/
theorem le_of_mem_dropWhile {t u : ℤ} {ts : List ℤ} (hsorted : ts.Pairwise (· ≤ ·))
    (hu : u ∈ ts.dropWhile fun u => u < t + kWindow) : t + kWindow ≤ u := by
  induction ts with
  | nil => cases hu
  | cons v ts ih =>
    by_cases hv : v < t + kWindow
    · rw [List.dropWhile_cons_of_pos (by simpa using hv)] at hu
      exact ih hsorted.of_cons hu
    · rw [List.dropWhile_cons_of_neg (by simpa using hv)] at hu
      rcases List.mem_cons.mp hu with rfl | hu
      · exact not_lt.mp hv
      · exact (not_lt.mp hv).trans (List.rel_of_pairwise_cons hsorted hu)

/-- Where the windows are spaced, the counted calls are scattered, and conversely. -/
theorem scattered_counted_iff {m : ℕ} {ts : List ℤ} (hsorted : ts.Pairwise (· ≤ ·)) :
    Scattered m kWindow (counted m ts) ↔ (windowsOf ts).IsChain (Spaced m) := by
  induction ts using windowsOf.induct with
  | case1 =>
    unfold counted
    rw [windowsOf]
    exact iff_of_true (fun k x y h => by simp at h) List.IsChain.nil
  | case2 t ts ih =>
    have hrest := hsorted.of_cons.sublist (List.dropWhile_sublist fun u => u < t + kWindow)
    rw [counted_cons, scattered_append_iff (List.length_take_le m _), ih hrest, windowsOf, List.isChain_cons]
    refine and_congr_left' ?_
    generalize hw : t :: ts.takeWhile (fun u => u < t + kWindow) = w
    have hw_lt : ∀ u ∈ w.take m, u < t + kWindow := by
      intro u hu
      rw [← hw] at hu
      rcases List.mem_cons.mp (List.mem_of_mem_take hu) with rfl | hu
      · have : 0 < kWindow := by decide
        omega
      · simpa using List.mem_takeWhile_imp hu
    have hlater : ∀ u ∈ ts.dropWhile (fun u => u < t + kWindow), t + kWindow ≤ u :=
      fun u => le_of_mem_dropWhile hsorted.of_cons
    generalize ts.dropWhile (fun u => u < t + kWindow) = rest at hrest hlater
    cases rest with
    | nil =>
      unfold counted
      simp [windowsOf]
    | cons t' rest =>
      rw [counted_cons, windowsOf]
      simp only [List.head?_cons, Option.mem_some_iff, forall_eq']
      constructor
      · intro h k i x y hx hy hki
        refine h k i x y hx ?_ hki
        rwa [List.getElem?_append_left (List.getElem?_eq_some_iff.mp hy).1]
      · intro h k i x y hx hy hki
        rcases Nat.lt_or_ge i ((t' :: rest.takeWhile fun u => u < t' + kWindow).take m).length with
          hi | hi
        · rw [List.getElem?_append_left hi] at hy
          exact h k i x y hx hy hki
        · -- The second is in a later window, which begins a second after this one's end.
          rw [List.getElem?_append_right hi] at hy
          have hx' := hw_lt x (List.mem_of_getElem? hx)
          have ht' := hlater t' List.mem_cons_self
          have hy' := le_of_mem_dropWhile hrest.of_cons
            ((counted_sublist m _).subset (List.mem_of_getElem? hy))
          omega

/-! ## What the limiter allows -/

/-- Answers to calls after other calls. -/
theorem granted_append (l l' : List (ℤ × Bool)) : granted (l ++ l') = granted l ++ granted l' := by
  unfold granted
  rw [List.filter_append, List.map_append]

/-- One answer. -/
theorem granted_cons (t : ℤ) (allowed : Bool) (l : List (ℤ × Bool)) :
    granted ((t, allowed) :: l) = (if allowed then [t] else []) ++ granted l := by
  cases allowed <;> rfl

variable {max_rps : ℤ}

/-- A call that begins a window does so whatever the window before was. -/
theorem allow_of_reset (hmax : 0 < max_rps) {window : RateWindow} {t : ℤ}
    (h : window.count = 0 ∨ t - window.started_at ≥ kWindow) :
    window.allow max_rps t = (true, ⟨t, 1⟩) := by
  unfold RateWindow.allow
  rw [if_pos h]
  dsimp only
  rw [if_neg (by omega), Int.zero_add]

/-- A call within the window is allowed up to the limit. -/
theorem allow_of_within {window : RateWindow} {t : ℤ}
    (h : ¬(window.count = 0 ∨ t - window.started_at ≥ kWindow)) :
    window.allow max_rps t = if window.count ≥ max_rps then (false, window)
      else (true, { window with count := window.count + 1 }) := by
  unfold RateWindow.allow
  rw [if_neg h]

/-- Of the calls within a window that has `c` calls already, the first `max_rps - c` are allowed. -/
theorem granted_within {s c : ℤ} {l : List ℤ} (hc : 1 ≤ c) (hmax : c ≤ max_rps)
    (hl : ∀ u ∈ l, u < s + kWindow) : ∃ c', 1 ≤ c' ∧ ∀ later,
      granted (RateWindow.verdicts max_rps ⟨s, c⟩ (l ++ later)) =
        l.take (max_rps - c).toNat ++ granted (RateWindow.verdicts max_rps ⟨s, c'⟩ later) := by
  induction l generalizing c with
  | nil => exact ⟨c, hc, fun later => by simp⟩
  | cons t l ih =>
    have ht := hl t List.mem_cons_self
    have hrest : ∀ u ∈ l, u < s + kWindow := fun u hu => hl u (List.mem_cons_of_mem _ hu)
    have hallow : RateWindow.allow max_rps ⟨s, c⟩ t = _ := allow_of_within (by
      dsimp only
      omega)
    by_cases hfull : c ≥ max_rps
    · rw [if_pos hfull] at hallow
      obtain ⟨c', hc', hih⟩ := ih hc hmax hrest
      refine ⟨c', hc', fun later => ?_⟩
      rw [List.cons_append, RateWindow.verdicts, hallow, granted_cons, hih,
        show (max_rps - c).toNat = 0 by omega]
      rfl
    · rw [if_neg hfull] at hallow
      obtain ⟨c', hc', hih⟩ := ih (c := c + 1) (by omega) (by omega) hrest
      refine ⟨c', hc', fun later => ?_⟩
      rw [List.cons_append, RateWindow.verdicts, hallow, granted_cons, hih,
        show (max_rps - c).toNat = (max_rps - (c + 1)).toNat + 1 by omega]
      rfl

/-- The allowed calls of a device are the counted ones. -/
theorem granted_eq_counted (hmax : 0 < max_rps) (ts : List ℤ) :
    granted (RateWindow.verdicts max_rps {} ts) = counted max_rps.toNat ts := by
  induction ts using windowsOf.induct with
  | case1 =>
    unfold counted
    rw [windowsOf]
    rfl
  | case2 t ts ih =>
    obtain ⟨c, hc, hwithin⟩ := @granted_within max_rps t 1 (ts.takeWhile fun u => u < t + kWindow)
      (le_refl 1) (by omega) (fun u hu => by simpa using List.mem_takeWhile_imp hu)
    -- The next window forgets this one.
    have hnext : RateWindow.verdicts max_rps ⟨t, c⟩ (ts.dropWhile fun u => u < t + kWindow) =
        RateWindow.verdicts max_rps {} (ts.dropWhile fun u => u < t + kWindow) := by
      cases hd : ts.dropWhile fun u => u < t + kWindow with
      | nil => rfl
      | cons u rest =>
        have hu : ¬u < t + kWindow := by
          have hne : ts.dropWhile (fun u => decide (u < t + kWindow)) ≠ [] := by
            rw [hd]
            exact List.cons_ne_nil _ _
          have := List.head_dropWhile_not (fun u => decide (u < t + kWindow)) hne
          simpa [hd] using this
        rw [RateWindow.verdicts, RateWindow.verdicts,
          @allow_of_reset max_rps hmax ⟨t, c⟩ _ (.inr (by dsimp only; omega)),
          @allow_of_reset max_rps hmax {} _ (.inl rfl)]
    rw [RateWindow.verdicts, @allow_of_reset max_rps hmax {} _ (.inl rfl), granted_cons, counted_cons,
      ← ih, ← hnext]
    have hrun := hwithin (ts.dropWhile fun u => u < t + kWindow)
    rw [List.takeWhile_append_dropWhile] at hrun
    rw [hrun, show max_rps.toNat = (max_rps - 1).toNat + 1 by omega, List.take_succ_cons]
    rfl

/-- The state of a window, in terms of what it allowed: it began at one of the calls, and as many as
it counts were allowed since. -/
structure Counts (max_rps : ℤ) (ts : List ℤ) (window : RateWindow) : Prop where
  started : window.count ≠ 0 → window.started_at ∈ ts
  count_le : window.count ≤
    (granted (RateWindow.verdicts max_rps {} ts)).countP fun t => window.started_at ≤ t

/-- The counts are true after every run. -/
theorem counts_after (hmax : 0 < max_rps) {ts : List ℤ} (hsorted : ts.Pairwise (· ≤ ·)) :
    Counts max_rps ts (RateWindow.after max_rps {} ts) := by
  induction ts using List.reverseRecOn with
  | nil => exact ⟨fun h => absurd rfl h, le_refl 0⟩
  | append_singleton ts t ih =>
    obtain ⟨hts, -, hlast⟩ := List.pairwise_append.mp hsorted
    obtain ⟨hstarted, hcount⟩ := ih hts
    have hafter : RateWindow.after max_rps {} (ts ++ [t]) =
        ((RateWindow.after max_rps {} ts).allow max_rps t).2 := by
      unfold RateWindow.after
      rw [List.foldl_append]
      rfl
    have hrun := RateWindow.verdicts_append max_rps {} ts [t]
    rw [RateWindow.verdicts, RateWindow.verdicts] at hrun
    generalize RateWindow.after max_rps {} ts = window at hstarted hcount hafter hrun
    by_cases hreset : window.count = 0 ∨ t - window.started_at ≥ kWindow
    · -- The call begins a window, and is allowed.
      rw [allow_of_reset hmax hreset] at hafter hrun
      rw [hafter]
      refine ⟨fun _ => List.mem_append_right _ List.mem_cons_self, ?_⟩
      have hone : ((if true then [t] else []) ++ granted []).countP (fun u => t ≤ u) = 1 := by
        simp [granted]
      rw [hrun, granted_append, granted_cons, List.countP_append, hone]
      dsimp only
      omega
    · rw [allow_of_within hreset] at hafter hrun
      have hin := hstarted fun h => hreset (.inl h)
      split at hafter
      · rename_i hfull
        rw [if_pos hfull] at hrun
        rw [hafter]
        refine ⟨fun h => List.mem_append_left _ (hstarted h), ?_⟩
        rw [hrun, granted_append, granted_cons]
        exact hcount.trans (Int.ofNat_le.mpr (List.sublist_append_left _ _).countP_le)
      · rename_i hfull
        rw [if_neg hfull] at hrun
        rw [hafter]
        refine ⟨fun _ => List.mem_append_left _ hin, ?_⟩
        have hle : window.started_at ≤ t := hlast _ hin t List.mem_cons_self
        have hone : ((if true then [t] else []) ++ granted []).countP
            (fun u => window.started_at ≤ u) = 1 := by
          simp [granted, hle]
        rw [hrun, granted_append, granted_cons, List.countP_append, hone]
        dsimp only
        omega

/-- A window refuses a call only if it allowed `max_rps` calls in the second before. -/
theorem refused_only_if (hmax : 0 < max_rps) {ts : List ℤ} {t : ℤ}
    (hsorted : (ts ++ [t]).Pairwise (· ≤ ·))
    (h : ((RateWindow.after max_rps {} ts).allow max_rps t).1 = false) :
    max_rps ≤ (granted (RateWindow.verdicts max_rps {} ts)).countP
      fun u => t - kWindow < u ∧ u ≤ t := by
  obtain ⟨hts, -, hlast⟩ := List.pairwise_append.mp hsorted
  obtain ⟨-, hcount⟩ := counts_after hmax hts
  generalize RateWindow.after max_rps {} ts = window at h hcount
  by_cases hreset : window.count = 0 ∨ t - window.started_at ≥ kWindow
  · rw [allow_of_reset hmax hreset] at h
    cases h
  · rw [allow_of_within hreset] at h
    have hfull : window.count ≥ max_rps := by
      by_contra hnot
      rw [if_neg hnot] at h
      cases h
    refine (hfull.trans hcount).trans (Int.ofNat_le.mpr (List.countP_mono_left fun u hu hle => ?_))
    have hu' : u ∈ ts := by
      rw [granted_eq_counted hmax] at hu
      exact (counted_sublist _ _).subset hu
    have := hlast u hu' t List.mem_cons_self
    simp only [decide_eq_true_eq] at hle ⊢
    omega

/-- Of a call without a device id nothing is allowed. -/
theorem granted_of_empty (limiter : RateLimiter) (calls : List (String × ℤ)) :
    granted (limiter.verdicts "" calls) = [] := by
  rw [verdicts_of_empty]
  unfold granted
  rw [List.map_eq_nil_iff, List.filter_eq_nil_iff]
  intro v hv
  obtain ⟨t, -, rfl⟩ := List.mem_map.mp hv
  exact Bool.false_ne_true

/-- A fresh limiter allows a device the counted calls. -/
theorem granted_fresh (hmax : 0 < max_rps) {device_id : String} (hid : device_id ≠ "")
    (calls : List (String × ℤ)) : granted (verdicts ⟨max_rps, ∅⟩ device_id calls) =
      counted max_rps.toNat (times device_id calls) := by
  rw [verdicts_eq hmax hid, ← granted_eq_counted hmax]
  rfl

/-- The answers to a device depend on the times of its calls alone. -/
theorem verdicts_congr (hmax : 0 < max_rps) {device_id : String} {calls others : List (String × ℤ)}
    (h : times device_id others = times device_id calls) :
    verdicts ⟨max_rps, ∅⟩ device_id others = verdicts ⟨max_rps, ∅⟩ device_id calls := by
  by_cases hd : device_id = ""
  · rw [hd] at h ⊢
    rw [verdicts_of_empty, verdicts_of_empty, h]
  · rw [verdicts_eq hmax hd, verdicts_eq hmax hd, h]

/-- A device has no more than the allowed calls in any second exactly if its windows are spaced. -/
theorem bound_iff (hmax : 0 < max_rps) {device_id : String} (hid : device_id ≠ "")
    {calls : List (String × ℤ)} (hsorted : (times device_id calls).Pairwise (· ≤ ·)) :
    (∀ from_ns, ((granted (verdicts ⟨max_rps, ∅⟩ device_id calls)).countP
      fun t => from_ns ≤ t ∧ t < from_ns + kWindow) ≤ max_rps) ↔
      (windowsOf (times device_id calls)).IsChain (Spaced max_rps.toNat) := by
  have hcounted : (counted max_rps.toNat (times device_id calls)).Pairwise (· ≤ ·) :=
    hsorted.sublist (counted_sublist _ _)
  rw [granted_fresh hmax hid, ← scattered_counted_iff hsorted, scattered_iff hcounted]
  refine forall_congr' fun from_ns => ?_
  omega

/-- A sliding window refuses no device without a call before, so each call names a device. -/
theorem SlidingWindow.named (hmax : 0 < max_rps) {calls : List (String × ℤ)}
    (h : SlidingWindow max_rps calls) : ∀ call ∈ calls, call.1 ≠ "" := by
  rintro ⟨device_id, now_ns⟩ hcall rfl
  obtain ⟨earlier, later, rfl⟩ := List.append_of_mem hcall
  have hle := h.justified earlier "" now_ns later rfl (by
    unfold allow
    rw [if_pos (.inl rfl)])
  rw [granted_of_empty] at hle
  exact absurd hle (not_le.mpr hmax)

/-- A device that no call names has no times. -/
theorem times_eq_nil {device_id : String} {calls : List (String × ℤ)}
    (h : ∀ call ∈ calls, call.1 ≠ device_id) : times device_id calls = [] := by
  unfold times
  rw [List.map_eq_nil_iff, List.filter_eq_nil_iff]
  exact fun call hcall heq => h call hcall (of_decide_eq_true heq)

/-- A call that names a device is refused only after the allowed calls in the second before. -/
theorem refused_named (hmax : 0 < max_rps) {earlier later : List (String × ℤ)} {device_id : String}
    {now_ns : ℤ} (hd : device_id ≠ "")
    (hsorted : (times device_id (earlier ++ (device_id, now_ns) :: later)).Pairwise (· ≤ ·))
    (hrefused : ((after ⟨max_rps, ∅⟩ earlier).allow device_id now_ns).1 = false) :
    max_rps ≤ (granted (verdicts ⟨max_rps, ∅⟩ device_id earlier)).countP
      fun t => now_ns - kWindow < t ∧ t ≤ now_ns := by
  obtain ⟨hlimit, hwindow⟩ := @window_after ⟨max_rps, ∅⟩ device_id hmax hd earlier
  rw [(allow_eq (hlimit ▸ hmax) hd now_ns).1, hwindow, hlimit] at hrefused
  rw [verdicts_eq hmax hd]
  refine refused_only_if hmax ?_ hrefused
  have htimes : times device_id (earlier ++ (device_id, now_ns) :: later) =
      (times device_id earlier ++ [now_ns]) ++ times device_id later := by
    unfold times
    rw [List.filter_append, List.filter_cons_of_pos (by simp), List.map_append, List.map_cons,
      List.append_assoc]
    rfl
  rw [htimes] at hsorted
  exact (List.pairwise_append.mp hsorted).1

/-- In a run with a clock that does not go back, the limiter is a sliding window if and only if every
call names a device and the windows of each device are spaced: the `i`-th counted call of a window
comes at least a second after the counted call of the window before that is `max_rps` places
earlier. -/
theorem slidingWindow_iff (hmax : 0 < max_rps) {calls : List (String × ℤ)}
    (hclock : calls.Pairwise fun a b => a.2 ≤ b.2) :
    SlidingWindow max_rps calls ↔ (∀ call ∈ calls, call.1 ≠ "") ∧
      ∀ device_id, (windowsOf (times device_id calls)).IsChain (Spaced max_rps.toNat) := by
  have hsorted : ∀ device_id, (times device_id calls).Pairwise (· ≤ ·) := fun device_id =>
    List.pairwise_map.mpr (hclock.sublist List.filter_sublist)
  constructor
  · intro h
    have hid := h.named hmax
    refine ⟨hid, fun device_id => ?_⟩
    by_cases hd : device_id = ""
    · rw [times_eq_nil (hd ▸ hid), windowsOf]
      exact List.IsChain.nil
    · exact (bound_iff hmax hd (hsorted device_id)).mp (h.bound device_id)
  · rintro ⟨hid, hspaced⟩
    refine ⟨fun device_id => ?_, fun device_id others => verdicts_congr hmax, ?_⟩
    · by_cases hd : device_id = ""
      · rw [hd]
        intro from_ns
        rw [granted_of_empty]
        exact hmax.le
      · exact (bound_iff hmax hd (hsorted device_id)).mpr (hspaced device_id)
    · rintro earlier device_id now_ns later rfl hrefused
      have hd : device_id ≠ "" := hid (device_id, now_ns) (by simp)
      exact refused_named hmax hd (hsorted device_id) hrefused

/-- The witness at a device that calls three times, twice within a second. -/
theorem slidingWindow_iff_three :
    SlidingWindow 2 [("d", 0), ("d", 900000000), ("d", 2000000000)] ↔
      (∀ call ∈ [("d", (0 : ℤ)), ("d", 900000000), ("d", 2000000000)], call.1 ≠ "") ∧
      ∀ device_id, (windowsOf (times device_id
        [("d", 0), ("d", 900000000), ("d", 2000000000)])).IsChain (Spaced (2 : ℤ).toNat) :=
  slidingWindow_iff (by decide) (by decide)

/-- With a limit of two, a call near the end of a window and two at the beginning of the next are all
allowed: three within 150 milliseconds. -/
theorem burst_across_windows :
    [("d", 0), ("d", 900000000), ("d", 1000000000), ("d", 1050000000)].Pairwise
        (fun a b : String × ℤ => a.2 ≤ b.2) ∧
      ¬SlidingWindow 2 [("d", 0), ("d", 900000000), ("d", 1000000000), ("d", 1050000000)] := by
  refine ⟨by decide, fun h => ?_⟩
  have hbound := h.bound "d" 900000000
  revert hbound
  decide +kernel

end RateLimiter

end SignalRoute
