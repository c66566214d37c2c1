import SignalRoute.Clients.CellIndex
import Mathlib.Algebra.BigOperators.Group.Finset.Sigma

/-!
# Sweeps of any cell index (in-memory build)

`RedisClient::remove_stale_cell_members` from a store whose cell sets may name any devices, also ones
without a state and in several cells, and whose sets may be empty. A membership is a cell with a device
in its set. A turn of the loop takes the stale memberships of its cell away and counts them
(`counts_sweep_cell`); since the loop comes to every cell once, the sums are those of the whole index
(`sweep_exact`).
-/

namespace SignalRoute

open Store (HashOrder)

namespace RedisClient

/-- The memberships: the cells with the devices in their sets. -/
def memberships (redis : RedisClient) : Finset (Σ _ : ℤ, String) :=
  redis.cell_devices.keys.toFinset.sigma redis.members

/-- The members of a cell without a state. -/
def stale (redis : RedisClient) (cell_id : ℤ) : Finset String :=
  (redis.members cell_id).filter fun d => (redis.device_states.lookup d).isSome = false

section Turns

variable (swept : (ℕ × ℕ) × RedisClient) (cell_id : ℤ)

theorem mem_memberships {redis : RedisClient} {m : Σ _ : ℤ, String} :
    m ∈ redis.memberships ↔ m.2 ∈ redis.members m.1 := by
  unfold memberships
  rw [Finset.mem_sigma, List.mem_toFinset, and_iff_right_of_imp]
  intro hmem
  unfold members at hmem
  rw [← AList.mem_keys, ← AList.lookup_isSome]
  cases hl : redis.cell_devices.lookup m.1 with
  | none =>
    rw [hl] at hmem
    cases hmem
  | some devices => rfl

/-- A turn counts the members that go, and the cell if there are any. -/
theorem counts_sweep_cell : (sweep_cell swept cell_id).1 =
    (swept.1.1 + (swept.2.stale cell_id).card,
      swept.1.2 + if swept.2.stale cell_id = ∅ then 0 else 1) := by
  obtain ⟨⟨removed, touched⟩, redis⟩ := swept
  unfold sweep_cell stale members
  dsimp only
  cases hl : redis.cell_devices.lookup cell_id with
  | none => simp
  | some devices =>
    dsimp only
    rw [Option.getD_some]
    have hcard : devices.card - (devices.filter fun d => (redis.device_states.lookup d).isSome).card =
        (devices.filter fun d => (redis.device_states.lookup d).isSome = false).card := by
      have hsplit := Finset.card_filter_add_card_filter_not (s := devices)
        (fun d => (redis.device_states.lookup d).isSome = true)
      simp only [Bool.not_eq_true] at hsplit
      omega
    rw [hcard]
    by_cases hnone : (devices.filter fun d => (redis.device_states.lookup d).isSome = false) = ∅
    · rw [hnone, if_pos rfl, Finset.card_empty, if_neg (lt_irrefl 0)]
      rfl
    · rw [if_neg hnone, if_pos (Finset.card_pos.mpr (Finset.nonempty_iff_ne_empty.mpr hnone))]

/-- A turn leaves the fences' states and the reservations alone. -/
theorem others_sweep_cell : (sweep_cell swept cell_id).2.fence_states = swept.2.fence_states ∧
    (sweep_cell swept cell_id).2.reservations = swept.2.reservations := by
  unfold sweep_cell
  dsimp only
  split <;> exact ⟨rfl, rfl⟩

/-- After its turn a cell has no stale members, and the other cells have theirs. -/
theorem stale_sweep_cell (c : ℤ) :
    (sweep_cell swept cell_id).2.stale c = if c = cell_id then ∅ else swept.2.stale c := by
  unfold stale
  rw [members_sweep_cell, device_states_sweep_cell]
  by_cases hc : c = cell_id
  · rw [if_pos hc, if_pos hc, Finset.filter_filter]
    refine Finset.filter_false_of_mem fun d _ hd => ?_
    rw [hd.1] at hd
    cases hd.2
  · rw [if_neg hc, if_neg hc]

/-- The loop over some cells counts their stale members, and the cells that have any. -/
theorem counts_foldl_sweep_cell (cells : List ℤ) (hnodup : cells.Nodup) (swept : (ℕ × ℕ) × RedisClient) :
    (cells.foldl sweep_cell swept).1 =
      (swept.1.1 + ∑ c ∈ cells.toFinset, (swept.2.stale c).card,
        swept.1.2 + (cells.toFinset.filter fun c => swept.2.stale c ≠ ∅).card) := by
  induction cells generalizing swept with
  | nil => rfl
  | cons cell cells ih =>
    obtain ⟨hcell, hcells⟩ := List.nodup_cons.mp hnodup
    have hnotin : cell ∉ cells.toFinset := fun h => hcell (List.mem_toFinset.mp h)
    have hlater : ∀ c ∈ cells.toFinset, (sweep_cell swept cell).2.stale c = swept.2.stale c := by
      intro c hc
      have hne : c ≠ cell := fun heq => hnotin (heq ▸ hc)
      rw [stale_sweep_cell, if_neg hne]
    rw [List.foldl_cons, ih hcells, counts_sweep_cell, List.toFinset_cons, Finset.sum_insert hnotin,
      Finset.filter_insert, Finset.sum_congr rfl fun c hc => congrArg Finset.card (hlater c hc),
      Finset.filter_congr fun c hc => by rw [hlater c hc]]
    by_cases hnone : swept.2.stale cell = ∅
    · rw [if_pos hnone, if_neg (not_not.mpr hnone), Nat.add_zero, Nat.add_assoc]
    · rw [if_neg hnone, if_pos hnone, Finset.card_insert_of_notMem fun h => hnotin (Finset.mem_filter.mp h).1,
        Nat.add_assoc, Nat.add_assoc, Nat.add_comm 1]

/-- Nor does the loop touch the fences' states and the reservations. -/
theorem others_foldl_sweep_cell (cells : List ℤ) (swept : (ℕ × ℕ) × RedisClient) :
    (cells.foldl sweep_cell swept).2.fence_states = swept.2.fence_states ∧
      (cells.foldl sweep_cell swept).2.reservations = swept.2.reservations := by
  induction cells generalizing swept with
  | nil => exact ⟨rfl, rfl⟩
  | cons cell cells ih =>
    obtain ⟨hfences, hreservations⟩ := ih (sweep_cell swept cell)
    obtain ⟨hfences', hreservations'⟩ := others_sweep_cell swept cell
    exact ⟨hfences.trans hfences', hreservations.trans hreservations'⟩

end Turns

variable (redis : RedisClient) (order : HashOrder)

/-- The cells of the loop are all cells, each once. -/
theorem toFinset_arrange_keys :
    (order.arrange redis.cell_devices.keys).toFinset = redis.cell_devices.keys.toFinset ∧
      (order.arrange redis.cell_devices.keys).Nodup := by
  refine ⟨?_, (order.perm _).nodup_iff.mpr redis.cell_devices.keys_nodup⟩
  ext c
  rw [List.mem_toFinset, List.mem_toFinset, HashOrder.mem_arrange]

/-- A cell without a set has no members. -/
theorem members_eq_empty {c : ℤ} (h : c ∉ redis.cell_devices.keys) : redis.members c = ∅ := by
  unfold members
  rw [AList.lookup_eq_none.mpr h]
  rfl

/-- The sweep keeps the members with a state. -/
theorem members_remove_stale (c : ℤ) : (redis.remove_stale_cell_members order).2.members c =
    (redis.members c).filter fun d => (redis.device_states.lookup d).isSome := by
  obtain ⟨-, -, hmembers⟩ := foldl_sweep_cell (order.arrange redis.cell_devices.keys) ((0, 0), redis)
  unfold remove_stale_cell_members
  rw [hmembers]
  split
  · rfl
  · rename_i hc
    rw [HashOrder.mem_arrange] at hc
    rw [redis.members_eq_empty hc, Finset.filter_empty]

/-- The memberships that it removes are the stale ones. -/
theorem memberships_removed :
    redis.memberships \ (redis.remove_stale_cell_members order).2.memberships =
      redis.cell_devices.keys.toFinset.sigma redis.stale := by
  ext ⟨c, d⟩
  rw [Finset.mem_sdiff, mem_memberships, mem_memberships, members_remove_stale, Finset.mem_filter,
    Finset.mem_sigma]
  unfold stale
  rw [Finset.mem_filter]
  constructor
  · rintro ⟨hmem, hgone⟩
    refine ⟨(Finset.mem_sigma.mp (mem_memberships.mpr hmem)).1, hmem, ?_⟩
    exact Bool.eq_false_of_not_eq_true fun hstate => hgone ⟨hmem, hstate⟩
  · rintro ⟨-, hmem, hnone⟩
    exact ⟨hmem, fun h => Bool.noConfusion (hnone.symm.trans h.2)⟩

/-- The counts that it returns are those of the stale memberships and of their cells. -/
theorem counts_remove_stale : (redis.remove_stale_cell_members order).1 =
    ((redis.cell_devices.keys.toFinset.sigma redis.stale).card,
      ((redis.cell_devices.keys.toFinset.sigma redis.stale).image Sigma.fst).card) := by
  obtain ⟨hkeys, hnodup⟩ := redis.toFinset_arrange_keys order
  have hcells : (redis.cell_devices.keys.toFinset.filter fun c => redis.stale c ≠ ∅) =
      (redis.cell_devices.keys.toFinset.sigma redis.stale).image Sigma.fst := by
    ext c
    simp only [Finset.mem_filter, Finset.mem_image, Finset.mem_sigma, Sigma.exists, exists_and_right,
      exists_eq_right, ← Finset.nonempty_iff_ne_empty, Finset.Nonempty, exists_and_left]
  unfold remove_stale_cell_members
  rw [counts_foldl_sweep_cell _ hnodup, hkeys, Finset.card_sigma, hcells]
  dsimp only
  rw [Nat.zero_add, Nat.zero_add]

/-- From any store, a sweep removes the memberships of the devices without a state and no others, and
returns how many it has removed and of how many cells. No set is empty after it, all states and the
reservations are as they were, and a second sweep finds nothing. -/
theorem sweep_exact (order' : HashOrder) :
    (∀ c d, d ∈ (redis.remove_stale_cell_members order).2.members c ↔
      d ∈ redis.members c ∧ (redis.get_device_state d).isSome = true) ∧
    (redis.remove_stale_cell_members order).1 =
      ((redis.memberships \ (redis.remove_stale_cell_members order).2.memberships).card,
        ((redis.memberships \ (redis.remove_stale_cell_members order).2.memberships).image Sigma.fst).card) ∧
    (redis.remove_stale_cell_members order).2.NoEmptyCell ∧
    ((redis.remove_stale_cell_members order).2.device_states = redis.device_states ∧
      (redis.remove_stale_cell_members order).2.fence_states = redis.fence_states ∧
      (redis.remove_stale_cell_members order).2.reservations = redis.reservations) ∧
    ((redis.remove_stale_cell_members order).2.remove_stale_cell_members order').1 = (0, 0) := by
  obtain ⟨hstates, hempty, -⟩ := foldl_sweep_cell (order.arrange redis.cell_devices.keys) ((0, 0), redis)
  have hnone : ∀ c, (redis.remove_stale_cell_members order).2.stale c = ∅ := by
    intro c
    unfold stale
    rw [members_remove_stale]
    refine Finset.filter_false_of_mem fun d hd hnone => ?_
    change ((redis.remove_stale_cell_members order).2.device_states.lookup d).isSome = false at hnone
    have hkept := (Finset.mem_filter.mp hd).2
    rw [show (redis.remove_stale_cell_members order).2.device_states = redis.device_states from hstates,
      hkept] at hnone
    cases hnone
  refine ⟨fun c d => ?_, ?_, ?_, ⟨hstates, others_foldl_sweep_cell _ _⟩, ?_⟩
  · rw [members_remove_stale, Finset.mem_filter]
    rfl
  · rw [memberships_removed, counts_remove_stale]
  · intro c hc
    obtain ⟨hkey, hlookup⟩ := hempty c hc
    rw [HashOrder.mem_arrange] at hkey
    rw [AList.lookup_eq_none.mpr hkey] at hlookup
    cases hlookup
  · rw [counts_remove_stale, show (redis.remove_stale_cell_members order).2.stale = fun _ => ∅ from funext hnone]
    simp

end RedisClient

end SignalRoute
