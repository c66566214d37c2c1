import SignalRoute.Numeric.Text
import Mathlib.Data.List.DropRight

/-!
# The deduplication window

`src/processor/dedup_window.cpp`: entries in the order of their last use, the newest first. The
source finds an entry through a map from keys to list positions; since no two entries have the same
key (`DedupWindow.nodup`), the map is a function of the list and the list alone is the state. A
function that reads the steady clock takes each of its readings, in nanoseconds, as an argument.

What the window remembers is a set of pairs of device and sequence number (`seen`). The theorems say
that a verdict "duplicate" is about a pair that was marked (`mem_seen_of_is_duplicate`), and that
nothing but `mark_seen` adds to the set.
-/

namespace SignalRoute

/-- `key_for`. -/
def key_for (device_id : String) (seq : ℕ) : String := device_id ++ "#" ++ toString seq

/-- A key determines the device and the sequence number: no digit is a `#`. -/
theorem key_for_injective {d d' : String} {s s' : ℕ} (h : key_for d s = key_for d' s') :
    d = d' ∧ s = s' :=
  Numeric.append_toString_injective '#' (by decide) h

/-- `DedupWindow::Entry`. -/
structure Entry where
  device_id : String
  seq : ℕ
  seen_at : ℤ
  deriving DecidableEq

/-- The key under which the map has an entry. -/
def Entry.key (entry : Entry) : String := key_for entry.device_id entry.seq

/-- `DedupWindow`. -/
structure DedupWindow where
  max_entries : ℕ
  ttl_seconds : ℤ
  lru_list : List Entry := []
  nodup : (lru_list.map Entry.key).Nodup := by exact List.nodup_nil

namespace DedupWindow

variable (window : DedupWindow)

/-- A part of the list is a list without a repeated key. -/
theorem nodup_of_sublist {l : List Entry} (h : l.Sublist window.lru_list) :
    (l.map Entry.key).Nodup :=
  window.nodup.sublist (h.map Entry.key)

/-- `evict_expired`: entries go from the back while they are too old. -/
def evict_expired (now_ns : ℤ) : DedupWindow :=
  { window with
    lru_list := window.lru_list.rdropWhile fun e =>
      e.seen_at < now_ns - window.ttl_seconds * 1000000000
    nodup := window.nodup_of_sublist (List.rdropWhile_prefix _ _).sublist }

/-- `map_.find`. -/
def find (key : String) : Option Entry := window.lru_list.find? fun e => e.key = key

/-- Stamp the entry of a key and splice it to the front of the list. -/
def touch (key : String) (now_ns : ℤ) : DedupWindow :=
  match hf : window.find key with
  | none => window
  | some e =>
    { window with
      lru_list := { e with seen_at := now_ns } :: window.lru_list.filter fun e => e.key ≠ key
      nodup := by
        have hk : e.key = key := by simpa using List.find?_some hf
        rw [List.map_cons, List.nodup_cons]
        refine ⟨?_, window.nodup_of_sublist List.filter_sublist⟩
        intro hmem
        obtain ⟨e', he', heq⟩ := List.mem_map.mp hmem
        have hne : e'.key ≠ key := by simpa using (List.mem_filter.mp he').2
        exact hne (heq.trans hk) }

/-- `is_duplicate`, with the clock readings of the eviction and of the stamp. -/
def is_duplicate (device_id : String) (seq : ℕ) (evict_ns touch_ns : ℤ) : Bool × DedupWindow :=
  let window := window.evict_expired evict_ns
  if (window.find (key_for device_id seq)).isNone then (false, window)
  else (true, window.touch (key_for device_id seq) touch_ns)

/-- `mark_seen`, with the clock readings of the eviction and of the stamp. -/
def mark_seen (device_id : String) (seq : ℕ) (evict_ns stamp_ns : ℤ) : DedupWindow :=
  let window := window.evict_expired evict_ns
  if hf : (window.find (key_for device_id seq)).isNone then
    -- The new entry goes to the front, and the oldest go where there are too many.
    { window with
      lru_list := (⟨device_id, seq, stamp_ns⟩ :: window.lru_list).take window.max_entries
      nodup := by
        refine List.Nodup.sublist ((List.take_sublist _ _).map Entry.key) ?_
        rw [List.map_cons, List.nodup_cons]
        refine ⟨fun hmem => ?_, window.nodup⟩
        obtain ⟨e, he, hk⟩ := List.mem_map.mp hmem
        have hne := List.find?_eq_none.mp (Option.isNone_iff_eq_none.mp hf) e he
        exact hne (decide_eq_true hk) }
  else window.touch (key_for device_id seq) stamp_ns

/-- The pairs of device and sequence number that the window remembers. -/
def seen : Set (String × ℕ) := {p | ∃ e ∈ window.lru_list, (e.device_id, e.seq) = p}

variable {window}

/-- An entry found under the key of a pair is an entry of that pair. -/
theorem of_find_eq_some {d : String} {s : ℕ} {e : Entry} (h : window.find (key_for d s) = some e) :
    e ∈ window.lru_list ∧ e.device_id = d ∧ e.seq = s := by
  have hk : e.key = key_for d s := by simpa using List.find?_some h
  exact ⟨List.mem_of_find?_eq_some h, key_for_injective hk⟩

/-- Eviction forgets pairs and adds none. -/
theorem seen_evict_expired (now_ns : ℤ) : (window.evict_expired now_ns).seen ⊆ window.seen := by
  rintro p ⟨e, he, rfl⟩
  exact ⟨e, (List.rdropWhile_prefix _ _).subset he, rfl⟩

/-- Splicing an entry to the front adds no pair. -/
theorem seen_touch (key : String) (now_ns : ℤ) : (window.touch key now_ns).seen ⊆ window.seen := by
  unfold touch
  split
  · exact subset_rfl
  · rename_i e hf
    rintro p ⟨e', he', rfl⟩
    rcases List.mem_cons.mp he' with rfl | he'
    · exact ⟨e, List.mem_of_find?_eq_some hf, rfl⟩
    · exact ⟨e', List.mem_of_mem_filter he', rfl⟩

/-- A question adds no pair. -/
theorem seen_is_duplicate (d : String) (s : ℕ) (t u : ℤ) :
    (window.is_duplicate d s t u).2.seen ⊆ window.seen := by
  unfold is_duplicate
  dsimp only
  split
  · exact seen_evict_expired t
  · exact (seen_touch _ u).trans (seen_evict_expired t)

/-- Only a remembered pair is a duplicate. -/
theorem mem_seen_of_is_duplicate {d : String} {s : ℕ} {t u : ℤ}
    (h : (window.is_duplicate d s t u).1 = true) : (d, s) ∈ window.seen := by
  unfold is_duplicate at h
  dsimp only at h
  cases hf : (window.evict_expired t).find (key_for d s) with
  | none =>
    rw [hf] at h
    cases h
  | some e =>
    obtain ⟨hmem, rfl, rfl⟩ := of_find_eq_some hf
    exact seen_evict_expired t ⟨e, hmem, rfl⟩

/-- Marking adds no other pair. -/
theorem seen_mark_seen (d : String) (s : ℕ) (t u : ℤ) :
    (window.mark_seen d s t u).seen ⊆ insert (d, s) window.seen := by
  unfold mark_seen
  dsimp only
  split
  · rintro p ⟨e, he, rfl⟩
    rcases List.mem_cons.mp (List.mem_of_mem_take he) with rfl | he
    · exact Set.mem_insert _ _
    · exact Set.mem_insert_of_mem _ (seen_evict_expired t ⟨e, he, rfl⟩)
  · exact ((seen_touch _ u).trans (seen_evict_expired t)).trans (Set.subset_insert _ _)

/-- A window with no entries takes nothing for a duplicate. -/
theorem is_duplicate_of_empty (h : window.lru_list = []) (d : String) (s : ℕ) (t u : ℤ) :
    (window.is_duplicate d s t u).1 = false := by
  unfold is_duplicate evict_expired find
  simp [h]

/-- The capacity and the time to live stay as they were configured. -/
structure SameLimits (window window' : DedupWindow) : Prop where
  max_entries : window'.max_entries = window.max_entries
  ttl_seconds : window'.ttl_seconds = window.ttl_seconds

theorem SameLimits.trans {window' window'' : DedupWindow} (h : window.SameLimits window')
    (h' : window'.SameLimits window'') : window.SameLimits window'' :=
  ⟨h'.max_entries.trans h.max_entries, h'.ttl_seconds.trans h.ttl_seconds⟩

theorem sameLimits_touch (key : String) (now_ns : ℤ) : window.SameLimits (window.touch key now_ns) := by
  unfold touch
  split <;> exact ⟨rfl, rfl⟩

theorem sameLimits_is_duplicate (d : String) (s : ℕ) (t u : ℤ) :
    window.SameLimits (window.is_duplicate d s t u).2 := by
  unfold is_duplicate
  dsimp only
  split
  · exact ⟨rfl, rfl⟩
  · obtain ⟨hmax, httl⟩ := (window.evict_expired t).sameLimits_touch (key_for d s) u
    exact ⟨hmax, httl⟩

theorem sameLimits_mark_seen (d : String) (s : ℕ) (t u : ℤ) :
    window.SameLimits (window.mark_seen d s t u) := by
  unfold mark_seen
  dsimp only
  split
  · exact ⟨rfl, rfl⟩
  · obtain ⟨hmax, httl⟩ := (window.evict_expired t).sameLimits_touch (key_for d s) u
    exact ⟨hmax, httl⟩

/-- A pair that was no duplicate is marked with a new entry in front, as far as there is room. -/
theorem mark_seen_of_new {d : String} {s : ℕ} {t u : ℤ} (t' u' : ℤ)
    (hnew : (window.is_duplicate d s t u).1 = false) :
    ∃ rest, ((window.is_duplicate d s t u).2.mark_seen d s t' u').lru_list =
      (⟨d, s, u'⟩ :: rest).take window.max_entries := by
  unfold is_duplicate at hnew ⊢
  dsimp only at hnew ⊢
  cases hf : (window.evict_expired t).find (key_for d s) with
  | some e =>
    rw [hf] at hnew
    cases hnew
  | none =>
    have hfind : ((window.evict_expired t).evict_expired t').find (key_for d s) = none := by
      refine List.find?_eq_none.mpr fun e he => ?_
      exact List.find?_eq_none.mp hf e ((List.rdropWhile_prefix _ _).subset he)
    rw [if_pos (by rfl)]
    unfold mark_seen
    dsimp only
    rw [dif_pos (by rw [hfind]; rfl)]
    exact ⟨_, rfl⟩

/-- A window keeps nothing: it has no room, or an entry is too old as soon as it is there. -/
def KeepsNothing (window : DedupWindow) : Prop := window.max_entries = 0 ∨ window.ttl_seconds < 0

/-- A window whose entries are all too old takes nothing for a duplicate. -/
theorem is_duplicate_of_expired {t : ℤ} (httl : window.ttl_seconds < 0)
    (hlater : ∀ e ∈ window.lru_list, e.seen_at ≤ t) (d : String) (s : ℕ) (u : ℤ) :
    (window.is_duplicate d s t u).1 = false := by
  have hnil : (window.evict_expired t).lru_list = [] := by
    refine List.rdropWhile_eq_nil_iff.mpr fun e he => decide_eq_true ?_
    have := hlater e he
    omega
  unfold is_duplicate find
  simp [hnil]

/-- The newest entry is found at the time of the last use of any entry. -/
theorem is_duplicate_of_head {e : Entry} {rest : List Entry} (hlist : window.lru_list = e :: rest)
    {t : ℤ} (hlast : ∃ last ∈ window.lru_list, last.seen_at = t) (httl : 0 ≤ window.ttl_seconds) (u : ℤ) :
    (window.is_duplicate e.device_id e.seq t u).1 = true := by
  obtain ⟨last, hmem, rfl⟩ := hlast
  -- The entry of the last use stays, so all in front of it do.
  have hkept : (window.evict_expired last.seen_at).lru_list ≠ [] := by
    intro hnil
    have hold := List.rdropWhile_eq_nil_iff.mp hnil last hmem
    have : last.seen_at < last.seen_at - window.ttl_seconds * 1000000000 := of_decide_eq_true hold
    omega
  obtain ⟨first, kept, hfirst⟩ := List.exists_cons_of_ne_nil hkept
  have hprefix : (first :: kept) <+: (e :: rest) := by
    rw [← hfirst, ← hlist]
    exact List.rdropWhile_prefix _ _
  obtain rfl : first = e := by
    obtain ⟨t, ht⟩ := hprefix
    exact (List.cons.inj ht).1
  unfold is_duplicate find
  simp [hfirst, Entry.key]

end DedupWindow

end SignalRoute
