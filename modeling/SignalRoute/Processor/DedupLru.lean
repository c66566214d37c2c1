import SignalRoute.Processor.Dedup
import SignalRoute.Store.Recency
import SignalRoute.Store.Unordered

/-!
# The deduplication window as a list and a map

`src/processor/dedup_window.cpp` in full: the nodes of `lru_list_` have addresses, and `map_` has the
address of the node of each key. `Refines` relates it to the list alone, and every operation keeps
the relation, so the map has exactly the keys of the list.

What the window remembers is `Store.kept` of the touches, a touch being a `mark_seen` or an
`is_duplicate` that found its pair: the last touches that are not older than the time to live, of the
`max_entries` pairs touched last. `remembers_exactly` says it of every run of calls with a clock that
does not go back.
-/

namespace SignalRoute

open Store (UnorderedMap latest kept recent Ordered)

/-- `DedupWindow`: the nodes of the list, each with its address, and the address for each key. -/
structure LinkedDedupWindow where
  max_entries : ℕ
  ttl_seconds : ℤ
  lru_list : List (ℕ × Entry) := []
  map : UnorderedMap String ℕ := ∅
  next_node : ℕ := 0

namespace DedupWindow

variable {window : DedupWindow} {history : List ((String × ℕ) × ℤ)} {before now : ℤ}

/-- The pairs in the list, each with the time of its stamp. -/
def touches (window : DedupWindow) : List ((String × ℕ) × ℤ) :=
  window.lru_list.map fun e => ((e.device_id, e.seq), e.seen_at)

/-- The time to live in the nanoseconds of the steady clock. -/
def ttl_ns (window : DedupWindow) : ℤ := window.ttl_seconds * 1000000000

/-- The time to live goes by the seconds. -/
theorem ttl_ns_eq {window' : DedupWindow} (h : window'.ttl_seconds = window.ttl_seconds) :
    window'.ttl_ns = window.ttl_ns := by
  rw [ttl_ns, h, ttl_ns]

/-- The window has what should be kept of a history. -/
def Keeps (window : DedupWindow) (now : ℤ) (history : List ((String × ℕ) × ℤ)) : Prop :=
  window.touches = kept window.max_entries window.ttl_ns now history

/-- Eviction drops the entries that are too old. -/
theorem Keeps.lru_list_evict_expired (h : window.Keeps before history) (hordered : Ordered history)
    (now : ℤ) : (window.evict_expired now).lru_list = window.lru_list.filter fun e =>
      recent window.ttl_ns now ((e.device_id, e.seq), e.seen_at) := by
  have hfirst : window.touches.Pairwise fun a b =>
      recent window.ttl_ns now b → recent window.ttl_ns now a := by
    rw [h]
    exact hordered.kept.recent_first
  rw [← Store.rdropWhile_eq_filter (List.pairwise_map.mp hfirst)]
  refine congrArg (List.rdropWhile · window.lru_list) (funext fun e => ?_)
  unfold recent ttl_ns
  rw [Bool.eq_iff_iff, Bool.not_eq_true', decide_eq_true_eq, decide_eq_false_iff_not]
  dsimp only
  omega

/-- So what should be kept is. -/
theorem Keeps.evict_expired (h : window.Keeps before history) (hordered : Ordered history)
    (hle : before ≤ now) : (window.evict_expired now).Keeps now history := by
  have hmap : (window.evict_expired now).touches = window.touches.filter (recent window.ttl_ns now) := by
    unfold touches
    rw [h.lru_list_evict_expired hordered now, List.filter_map]
    rfl
  show _ = kept window.max_entries window.ttl_ns now history
  rw [hmap, h, Store.kept_later hordered hle]

/-- A pair is found if it is one of those in the list. -/
theorem find_eq_none_iff (d : String) (s : ℕ) :
    window.find (key_for d s) = none ↔ (d, s) ∉ window.touches.map Prod.fst := by
  unfold find touches
  rw [List.find?_eq_none, List.map_map, List.mem_map]
  simp only [decide_eq_true_eq, not_exists, not_and, Function.comp, Prod.mk.injEq]
  refine forall₂_congr fun e _ => ⟨fun h hd hs => h ?_, fun h hkey => ?_⟩
  · rw [Entry.key, hd, hs]
  · obtain ⟨hd, hs⟩ := key_for_injective hkey
    exact h hd hs

/-- What `touch` makes of the list. -/
theorem lru_list_touch {key : String} {e : Entry} (hfind : window.find key = some e) (now_ns : ℤ) :
    (window.touch key now_ns).lru_list =
      { e with seen_at := now_ns } :: window.lru_list.filter fun e => e.key ≠ key := by
  unfold touch
  split
  · rename_i hnone
    rw [hfind] at hnone
    cases hnone
  · rename_i e' hsome
    rw [hfind, Option.some.injEq] at hsome
    rw [hsome]

/-- The pairs with another key are the other pairs. -/
theorem touches_filter (d : String) (s : ℕ) :
    (window.lru_list.filter fun e => e.key ≠ key_for d s).map
        (fun e => ((e.device_id, e.seq), e.seen_at)) =
      window.touches.filter fun touch => touch.1 ≠ (d, s) := by
  unfold touches
  rw [List.filter_map]
  refine congrArg (List.map _) (List.filter_congr fun e _ => ?_)
  rw [Function.comp, Bool.eq_iff_iff, decide_eq_true_eq, decide_eq_true_eq, not_iff_not]
  refine ⟨fun hkey => ?_, fun hpair => ?_⟩
  · obtain ⟨hd, hs⟩ := key_for_injective hkey
    rw [hd, hs]
  · rw [Prod.mk.injEq] at hpair
    rw [Entry.key, hpair.1, hpair.2]

/-- A pair that is found is stamped and put in front. -/
theorem Keeps.touch (h : window.Keeps now history) (httl : 0 ≤ window.ttl_seconds) {d : String}
    {s : ℕ} (hfind : window.find (key_for d s) ≠ none) :
    (window.touch (key_for d s) now).Keeps now (((d, s), now) :: history) := by
  obtain ⟨e, he⟩ := Option.ne_none_iff_exists'.mp hfind
  obtain ⟨-, rfl, rfl⟩ := of_find_eq_some he
  obtain ⟨hmax, hsame⟩ := window.sameLimits_touch (key_for e.device_id e.seq) now
  have htouches : (window.touch (key_for e.device_id e.seq) now).touches =
      ((e.device_id, e.seq), now) ::
        window.touches.filter fun touch => touch.1 ≠ (e.device_id, e.seq) := by
    rw [← touches_filter]
    unfold touches
    rw [lru_list_touch he]
    rfl
  -- The pair leaves its old place, so the list gets no longer.
  have hlength : (window.touches.filter fun touch => touch.1 ≠ (e.device_id, e.seq)).length <
      window.max_entries := by
    have hlt : (window.touches.filter fun touch => touch.1 ≠ (e.device_id, e.seq)).length <
        window.touches.length := by
      rw [List.length_filter_lt_length_iff_exists]
      obtain ⟨touch, htouch, heq⟩ := List.mem_map.mp (not_not.mp ((find_eq_none_iff _ _).not.mp hfind))
      exact ⟨touch, htouch, by simpa using heq⟩
    refine hlt.trans_le ?_
    rw [h]
    exact List.length_take_le _ _
  have httl_ns : 0 ≤ window.ttl_ns := mul_nonneg httl (by decide)
  unfold Keeps
  rw [htouches, hmax, ttl_ns_eq hsame, Store.kept_touch httl_ns, ← show window.touches = _ from h,
    List.take_of_length_le (Nat.succ_le_of_lt hlength)]

/-- `is_duplicate` finds what is kept, and touches it. -/
theorem Keeps.is_duplicate (h : window.Keeps before history) (hordered : Ordered history)
    (hle : before ≤ now) (httl : 0 ≤ window.ttl_seconds) (d : String) (s : ℕ) :
    ((window.is_duplicate d s now now).1 = true ↔
      (d, s) ∈ (kept window.max_entries window.ttl_ns now history).map Prod.fst) ∧
    (window.is_duplicate d s now now).2.Keeps now
      (if (window.is_duplicate d s now now).1 then ((d, s), now) :: history else history) := by
  have hevict := h.evict_expired hordered hle
  have hfind := @find_eq_none_iff (window.evict_expired now) d s
  rw [show (window.evict_expired now).touches = _ from hevict] at hfind
  unfold DedupWindow.is_duplicate
  dsimp only
  by_cases hnone : (window.evict_expired now).find (key_for d s) = none
  · rw [if_pos (by rw [hnone]; rfl)]
    exact ⟨iff_of_false nofun (hfind.mp hnone), hevict⟩
  · rw [if_neg (by rwa [Option.isNone_iff_eq_none])]
    exact ⟨iff_of_true rfl (not_not.mp (hfind.not.mp hnone)), hevict.touch httl hnone⟩

/-- `mark_seen` touches its pair. -/
theorem Keeps.mark_seen (h : window.Keeps before history) (hordered : Ordered history)
    (hle : before ≤ now) (httl : 0 ≤ window.ttl_seconds) (d : String) (s : ℕ) :
    (window.mark_seen d s now now).Keeps now (((d, s), now) :: history) := by
  have hevict := h.evict_expired hordered hle
  unfold DedupWindow.mark_seen
  dsimp only
  by_cases hnone : (window.evict_expired now).find (key_for d s) = none
  · rw [dif_pos (by rw [hnone]; rfl)]
    have hnew := (find_eq_none_iff d s).mp hnone
    -- There is no touch of the pair to drop.
    have hall : ∀ touch ∈ (window.evict_expired now).touches, decide (touch.1 ≠ (d, s)) = true :=
      fun touch htouch => decide_eq_true fun heq => hnew (heq ▸ List.mem_map_of_mem htouch)
    have httl_ns : 0 ≤ window.ttl_ns := mul_nonneg httl (by decide)
    show ((⟨d, s, now⟩ :: (window.evict_expired now).lru_list).take window.max_entries).map _ =
      kept window.max_entries window.ttl_ns now (((d, s), now) :: history)
    rw [Store.kept_touch httl_ns, ← show (window.evict_expired now).touches =
        kept window.max_entries window.ttl_ns now history from hevict,
      List.filter_eq_self.mpr hall, List.map_take]
    rfl
  · rw [dif_neg (by rwa [Option.isNone_iff_eq_none])]
    exact hevict.touch httl hnone

end DedupWindow

/-- A window with fewer entries. -/
def DedupWindow.cut (window : DedupWindow) (l : List Entry) (h : l.Sublist window.lru_list) :
    DedupWindow :=
  { window with lru_list := l, nodup := window.nodup_of_sublist h }

namespace LinkedDedupWindow

variable (linked : LinkedDedupWindow)

/-- `size`. -/
def size : ℕ := linked.map.entries.length

/-- The body of both eviction loops: the oldest entry goes, first from the map. -/
def pop_oldest (oldest : Entry) : LinkedDedupWindow :=
  { linked with map := linked.map.erase oldest.key, lru_list := linked.lru_list.dropLast }

/-- `while (condition && !lru_list_.empty())`: the condition may look at the oldest entry. -/
def pop_while (condition : LinkedDedupWindow → Entry → Bool) (linked : LinkedDedupWindow) :
    LinkedDedupWindow :=
  match _h : linked.lru_list.getLast? with
  | none => linked
  | some (_, oldest) =>
    if condition linked oldest then pop_while condition (linked.pop_oldest oldest) else linked
termination_by linked.lru_list.length
decreasing_by
  have hne : linked.lru_list ≠ [] := fun hnil => by simp [hnil] at _h
  rw [pop_oldest, List.length_dropLast]
  have := List.length_pos_of_ne_nil hne
  omega

/-- `evict_expired`. -/
def evict_expired (now_ns : ℤ) : LinkedDedupWindow :=
  linked.pop_while fun linked oldest => oldest.seen_at < now_ns - linked.ttl_seconds * 1000000000

/-- Stamp the entry of a node and splice the node to the front. -/
def splice_front (node : ℕ) (now_ns : ℤ) : LinkedDedupWindow :=
  match linked.lru_list.find? fun entry => entry.1 = node with
  -- A dangling iterator, which `Refines.lookup` rules out.
  | none => linked
  | some (_, entry) =>
    { linked with
      lru_list := (node, { entry with seen_at := now_ns }) ::
        linked.lru_list.filter fun entry => entry.1 ≠ node }

/-- `is_duplicate`, with the clock readings of the eviction and of the stamp. -/
def is_duplicate (device_id : String) (seq : ℕ) (evict_ns touch_ns : ℤ) : Bool × LinkedDedupWindow :=
  let linked := linked.evict_expired evict_ns
  match linked.map.lookup (key_for device_id seq) with
  | none => (false, linked)
  | some node => (true, linked.splice_front node touch_ns)

/-- `mark_seen`, with the clock readings of the eviction and of the stamp. -/
def mark_seen (device_id : String) (seq : ℕ) (evict_ns stamp_ns : ℤ) : LinkedDedupWindow :=
  let linked := linked.evict_expired evict_ns
  match linked.map.lookup (key_for device_id seq) with
  | some node => linked.splice_front node stamp_ns
  | none =>
    pop_while (fun linked _ => linked.size > linked.max_entries)
      { linked with
        lru_list := (linked.next_node, ⟨device_id, seq, stamp_ns⟩) :: linked.lru_list
        map := linked.map.insert (key_for device_id seq) linked.next_node
        next_node := linked.next_node + 1 }

/-- The list and the map belong together, and the list is that of `window`. -/
structure Refines (linked : LinkedDedupWindow) (window : DedupWindow) : Prop where
  max_entries : linked.max_entries = window.max_entries
  ttl_seconds : linked.ttl_seconds = window.ttl_seconds
  entries : linked.lru_list.map Prod.snd = window.lru_list
  nodes : (linked.lru_list.map Prod.fst).Nodup
  lookup : ∀ key node, linked.map.lookup key = some node ↔
    ∃ entry, (node, entry) ∈ linked.lru_list ∧ entry.key = key
  fresh : ∀ node ∈ linked.lru_list.map Prod.fst, node < linked.next_node

variable {linked} {window : DedupWindow}

/-- Before any call there is nothing. -/
theorem Refines.empty (max_entries : ℕ) (ttl_seconds : ℤ) :
    Refines { max_entries, ttl_seconds } { max_entries, ttl_seconds } where
  max_entries := rfl
  ttl_seconds := rfl
  entries := rfl
  nodes := List.nodup_nil
  lookup key node := by simp
  fresh node h := absurd h List.not_mem_nil

/-- A node has one entry. -/
theorem Refines.entry_eq (h : Refines linked window) {n : ℕ} {e e' : Entry}
    (he : (n, e) ∈ linked.lru_list) (he' : (n, e') ∈ linked.lru_list) : e = e' :=
  congrArg Prod.snd (List.inj_on_of_nodup_map h.nodes he he' rfl)

/-- No two nodes have entries of one key. -/
theorem Refines.node_eq (h : Refines linked window) {n n' : ℕ} {e e' : Entry}
    (he : (n, e) ∈ linked.lru_list) (he' : (n', e') ∈ linked.lru_list) (hkey : e.key = e'.key) :
    n = n' ∧ e = e' := by
  have hn := (h.lookup e.key n).mpr ⟨e, he, rfl⟩
  rw [(h.lookup e.key n').mpr ⟨e', he', hkey.symm⟩, Option.some.injEq] at hn
  subst hn
  exact ⟨rfl, h.entry_eq he he'⟩

/-- The map has as many entries as the list. -/
theorem Refines.size_eq (h : Refines linked window) : linked.size = window.lru_list.length := by
  have hperm : linked.map.keys.Perm (window.lru_list.map Entry.key) := by
    refine (List.perm_ext_iff_of_nodup linked.map.keys_nodup window.nodup).mpr fun key => ?_
    rw [← AList.mem_keys, ← AList.lookup_isSome, Option.isSome_iff_exists, ← h.entries]
    simp only [h.lookup, List.map_map, List.mem_map, Function.comp, Prod.exists]
  have := hperm.length_eq
  rwa [List.length_map, AList.keys, List.keys, List.length_map] at this

/-- The loop stops at an empty list. -/
theorem pop_while_nil {condition : LinkedDedupWindow → Entry → Bool} (h : linked.lru_list = []) :
    linked.pop_while condition = linked := by
  rw [pop_while]
  split
  · rfl
  · rename_i heq
    rw [h] at heq
    cases heq

/-- One turn of the loop. -/
theorem pop_while_append {condition : LinkedDedupWindow → Entry → Bool} {init : List (ℕ × Entry)}
    {node : ℕ} {oldest : Entry} (h : linked.lru_list = init ++ [(node, oldest)]) :
    linked.pop_while condition =
      if condition linked oldest then (linked.pop_oldest oldest).pop_while condition else linked := by
  rw [pop_while]
  split
  · rename_i heq
    simp [h] at heq
  · rename_i heq
    rw [h, List.getLast?_concat, Option.some.injEq, Prod.mk.injEq] at heq
    rw [heq.2]

/-- The oldest entry goes from the list and from the map. -/
theorem Refines.pop_oldest (h : Refines linked window) {init : List (ℕ × Entry)} {node : ℕ}
    {oldest : Entry} (hlist : linked.lru_list = init ++ [(node, oldest)]) :
    Refines (linked.pop_oldest oldest)
      (window.cut window.lru_list.dropLast (List.dropLast_sublist _)) where
  max_entries := h.max_entries
  ttl_seconds := h.ttl_seconds
  entries := by
    show linked.lru_list.dropLast.map Prod.snd = window.lru_list.dropLast
    rw [← h.entries, List.map_dropLast]
  nodes := h.nodes.sublist ((List.dropLast_sublist _).map _)
  lookup key n := by
    show (linked.map.erase oldest.key).lookup key = some n ↔
      ∃ entry, (n, entry) ∈ linked.lru_list.dropLast ∧ entry.key = key
    rw [hlist, List.dropLast_concat]
    by_cases hkey : key = oldest.key
    · subst hkey
      rw [AList.lookup_erase]
      refine iff_of_false nofun ?_
      rintro ⟨entry, hentry, hsame⟩
      -- Another node of the key would be the same node, at another place.
      have hin : (n, entry) ∈ linked.lru_list := hlist ▸ List.mem_append_left _ hentry
      have hlast : (node, oldest) ∈ linked.lru_list := hlist ▸ List.mem_append_right _ List.mem_cons_self
      obtain ⟨rfl, rfl⟩ := h.node_eq hin hlast hsame
      have hnodes := h.nodes
      rw [hlist, List.map_append] at hnodes
      exact (List.nodup_append.mp hnodes).2.2 n (List.mem_map_of_mem hentry) n
        List.mem_cons_self rfl
    · rw [AList.lookup_erase_ne hkey, h.lookup, hlist]
      refine exists_congr fun entry => and_congr_left fun hsame => ?_
      rw [List.mem_append, List.mem_singleton, Prod.mk.injEq]
      exact or_iff_left fun heq => hkey (hsame ▸ heq.2 ▸ rfl)
  fresh n hn := h.fresh n (((List.dropLast_sublist _).map _).subset hn)

/-- The end of the linked list, from that of the list. -/
theorem Refines.lru_list_eq (h : Refines linked window) {init : List Entry} {oldest : Entry}
    (hlist : window.lru_list = init ++ [oldest]) :
    ∃ linked_init node, linked.lru_list = linked_init ++ [(node, oldest)] := by
  have hentries := h.entries
  rw [hlist] at hentries
  obtain ⟨linked_init, tail, hl, -, htail⟩ := List.map_eq_append_iff.mp hentries
  obtain ⟨⟨node, entry⟩, rfl, hentry⟩ := List.map_eq_singleton_iff.mp htail
  exact ⟨linked_init, node, hentry ▸ hl⟩

/-- The relation is about the limits and the list of the window. -/
theorem Refines.of_eq {window' : DedupWindow} (h : Refines linked window)
    (hmax : window.max_entries = window'.max_entries) (httl : window.ttl_seconds = window'.ttl_seconds)
    (hlist : window.lru_list = window'.lru_list) : Refines linked window' where
  max_entries := h.max_entries.trans hmax
  ttl_seconds := h.ttl_seconds.trans httl
  entries := h.entries.trans hlist
  nodes := h.nodes
  lookup := h.lookup
  fresh := h.fresh

/-- The entries that are left by age. -/
theorem lru_list_evict_expired (window : DedupWindow) (now_ns : ℤ) :
    (window.evict_expired now_ns).lru_list = window.lru_list.rdropWhile fun e =>
      e.seen_at < now_ns - window.ttl_seconds * 1000000000 := rfl

/-- Eviction by age drops the same entries. -/
theorem Refines.evict_expired (h : Refines linked window) (now_ns : ℤ) :
    Refines (linked.evict_expired now_ns) (window.evict_expired now_ns) := by
  obtain ⟨l, hl⟩ : ∃ l, window.lru_list = l := ⟨_, rfl⟩
  unfold LinkedDedupWindow.evict_expired
  induction l using List.reverseRecOn generalizing linked window with
  | nil =>
    rw [pop_while_nil (List.map_eq_nil_iff.mp (h.entries.trans hl))]
    refine h.of_eq rfl rfl ?_
    rw [lru_list_evict_expired, hl, List.rdropWhile_nil]
  | append_singleton init oldest ih =>
    obtain ⟨linked_init, node, hlinked⟩ := h.lru_list_eq hl
    rw [pop_while_append hlinked, h.ttl_seconds]
    by_cases hold : oldest.seen_at < now_ns - window.ttl_seconds * 1000000000
    · rw [if_pos (decide_eq_true hold)]
      have hinit : window.lru_list.dropLast = init := by rw [hl, List.dropLast_concat]
      refine (ih (h.pop_oldest hlinked) hinit).of_eq rfl rfl ?_
      show window.lru_list.dropLast.rdropWhile
          (fun e => e.seen_at < now_ns - window.ttl_seconds * 1000000000) =
        window.lru_list.rdropWhile fun e => e.seen_at < now_ns - window.ttl_seconds * 1000000000
      rw [hinit, hl, List.rdropWhile_concat_pos _ _ _ (by simpa using hold)]
    · rw [if_neg (by simpa using hold)]
      refine h.of_eq rfl rfl ?_
      rw [lru_list_evict_expired, hl, List.rdropWhile_concat_neg _ _ _ (by simpa using hold)]

/-- Eviction by number leaves the newest entries. -/
theorem Refines.evict_oldest (h : Refines linked window) :
    Refines (linked.pop_while fun linked _ => linked.size > linked.max_entries)
      (window.cut (window.lru_list.take window.max_entries) (List.take_sublist _ _)) := by
  obtain ⟨l, hl⟩ : ∃ l, window.lru_list = l := ⟨_, rfl⟩
  induction l using List.reverseRecOn generalizing linked window with
  | nil =>
    rw [pop_while_nil (List.map_eq_nil_iff.mp (h.entries.trans hl))]
    refine h.of_eq rfl rfl ?_
    show window.lru_list = window.lru_list.take _
    rw [hl, List.take_nil]
  | append_singleton init oldest ih =>
    obtain ⟨linked_init, node, hlinked⟩ := h.lru_list_eq hl
    rw [pop_while_append hlinked, h.size_eq, h.max_entries]
    by_cases hmany : window.lru_list.length > window.max_entries
    · rw [if_pos (decide_eq_true hmany)]
      have hinit : window.lru_list.dropLast = init := by rw [hl, List.dropLast_concat]
      refine (ih (h.pop_oldest hlinked) hinit).of_eq rfl rfl ?_
      show window.lru_list.dropLast.take window.max_entries =
        window.lru_list.take window.max_entries
      rw [hl, List.length_append, List.length_singleton] at hmany
      rw [hinit, hl, List.take_append_of_le_length (Nat.le_of_lt_succ hmany)]
    · rw [if_neg (by simpa using hmany)]
      refine h.of_eq rfl rfl ?_
      exact (List.take_of_length_le (not_lt.mp hmany)).symm

/-- A search that only one element answers finds it. -/
theorem find?_eq_some_of_unique {α : Type} {l : List α} {p : α → Bool} {a : α} (ha : a ∈ l)
    (hp : p a = true) (hunique : ∀ b ∈ l, p b = true → b = a) : l.find? p = some a := by
  cases hf : l.find? p with
  | none => exact absurd hp (List.find?_eq_none.mp hf a ha)
  | some b => rw [hunique b (List.mem_of_find?_eq_some hf) (List.find?_some hf)]

/-- The node of an entry is the one whose entry has its key. -/
theorem Refines.node_eq_iff (h : Refines linked window) {node : ℕ} {entry : Entry}
    (hentry : (node, entry) ∈ linked.lru_list) :
    ∀ x ∈ linked.lru_list, x.1 = node ↔ x.2.key = entry.key := by
  rintro ⟨n, e⟩ hx
  constructor
  · rintro rfl
    rw [h.entry_eq hx hentry]
  · intro he
    exact (h.node_eq hx hentry he).1

/-- Stamping and splicing a node is stamping and splicing its entry. -/
theorem Refines.splice_front (h : Refines linked window) {key : String} {node : ℕ}
    (hnode : linked.map.lookup key = some node) (now_ns : ℤ) :
    Refines (linked.splice_front node now_ns) (window.touch key now_ns) := by
  obtain ⟨entry, hentry, rfl⟩ := (h.lookup key node).mp hnode
  have hmem : entry ∈ window.lru_list := h.entries ▸ List.mem_map_of_mem hentry
  have hnode_iff := h.node_eq_iff hentry
  have hfind : linked.lru_list.find? (fun e => e.1 = node) = some (node, entry) := by
    refine find?_eq_some_of_unique hentry (decide_eq_true rfl) ?_
    rintro ⟨n, e⟩ he heq
    exact Prod.ext_iff.mpr (h.node_eq he hentry ((hnode_iff _ he).mp (of_decide_eq_true heq)))
  have hfind' : window.find entry.key = some entry := by
    refine find?_eq_some_of_unique hmem (decide_eq_true rfl) fun e he hsame => ?_
    exact List.inj_on_of_nodup_map window.nodup he hmem (of_decide_eq_true hsame)
  have hlinked : linked.splice_front node now_ns = { linked with
      lru_list := (node, { entry with seen_at := now_ns }) ::
        linked.lru_list.filter fun entry => entry.1 ≠ node } := by
    unfold LinkedDedupWindow.splice_front
    rw [hfind]
  obtain ⟨hmax, httl⟩ := @DedupWindow.sameLimits_touch window entry.key now_ns
  rw [hlinked]
  refine ⟨h.max_entries.trans hmax.symm, h.ttl_seconds.trans httl.symm, ?_, ?_, ?_, ?_⟩
  · rw [DedupWindow.lru_list_touch hfind', ← h.entries, List.map_cons, List.filter_map]
    refine congrArg (_ :: ·) (congrArg (List.map Prod.snd) (List.filter_congr fun x hx => ?_))
    rw [Function.comp, Bool.eq_iff_iff, decide_eq_true_eq, decide_eq_true_eq, Ne, Ne, hnode_iff x hx]
  · rw [List.map_cons, List.nodup_cons]
    refine ⟨fun hin => ?_, h.nodes.sublist (List.filter_sublist.map _)⟩
    obtain ⟨x, hx, heq⟩ := List.mem_map.mp hin
    exact of_decide_eq_true (List.mem_filter.mp hx).2 heq
  · intro key' n
    show linked.map.lookup key' = some n ↔ _
    rw [h.lookup]
    constructor
    · rintro ⟨e, he, hsame⟩
      by_cases hn : n = node
      · subst hn
        rw [h.entry_eq he hentry] at hsame
        exact ⟨_, List.mem_cons_self, hsame⟩
      · exact ⟨e, List.mem_cons_of_mem _ (List.mem_filter.mpr ⟨he, decide_eq_true hn⟩), hsame⟩
    · rintro ⟨e, he, hsame⟩
      rcases List.mem_cons.mp he with heq | he
      · rw [Prod.mk.injEq] at heq
        obtain ⟨rfl, rfl⟩ := heq
        exact ⟨entry, hentry, hsame⟩
      · exact ⟨e, List.mem_of_mem_filter he, hsame⟩
  · intro n hn
    rw [List.map_cons, List.mem_cons] at hn
    rcases hn with rfl | hn
    · exact h.fresh n (List.mem_map_of_mem hentry)
    · exact h.fresh n ((List.filter_sublist.map _).subset hn)

/-- The map has a node for a key exactly where the list has an entry. -/
theorem Refines.lookup_eq_none (h : Refines linked window) (key : String) :
    linked.map.lookup key = none ↔ window.find key = none := by
  unfold DedupWindow.find
  rw [List.find?_eq_none, ← h.entries, Option.eq_none_iff_forall_ne_some]
  simp only [ne_eq, h.lookup, List.mem_map, Prod.exists, decide_eq_true_eq]
  constructor
  · rintro hnone e ⟨node, e', he, rfl⟩ hkey
    exact hnone node ⟨e', he, hkey⟩
  · rintro hnone node ⟨e, he, hkey⟩
    exact hnone e ⟨node, e, he, rfl⟩ hkey

/-- The two windows give the same answer to `is_duplicate`. -/
theorem Refines.is_duplicate (h : Refines linked window) (d : String) (s : ℕ) (t u : ℤ) :
    (linked.is_duplicate d s t u).1 = (window.is_duplicate d s t u).1 ∧
      Refines (linked.is_duplicate d s t u).2 (window.is_duplicate d s t u).2 := by
  have hevict := h.evict_expired t
  unfold LinkedDedupWindow.is_duplicate DedupWindow.is_duplicate
  dsimp only
  cases hlookup : (linked.evict_expired t).map.lookup (key_for d s) with
  | none =>
    rw [(hevict.lookup_eq_none _).mp hlookup]
    exact ⟨rfl, hevict⟩
  | some node =>
    have hfind : ¬((window.evict_expired t).find (key_for d s)).isNone = true := by
      rw [Option.isNone_iff_eq_none, ← hevict.lookup_eq_none, hlookup]
      exact Option.some_ne_none node
    rw [if_neg hfind]
    exact ⟨rfl, hevict.splice_front hlookup u⟩

/-- A new entry gets a new node, which the map has under its key. -/
theorem Refines.push (h : Refines linked window) (entry : Entry)
    (hnew : linked.map.lookup entry.key = none) :
    ∃ window', window'.max_entries = window.max_entries ∧
      window'.ttl_seconds = window.ttl_seconds ∧ window'.lru_list = entry :: window.lru_list ∧
      Refines { linked with
        lru_list := (linked.next_node, entry) :: linked.lru_list
        map := linked.map.insert entry.key linked.next_node
        next_node := linked.next_node + 1 } window' := by
  have hfind := (h.lookup_eq_none _).mp hnew
  have hnodup : ((entry :: window.lru_list).map Entry.key).Nodup := by
    rw [List.map_cons, List.nodup_cons]
    refine ⟨fun hmem => ?_, window.nodup⟩
    obtain ⟨e, he, hkey⟩ := List.mem_map.mp hmem
    exact List.find?_eq_none.mp hfind e he (decide_eq_true hkey)
  have hfresh : ∀ e, (linked.next_node, e) ∉ linked.lru_list := fun e he =>
    absurd (h.fresh _ (List.mem_map_of_mem he)) (lt_irrefl _)
  refine ⟨{ window with lru_list := entry :: window.lru_list, nodup := hnodup }, rfl, rfl, rfl,
    h.max_entries, h.ttl_seconds, congrArg (entry :: ·) h.entries, ?_, ?_, ?_⟩
  · rw [List.map_cons, List.nodup_cons]
    refine ⟨fun hmem => ?_, h.nodes⟩
    obtain ⟨⟨node, e⟩, he, rfl⟩ := List.mem_map.mp hmem
    exact hfresh e he
  · intro key n
    by_cases hkey : key = entry.key
    · subst hkey
      rw [AList.lookup_insert, Option.some.injEq]
      constructor
      · rintro rfl
        exact ⟨entry, List.mem_cons_self, rfl⟩
      · rintro ⟨e, he, hsame⟩
        rcases List.mem_cons.mp he with heq | he
        · exact (congrArg Prod.fst heq).symm
        · -- The map would have had a node for the key before.
          rw [(h.lookup _ n).mpr ⟨e, he, hsame⟩] at hnew
          cases hnew
    · rw [AList.lookup_insert_ne hkey, h.lookup]
      refine exists_congr fun e => and_congr_left fun hsame => ?_
      rw [List.mem_cons, Prod.mk.injEq]
      exact (or_iff_right fun heq => hkey (hsame.symm.trans (congrArg Entry.key heq.2))).symm
  · intro n hn
    rw [List.map_cons, List.mem_cons] at hn
    rcases hn with rfl | hn
    · exact Nat.lt_succ_self _
    · exact (h.fresh n hn).trans (Nat.lt_succ_self _)

/-- `mark_seen` does the same to both windows. -/
theorem Refines.mark_seen (h : Refines linked window) (d : String) (s : ℕ) (t u : ℤ) :
    Refines (linked.mark_seen d s t u) (window.mark_seen d s t u) := by
  have hevict := h.evict_expired t
  unfold LinkedDedupWindow.mark_seen DedupWindow.mark_seen
  dsimp only
  cases hlookup : (linked.evict_expired t).map.lookup (key_for d s) with
  | some node =>
    have hfind : ¬((window.evict_expired t).find (key_for d s)).isNone = true := by
      rw [Option.isNone_iff_eq_none, ← hevict.lookup_eq_none, hlookup]
      exact Option.some_ne_none node
    rw [dif_neg hfind]
    exact hevict.splice_front hlookup u
  | none =>
    have hfind := (hevict.lookup_eq_none _).mp hlookup
    rw [dif_pos (by rw [hfind]; rfl)]
    obtain ⟨pushed, hmax, httl, hlist, hpushed⟩ := hevict.push ⟨d, s, u⟩ hlookup
    refine hpushed.evict_oldest.of_eq hmax httl ?_
    show pushed.lru_list.take pushed.max_entries = _
    rw [hlist, hmax]

/-- The calls. -/
inductive Call
  | is_duplicate (device_id : String) (seq : ℕ)
  | mark_seen (device_id : String) (seq : ℕ)
  | evict_expired

/-- What a call makes of the window, and the pair that it touches: `is_duplicate` touches its pair
if its answer is true. -/
def call (linked : LinkedDedupWindow) (now_ns : ℤ) : Call → LinkedDedupWindow × Option (String × ℕ)
  | .is_duplicate device_id seq =>
    let (duplicate, linked) := linked.is_duplicate device_id seq now_ns now_ns
    (linked, if duplicate then some (device_id, seq) else none)
  | .mark_seen device_id seq =>
    (linked.mark_seen device_id seq now_ns now_ns, some (device_id, seq))
  | .evict_expired => (linked.evict_expired now_ns, none)

/-- The window and the touches after a call, the latest touch first. -/
def step (state : LinkedDedupWindow × List ((String × ℕ) × ℤ)) (c : Call × ℤ) :
    LinkedDedupWindow × List ((String × ℕ) × ℤ) :=
  let (linked, touched) := state.1.call c.2 c.1
  (linked, touched.toList.map (·, c.2) ++ state.2)

/-- The window and the touches after some calls, each with the clock at it. -/
def run (max_entries : ℕ) (ttl_seconds : ℤ) (calls : List (Call × ℤ)) :
    LinkedDedupWindow × List ((String × ℕ) × ℤ) :=
  calls.foldl step ({ max_entries, ttl_seconds }, [])

/-- The window has what should be kept of the touches, as it was at a time. -/
structure Tracks (max_entries : ℕ) (ttl_seconds before : ℤ)
    (state : LinkedDedupWindow × List ((String × ℕ) × ℤ)) (window : DedupWindow) : Prop where
  refines : Refines state.1 window
  max_entries : window.max_entries = max_entries
  ttl_seconds : window.ttl_seconds = ttl_seconds
  keeps : window.Keeps before state.2
  ordered : Ordered state.2
  not_after : ∀ touch ∈ state.2, touch.2 ≤ before

variable {max_entries : ℕ} {ttl_seconds before now : ℤ}
  {state : LinkedDedupWindow × List ((String × ℕ) × ℤ)}

/-- A touch now is later than the others. -/
theorem Tracks.cons (h : Tracks max_entries ttl_seconds before state window) (hle : before ≤ now)
    (pair : String × ℕ) : Ordered ((pair, now) :: state.2) ∧
      ∀ touch ∈ (pair, now) :: state.2, touch.2 ≤ now := by
  refine ⟨List.pairwise_cons.mpr ⟨fun touch htouch => (h.not_after touch htouch).trans hle, h.ordered⟩,
    fun touch htouch => ?_⟩
  rcases List.mem_cons.mp htouch with rfl | htouch
  · exact le_rfl
  · exact (h.not_after touch htouch).trans hle

/-- One call. -/
theorem Tracks.step (h : Tracks max_entries ttl_seconds before state window) (hle : before ≤ now)
    (httl : 0 ≤ ttl_seconds) (c : Call) :
    ∃ window', Tracks max_entries ttl_seconds now (step state (c, now)) window' := by
  have httl' : 0 ≤ window.ttl_seconds := h.ttl_seconds.symm ▸ httl
  have hsame : ∀ touch ∈ state.2, touch.2 ≤ now := fun touch htouch =>
    (h.not_after touch htouch).trans hle
  cases c with
  | is_duplicate d s =>
    obtain ⟨hanswer, hrefines⟩ := h.refines.is_duplicate d s now now
    obtain ⟨-, hkeeps⟩ := h.keeps.is_duplicate h.ordered hle httl' d s
    obtain ⟨hmax, httl⟩ := window.sameLimits_is_duplicate d s now now
    obtain ⟨hordered, hafter⟩ := h.cons hle (d, s)
    unfold LinkedDedupWindow.step call
    dsimp only
    rw [hanswer]
    -- The pair is touched if the answer is true.
    split at hkeeps
    · rename_i hduplicate
      rw [if_pos hduplicate]
      exact ⟨_, hrefines, hmax.trans h.max_entries, httl.trans h.ttl_seconds, hkeeps, hordered, hafter⟩
    · rename_i hnew
      rw [if_neg hnew]
      exact ⟨_, hrefines, hmax.trans h.max_entries, httl.trans h.ttl_seconds, hkeeps, h.ordered, hsame⟩
  | mark_seen d s =>
    obtain ⟨hmax, httl⟩ := window.sameLimits_mark_seen d s now now
    obtain ⟨hordered, hafter⟩ := h.cons hle (d, s)
    exact ⟨_, h.refines.mark_seen d s now now, hmax.trans h.max_entries, httl.trans h.ttl_seconds,
      h.keeps.mark_seen h.ordered hle httl' d s, hordered, hafter⟩
  | evict_expired =>
    exact ⟨_, h.refines.evict_expired now, h.max_entries, h.ttl_seconds,
      h.keeps.evict_expired h.ordered hle, h.ordered, hsame⟩

/-- A run of calls at times that do not decrease. -/
theorem exists_tracks_run (httl : 0 ≤ ttl_seconds) {calls : List (Call × ℤ)}
    (hclock : calls.Pairwise fun a b => a.2 ≤ b.2) (hnow : ∀ c ∈ calls, c.2 ≤ now) :
    ∃ before ≤ now, ∃ window,
      Tracks max_entries ttl_seconds before (run max_entries ttl_seconds calls) window := by
  -- The last call finds what the calls before it left.
  induction calls using List.reverseRecOn generalizing now with
  | nil =>
    refine ⟨now, le_rfl, _, Refines.empty max_entries ttl_seconds, rfl, rfl, ?_, List.Pairwise.nil,
      fun touch h => absurd h List.not_mem_nil⟩
    exact (List.take_nil (i := max_entries)).symm
  | append_singleton calls c ih =>
    obtain ⟨hcalls, -, hlast⟩ := List.pairwise_append.mp hclock
    obtain ⟨before, hle, window, h⟩ := ih hcalls fun b hb => hlast b hb c List.mem_cons_self
    obtain ⟨window', h'⟩ := h.step hle httl c.1
    rw [run, List.foldl_concat]
    exact ⟨c.2, hnow c (List.mem_append_right _ List.mem_cons_self), window', h'⟩

/-- An LRU set with a time to live, after the touches of a history and at a time. -/
structure Remembers (linked : LinkedDedupWindow) (max_entries : ℕ) (ttl_seconds now : ℤ)
    (touches : List ((String × ℕ) × ℤ)) : Prop where
  /-- A duplicate was touched last not too long ago, and fewer than `max_entries` other pairs since. -/
  is_duplicate_iff : ∀ d s, (linked.is_duplicate d s now now).1 = true ↔
    ∃ since u before, touches = since ++ ((d, s), u) :: before ∧ (d, s) ∉ since.map Prod.fst ∧
      now - u ≤ ttl_seconds * 1000000000 ∧ (since.map Prod.fst).toFinset.card < max_entries
  size_le : linked.size ≤ max_entries
  /-- The map and the list have the same keys, and each key has one node. -/
  lookup_iff : ∀ key node, linked.map.lookup key = some node ↔
    ∃ entry, (node, entry) ∈ linked.lru_list ∧ entry.key = key
  nodes : (linked.lru_list.map Prod.fst).Nodup
  keys : (linked.lru_list.map fun e => e.2.key).Nodup
  size_eq : linked.size = linked.lru_list.length
  ordered : linked.lru_list.Pairwise fun a b => b.2.seen_at ≤ a.2.seen_at
  /-- Eviction leaves what is not expired. -/
  evict_expired : (linked.evict_expired now).lru_list.map Prod.snd =
    (linked.lru_list.map Prod.snd).filter fun e => now - e.seen_at ≤ ttl_seconds * 1000000000

/-- The window after a run. -/
theorem Tracks.remembers (h : Tracks max_entries ttl_seconds before state window)
    (hle : before ≤ now) (httl : 0 ≤ ttl_seconds) :
    Remembers state.1 max_entries ttl_seconds now state.2 := by
  obtain ⟨hrefines, rfl, rfl, hkeeps, hordered, -⟩ := h
  have hentries := hrefines.entries
  have hlength : state.1.lru_list.length = window.lru_list.length := by
    rw [← hentries, List.length_map]
  have htouches : window.lru_list.length = window.touches.length := (List.length_map _).symm
  constructor
  · intro d s
    rw [(hrefines.is_duplicate d s now now).1, (hkeeps.is_duplicate hordered hle httl d s).1,
      Store.mem_kept_iff hordered]
    rfl
  · rw [hrefines.size_eq, htouches, hkeeps]
    exact List.length_take_le _ _
  · exact hrefines.lookup
  · exact hrefines.nodes
  · have hkeys := window.nodup
    rwa [← hentries, List.map_map] at hkeys
  · rw [hrefines.size_eq, hlength]
  · have hfirst : Ordered window.touches := hkeeps ▸ hordered.kept
    have hlist : window.lru_list.Pairwise fun a b => b.seen_at ≤ a.seen_at :=
      List.pairwise_map.mp hfirst
    rw [← hentries] at hlist
    exact List.pairwise_map.mp hlist
  · rw [(hrefines.evict_expired now).entries, hkeeps.lru_list_evict_expired hordered now, hentries]
    rfl

/-- After every run of calls, each with one reading of a clock that does not go back, the window is
an LRU set with a time to live, whatever the characters of the device ids are. -/
theorem remembers_exactly (max_entries : ℕ) (ttl_seconds now : ℤ) (calls : List (Call × ℤ))
    (httl : 0 ≤ ttl_seconds) (hclock : calls.Pairwise fun a b => a.2 ≤ b.2)
    (hnow : ∀ c ∈ calls, c.2 ≤ now) :
    (∀ d d' s s', key_for d s = key_for d' s' → d = d' ∧ s = s') ∧
      Remembers (run max_entries ttl_seconds calls).1 max_entries ttl_seconds now
        (run max_entries ttl_seconds calls).2 := by
  obtain ⟨before, hle, window, h⟩ := @exists_tracks_run max_entries ttl_seconds now httl calls hclock hnow
  exact ⟨fun d d' s s' => key_for_injective, h.remembers hle httl⟩

/-- A pair marked five seconds ago. -/
theorem remembers_exactly_one : Remembers
    (run 2 60 [(.mark_seen "device" 7, 0)]).1 2 60 5000000000
    (run 2 60 [(.mark_seen "device" 7, 0)]).2 :=
  (remembers_exactly 2 60 5000000000 [(.mark_seen "device" 7, 0)] (by decide)
    (List.pairwise_singleton _ _) (fun c hc => by
      rw [List.mem_singleton.mp hc]
      decide)).2

end LinkedDedupWindow

end SignalRoute
