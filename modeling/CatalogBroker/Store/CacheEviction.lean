import CatalogBroker.Library.CappedMap
import CatalogBroker.Store.AllowListCache

/-! What the allow-list maps give up when a new key comes to a full one. -/

set_option autoImplicit false

namespace CatalogBroker

open Library CappedMap Maps

variable {Entry : Type} {entries : Std.ExtTreeMap String Entry} {key : String} {isFresh : Entry → Bool}
  {stamp : Entry → Instant} {order : HashOrder Entry}

theorem makeRoom_eq (entries : Std.ExtTreeMap String Entry) (key : String) (isFresh : Entry → Bool)
    (stamp : Entry → Instant) (order : HashOrder Entry) :
    makeRoom entries key isFresh stamp order =
      if allowListCacheEntries ≤ entries.size ∧ key ∉ entries then
        evictOldest allowListCacheEntries stamp (order.visit (entries.filter fun _ entry => isFresh entry).toList)
          (entries.filter fun _ entry => isFresh entry)
      else entries := by
  unfold makeRoom evictOldest
  split
  · dsimp only
    split
    · split
      · rename_i found
        rw [found]
      · rename_i nothing
        rw [nothing]
    · rfl
  · rfl

theorem size_insert_makeRoom_le (bounded : entries.size ≤ allowListCacheEntries) (new : Entry) :
    ((makeRoom entries key isFresh stamp order).insert key new).size ≤ allowListCacheEntries := by
  rw [makeRoom_eq]
  split
  · have kept : (entries.filter fun _ entry => isFresh entry).size ≤ allowListCacheEntries :=
      Std.ExtTreeMap.size_filter_le_size.trans bounded
    have below := size_evictOldest_lt stamp (by decide) kept (order.visit_perm _)
    exact Std.ExtTreeMap.size_insert_le.trans below
  · rename_i open_or_known
    rw [Std.ExtTreeMap.size_insert]
    split
    · exact bounded
    · rename_i absent
      rw [Std.ExtTreeMap.contains_iff_mem] at absent
      have below : ¬ allowListCacheEntries ≤ entries.size := fun full => open_or_known ⟨full, absent⟩
      omega

/-- What inserting `key` takes from a map: every stale entry and no other, or one oldest entry where none is stale. -/
structure GivesWay (entries after : Std.ExtTreeMap String Entry) (key : String) (isFresh : Entry → Bool)
    (stamp : Entry → Instant) : Prop where
  unchanged : ∀ (other : String) entry, other ≠ key → after[other]? = some entry → entries[other]? = some entry
  staleOnly : (∃ (other : String) (entry : Entry), entries[other]? = some entry ∧ isFresh entry = false) →
    ∀ (other : String) entry, entries[other]? = some entry → (other ∉ after ↔ isFresh entry = false)
  oneOldest : (∀ (other : String) entry, entries[other]? = some entry → isFresh entry = true) →
    ∃ old entry, Oldest stamp entries old entry ∧ ∀ other ∈ entries, other ∉ after ↔ other = old

/-- No entry but that of the key itself is touched. -/
def LeavesOthers (entries after : Std.ExtTreeMap String Entry) (key : String) : Prop :=
  ∀ other, other ≠ key → after[other]? = entries[other]?

theorem insert_leavesOthers (possible : entries.size < allowListCacheEntries ∨ key ∈ entries) (new : Entry) :
    LeavesOthers entries ((makeRoom entries key isFresh stamp order).insert key new) key := by
  intro other apart
  have idle : ¬ (allowListCacheEntries ≤ entries.size ∧ key ∉ entries) := by
    rintro ⟨full, absent⟩
    rcases possible with below | present
    · omega
    · exact absent present
  rw [makeRoom_eq, if_neg idle, getElem?_insert_of_ne apart]

/-- A new key in a full map takes the stale entries, and where there are none one oldest entry. -/
theorem insert_givesWay (full : entries.size = allowListCacheEntries) (absent : key ∉ entries) (new : Entry) :
    GivesWay entries ((makeRoom entries key isFresh stamp order).insert key new) key isFresh stamp := by
  have held_apart {other : String} {entry : Entry} (found : entries[other]? = some entry) : other ≠ key := by
    intro same
    exact absent (same ▸ mem_of_getElem? found)
  rw [makeRoom_eq, if_pos ⟨full.ge, absent⟩]
  rcases filter_eq_self_or_size_lt (fun _ entry => isFresh entry) entries with whole | fewer
  -- every entry is fresh: the oldest one goes
  · obtain ⟨old, oldEntry, oldest, less⟩ : ∃ old entry, Oldest stamp entries old entry ∧
        evictOldest allowListCacheEntries stamp (order.visit entries.toList) entries = entries.erase old :=
      evictOldest_of_full (by decide) full.ge (order.visit_perm entries.toList)
    rw [whole, less]
    refine ⟨?_, ?_, ?_⟩
    · intro other entry apart found
      rw [getElem?_insert_of_ne apart] at found
      exact getElem?_erase_some found
    · rintro ⟨other, entry, found, stale⟩
      have kept : (entries.filter fun _ entry => isFresh entry)[other]? = some entry := by rw [whole, found]
      rw [getElem?_filter_eq_some, stale] at kept
      cases kept.2
    · intro _
      refine ⟨old, oldEntry, oldest, fun other member => ?_⟩
      obtain ⟨entry, found⟩ := Option.isSome_iff_exists.mp (Std.ExtTreeMap.mem_iff_isSome_getElem?.mp member)
      rw [not_mem_iff_getElem?, getElem?_insert_of_ne (held_apart found)]
      by_cases same : other = old
      · subst same
        simp only [Std.ExtTreeMap.getElem?_erase_self]
      · rw [getElem?_erase_of_ne same, found]
        simp [same]
  -- a stale one went, so there is room already
  · rw [evictOldest_of_room (by omega)]
    refine ⟨?_, ?_, ?_⟩
    · intro other entry apart found
      rw [getElem?_insert_of_ne apart] at found
      exact (getElem?_filter_eq_some.mp found).1
    · intro _ other entry found
      rw [not_mem_iff_getElem?, getElem?_insert_of_ne (held_apart found), Std.ExtTreeMap.getElem?_filter', found]
      cases fresh : isFresh entry <;> simp [Option.filter, fresh]
    · intro allFresh
      have whole : (entries.filter fun _ entry => isFresh entry) = entries := by
        refine Std.ExtTreeMap.ext_getElem? fun other => ?_
        rw [Std.ExtTreeMap.getElem?_filter']
        cases found : entries[other]? with
        | none => rfl
        | some entry => simp [Option.filter, allFresh other entry found]
      rw [whole] at fewer
      omega

end CatalogBroker
