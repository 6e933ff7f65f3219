import CustomElements.Template.Memo
import Mathlib.Data.Finset.Card
import Mathlib.Data.Set.Card

/-!
# The slots of the cache

The cache keeps its results in a list. Read through `Memo.get?` it is one slot for each key, which
holds a result or is empty: to insert a result fills one slot, to release keys empties theirs, and
no other slot changes. What counts entries counts slots as long as no key has two entries
(`Memo.Keyed`), as is the case for every cache that began empty.
-/

namespace CustomElements.Memo

/-- No key has two entries. -/
def Keyed (m : Memo) : Prop := (m.entries.map Prod.fst).Nodup

/-! ## Reading -/

theorem find?_filter_key (l : List (CacheKey × RenderResult)) (p : CacheKey → Bool)
    (key : CacheKey) :
    (l.filter fun e => p e.1).find? (fun e => e.1 == key) =
      if p key then l.find? (fun e => e.1 == key) else none := by
  have htest : ∀ e : CacheKey × RenderResult,
      decide (p e.1 = true ∧ (e.1 == key) = true) = (p key && e.1 == key) := by
    intro e
    by_cases he : e.1 = key <;> simp [he]
  rw [List.find?_filter, funext htest]
  rcases p key with - | -
  · simp
  · rfl

theorem get?_insert (m : Memo) (key other : CacheKey) (r : RenderResult) :
    (m.insert key r).get? other = if other = key then some r else m.get? other := by
  have hfilter := find?_filter_key m.entries (· != key) other
  simp only [get?, insert, List.find?_cons, hfilter]
  by_cases h : other = key
  · simp [h]
  · have hne : (key == other) = false := beq_eq_false_iff_ne.mpr fun e => h e.symm
    simp [hne, h]

theorem get?_releaseWhere (m : Memo) (p : CacheKey → Bool) (key : CacheKey) :
    (m.releaseWhere p).2.get? key = if p key then none else m.get? key := by
  have hfilter := find?_filter_key m.entries (fun k => !p k) key
  simp only [get?, releaseWhere, hfilter]
  rcases p key with - | - <;> rfl

/-- A key has an entry exactly if its slot holds a result. -/
theorem mem_keys_iff (m : Memo) (key : CacheKey) :
    key ∈ m.entries.map Prod.fst ↔ (m.get? key).isSome = true := by
  rw [get?, Option.isSome_map, List.find?_isSome, List.mem_map]
  simp only [beq_iff_eq]

/-- Nothing is cached for an instance that came after all those with results. -/
theorem get?_of_forall_lt {m : Memo} {key : CacheKey}
    (h : ∀ e ∈ m.entries, e.1.component < key.component) : m.get? key = none := by
  rw [← Option.not_isSome_iff_eq_none, ← mem_keys_iff]
  intro hkey
  obtain ⟨e, he, rfl⟩ := List.mem_map.mp hkey
  exact Nat.lt_irrefl _ (h e he)

/-! ## Counting -/

theorem keyed_empty : Keyed empty := List.nodup_nil

theorem keyed_releaseWhere {m : Memo} (h : m.Keyed) (p : CacheKey → Bool) :
    (m.releaseWhere p).2.Keyed := h.sublist (List.filter_sublist.map Prod.fst)

theorem keyed_insert {m : Memo} (h : m.Keyed) (key : CacheKey) (r : RenderResult) :
    (m.insert key r).Keyed := by
  rw [Keyed, insert, List.map_cons, List.nodup_cons]
  refine ⟨fun hmem => ?_, h.sublist (List.filter_sublist.map Prod.fst)⟩
  obtain ⟨e, he, hkey⟩ := List.mem_map.mp hmem
  have hne := (List.mem_filter.mp he).2
  rw [bne_iff_ne] at hne
  exact hne hkey

/-- The entries whose keys satisfy a test are as many as the slots that do and are not empty. -/
theorem length_filter_entries {m : Memo} (h : m.Keyed) (p : CacheKey → Bool) :
    (m.entries.filter fun e => p e.1).length =
      {key | p key = true ∧ (m.get? key).isSome = true}.ncard := by
  have hset : {key | p key = true ∧ (m.get? key).isSome = true} =
      (((m.entries.filter fun e => p e.1).map Prod.fst).toFinset : Set CacheKey) := by
    ext key
    rw [Set.mem_ofPred_eq, Finset.mem_coe, List.mem_toFinset, ← mem_keys_iff]
    simp only [List.mem_map, List.mem_filter]
    constructor
    · rintro ⟨hp, e, he, rfl⟩
      exact ⟨e, ⟨he, hp⟩, rfl⟩
    · rintro ⟨e, ⟨he, hp⟩, rfl⟩
      exact ⟨hp, e, he, rfl⟩
  have hnodup : ((m.entries.filter fun e => p e.1).map Prod.fst).Nodup :=
    h.sublist (List.filter_sublist.map Prod.fst)
  rw [hset, Set.ncard_coe_finset, List.toFinset_card_of_nodup hnodup, List.length_map]

theorem size_eq_ncard {m : Memo} (h : m.Keyed) :
    m.size = {key | (m.get? key).isSome = true}.ncard := by
  have hall := length_filter_entries h fun _ => true
  simpa [size] using hall

theorem isEmpty_iff (m : Memo) : m.isEmpty = true ↔ ∀ key, m.get? key = none := by
  rw [isEmpty, List.isEmpty_iff]
  constructor
  · intro h key
    rw [get?, h]
    rfl
  · intro h
    refine List.eq_nil_iff_forall_not_mem.mpr fun e he => ?_
    have hsome := (m.mem_keys_iff e.1).mp (List.mem_map_of_mem he)
    rw [h e.1] at hsome
    cases hsome

end CustomElements.Memo
