import CustomElements.Render.Session
import Mathlib.Algebra.BigOperators.Fin
import Mathlib.Logic.Relation

/-!
# The order in which dependencies become known

To register a definition is to search the graph of dependencies from it, depth first. `Visits` is
that search by itself: a definition comes before those that it depends on, in the order in which it
lists them, and none is visited twice. It knows nothing of names, of a limit on steps or of a list
of definitions that wait; the program has all of these and still goes the same way
(`Catalog.registerWaiting_eq`), since every step takes one definition off the list and the
dependencies of each are put there once at most.

The search meets what can be reached and nothing else (`Visits.mem_iff`). The names become known in
its order, and each one stands for the first definition met that has it
(`Catalog.register_visits`).
-/

namespace CustomElements

namespace Catalog

/-! ## Catalogs -/

/-- The catalogs that can be made, one definition after the other. -/
inductive Made : Catalog → Prop where
  | empty : Made .empty
  | add {c : Catalog} (d : Definition) (dependencies : Option (List Nat)) :
      Made c → Made (c.add d dependencies)
  | setDependencies {c c' : Catalog} {id : Nat} {dependencies : List Nat} :
      Made c → c.setDependencies id dependencies = .ok c' → Made c'

/-- In a catalog that was made, a definition stands at its identity. -/
theorem Made.id_eq {c : Catalog} (h : c.Made) {i : Nat} {d : Definition}
    (hd : c.get? i = some d) : d.id = i := by
  induction h generalizing i d with
  | empty => simp [get?, Catalog.empty] at hd
  | @add c d' dependencies _ ih =>
      simp only [get?, Catalog.add, List.getElem?_append] at hd
      split at hd
      · exact ih hd
      · rename_i hi
        rcases hlast : i - c.entries.length with - | k
        · rw [hlast] at hd
          cases hd
          change c.entries.length = i
          omega
        · simp [hlast] at hd
  | @setDependencies c c' id dependencies _ hok ih =>
      unfold Catalog.setDependencies at hok
      split at hok
      · cases hok
      · cases hok
        simp only [get?, List.getElem?_modify, Option.map_eq_map, Option.map_map] at hd
        refine ih ?_
        rw [get?, ← hd]
        congr 1
        funext e
        dsimp only [Function.comp_apply]
        split <;> rfl

/-- The second definition is a dependency of the first. -/
def Requires (c : Catalog) (x y : Definition) : Prop := y ∈ c.dependencies x.id

/-! ## The search -/

/--
`c.Visits seen waiting order`: a depth-first search from the definitions that wait, the first one
first, meets those in `order`, if those whose identities are in `seen` were met before.
-/
inductive Visits (c : Catalog) : List Nat → List Definition → List Definition → Prop where
  | done {seen : List Nat} : Visits c seen [] []
  | again {seen : List Nat} {d : Definition} {rest order : List Definition} (met : d.id ∈ seen)
      (onward : Visits c seen rest order) : Visits c seen (d :: rest) order
  | first {seen : List Nat} {d : Definition} {rest below order : List Definition}
      (new : d.id ∉ seen) (inside : Visits c (seen ++ [d.id]) (c.dependencies d.id) below)
      (onward : Visits c (seen ++ (d :: below).map (·.id)) rest order) :
      Visits c seen (d :: rest) (d :: below ++ order)

namespace Visits

variable {c : Catalog} {seen : List Nat} {waiting order : List Definition}

/-- The search goes one way only. -/
theorem unique (h : c.Visits seen waiting order) {order' : List Definition}
    (h' : c.Visits seen waiting order') : order' = order := by
  induction h generalizing order' with
  | done =>
      cases h'
      rfl
  | again met _ ih =>
      cases h' with
      | again _ onward => exact ih onward
      | first new _ _ => exact absurd met new
  | first new _ _ ih ih' =>
      cases h' with
      | again met _ => exact absurd met new
      | first _ inside onward =>
          obtain rfl := ih inside
          rw [ih' onward]

/-- Definitions that wait one after the other can be searched from one after the other. -/
theorem split {xs ys : List Definition} (h : c.Visits seen (xs ++ ys) order) :
    ∃ before after, c.Visits seen xs before ∧
      c.Visits (seen ++ before.map (·.id)) ys after ∧ order = before ++ after := by
  generalize hxs : xs ++ ys = waiting at h
  -- along the search: the definition that waits first is of the first list, unless that is over
  induction h generalizing xs with
  | done =>
      obtain ⟨rfl, rfl⟩ := List.append_eq_nil_iff.mp hxs
      exact ⟨[], [], .done, .done, rfl⟩
  | @again seen d rest order met onward ih =>
      cases xs with
      | nil =>
          rw [List.nil_append] at hxs
          subst hxs
          exact ⟨[], order, .done, by simpa using Visits.again met onward, rfl⟩
      | cons x xs =>
          obtain ⟨rfl, hrest⟩ := List.cons.inj hxs
          obtain ⟨before, after, hbefore, hafter, rfl⟩ := ih hrest
          exact ⟨before, after, .again met hbefore, hafter, rfl⟩
  | @first seen d rest below order new inside onward _ ih =>
      cases xs with
      | nil =>
          rw [List.nil_append] at hxs
          subst hxs
          exact ⟨[], d :: below ++ order, .done, by simpa using Visits.first new inside onward, rfl⟩
      | cons x xs =>
          obtain ⟨rfl, hrest⟩ := List.cons.inj hxs
          obtain ⟨before, after, hbefore, hafter, rfl⟩ := ih hrest
          refine ⟨x :: below ++ before, after, .first new inside hbefore, ?_, by simp⟩
          rw [List.map_append, ← List.append_assoc]
          exact hafter

/-- No definition is met twice, or again. -/
theorem nodup (h : c.Visits seen waiting order) :
    (order.map (·.id)).Nodup ∧ ∀ d ∈ order, d.id ∉ seen := by
  induction h with
  | done => simp
  | again _ _ ih => exact ih
  | @first seen d rest below order new _ _ ih ih' =>
      obtain ⟨hbelow, hnew⟩ := ih
      obtain ⟨horder, hnew'⟩ := ih'
      -- what is below a definition is searched after it was met, so it is none of what was met
      have hd : ∀ e ∈ below, e.id ≠ d.id ∧ e.id ∉ seen := fun e he => by
        have hnot := hnew e he
        rw [List.mem_append, not_or, List.mem_singleton] at hnot
        exact ⟨hnot.2, hnot.1⟩
      refine ⟨?_, ?_⟩
      · rw [List.map_append, List.nodup_append, List.map_cons, List.nodup_cons]
        refine ⟨⟨fun hmem => ?_, hbelow⟩, horder, ?_⟩
        · obtain ⟨e, he, heq⟩ := List.mem_map.mp hmem
          exact (hd e he).1 heq
        · intro a ha b hb heq
          obtain ⟨e, he, rfl⟩ := List.mem_map.mp hb
          exact hnew' e he (List.mem_append_right _ (heq ▸ ha))
      · refine List.forall_mem_append.mpr ⟨List.forall_mem_cons.mpr
          ⟨new, fun e he => (hd e he).2⟩, fun e he hseen => ?_⟩
        exact hnew' e he (List.mem_append_left _ hseen)

/-- What is met can be reached from a definition that waits. -/
theorem reachable (h : c.Visits seen waiting order) :
    ∀ e ∈ order, ∃ d ∈ waiting, Relation.ReflTransGen c.Requires d e := by
  induction h with
  | done => simp
  | again _ _ ih =>
      intro e he
      obtain ⟨d, hd, hreach⟩ := ih e he
      exact ⟨d, List.mem_cons_of_mem _ hd, hreach⟩
  | @first seen d rest below order _ _ _ ih ih' =>
      refine List.forall_mem_append.mpr ⟨List.forall_mem_cons.mpr
        ⟨⟨d, List.mem_cons_self, .refl⟩, fun e he => ?_⟩, fun e he => ?_⟩
      · obtain ⟨x, hx, hreach⟩ := ih e he
        exact ⟨d, List.mem_cons_self, .head hx hreach⟩
      · obtain ⟨x, hx, hreach⟩ := ih' e he
        exact ⟨x, List.mem_cons_of_mem _ hx, hreach⟩

/-- In the end every definition that waited has been met, and with each what it depends on. -/
theorem closed (h : c.Visits seen waiting order) :
    (∀ d ∈ waiting, d.id ∈ seen ++ order.map (·.id)) ∧
      ∀ d ∈ order, ∀ e ∈ c.dependencies d.id, e.id ∈ seen ++ order.map (·.id) := by
  induction h with
  | done => simp
  | @again seen d rest order met _ ih =>
      exact ⟨List.forall_mem_cons.mpr ⟨List.mem_append_left _ met, ih.1⟩, ih.2⟩
  | @first seen d rest below order _ _ _ ih ih' =>
      -- what was met below comes before what is met later, and counts as met from then on
      have hids : seen ++ (d :: below ++ order).map (·.id) =
          (seen ++ (d :: below).map (·.id)) ++ order.map (·.id) := by simp
      have hbelow : seen ++ [d.id] ++ below.map (·.id) = seen ++ (d :: below).map (·.id) := by simp
      rw [hbelow] at ih
      rw [hids]
      have hfirst : ∀ i ∈ seen ++ (d :: below).map (·.id),
          i ∈ seen ++ (d :: below).map (·.id) ++ order.map (·.id) :=
        fun i hi => List.mem_append_left _ hi
      refine ⟨List.forall_mem_cons.mpr ⟨hfirst _ (by simp), ih'.1⟩,
        List.forall_mem_append.mpr ⟨List.forall_mem_cons.mpr ⟨?_, ?_⟩, ih'.2⟩⟩
      · exact fun e he => hfirst _ (ih.1 e he)
      · exact fun x hx e he => hfirst _ (ih.2 x hx e he)

/-- **The search from a definition meets exactly what can be reached from it.** -/
theorem mem_iff (hmade : c.Made) {d : Definition} (hd : c.get? d.id = some d)
    (h : c.Visits [] [d] order) (e : Definition) :
    e ∈ order ↔ Relation.ReflTransGen c.Requires d e := by
  constructor
  · intro he
    obtain ⟨x, hx, hreach⟩ := h.reachable e he
    rwa [List.mem_singleton.mp hx] at hreach
  · intro hreach
    have hstands : ∀ {e}, Relation.ReflTransGen c.Requires d e → c.get? e.id = some e := by
      intro e he
      rcases he.cases_tail with rfl | ⟨x, -, hx⟩
      · exact hd
      · obtain ⟨i, -, hi⟩ := List.mem_filterMap.mp hx
        rwa [hmade.id_eq hi]
    -- an identity that was met is that of one definition only
    have hmet : ∀ {e}, Relation.ReflTransGen c.Requires d e → e.id ∈ [] ++ order.map (·.id) →
        e ∈ order := by
      intro e he hid
      obtain ⟨x, hx, hxe⟩ := List.mem_map.mp hid
      obtain ⟨y, hy, hyx⟩ := h.reachable x hx
      have hxget := hstands (List.mem_singleton.mp hy ▸ hyx)
      rw [hxe, hstands he] at hxget
      rwa [Option.some.inj hxget]
    induction hreach with
    | refl => exact hmet .refl (h.closed.1 d (List.mem_singleton_self d))
    | tail hfirst hlast ih => exact hmet (hfirst.tail hlast) (h.closed.2 _ ih _ hlast)

end Visits

/-! ## The program goes the same way -/

/-- The number of dependencies that definitions list which were not visited. -/
def unlisted (c : Catalog) (visited : List Nat) : Nat :=
  ∑ i ∈ (Finset.range c.entries.length).filter (· ∉ visited), (c.dependencyIds i).length

/-- A visit takes the dependencies of the definition off that number. -/
theorem unlisted_cons (c : Catalog) {visited : List Nat} {id : Nat} (h : id ∉ visited) :
    (c.dependencyIds id).length + c.unlisted (id :: visited) = c.unlisted visited := by
  have herase : (Finset.range c.entries.length).filter (· ∉ id :: visited) =
      ((Finset.range c.entries.length).filter (· ∉ visited)).erase id := by
    ext i
    simp only [Finset.mem_filter, Finset.mem_erase, List.mem_cons, not_or]
    tauto
  rw [unlisted, herase, unlisted]
  by_cases hid : id < c.entries.length
  · exact Finset.add_sum_erase _ (fun i => (c.dependencyIds i).length) (by simp [hid, h])
  · rw [Finset.erase_eq_of_notMem (by simp [hid])]
    simp [dependencyIds, List.getElem?_eq_none (Nat.le_of_not_lt hid)]

theorem registerFuel_eq (c : Catalog) : c.registerFuel = c.unlisted [] + 2 := by
  have hfold : ∀ (entries : List CatalogEntry) (n : Nat),
      entries.foldl (fun n e => n + (e.dependencies.getD []).length) n =
        (entries.map fun e => (e.dependencies.getD []).length).sum + n := by
    intro entries
    induction entries with
    | nil => simp
    | cons e entries ih =>
        intro n
        rw [List.foldl_cons, ih, List.map_cons, List.sum_cons]
        omega
  rw [registerFuel, hfold, unlisted]
  simp only [List.not_mem_nil, not_false_eq_true, Finset.filter_true]
  rw [Finset.sum_range, ← Fin.sum_univ_fun_getElem]
  simp [dependencyIds]

theorem length_dependencies_le (c : Catalog) (id : Nat) :
    (c.dependencies id).length ≤ (c.dependencyIds id).length := List.length_filterMap_le _ _

/-- **With steps enough, registering follows the search.** -/
theorem registerWaiting_eq (c : Catalog) {fuel : Nat} {visited seen : List Nat}
    {waiting : List Definition} (map : TagMap) (hseen : ∀ i, i ∈ visited ↔ i ∈ seen)
    (hfuel : waiting.length + c.unlisted visited ≤ fuel) :
    ∃ order, c.Visits seen waiting order ∧
      c.registerWaiting fuel visited waiting map = order.foldl registerOne map := by
  induction fuel generalizing visited seen waiting map with
  | zero =>
      obtain rfl : waiting = [] := List.eq_nil_of_length_eq_zero (by omega)
      exact ⟨[], .done, rfl⟩
  | succ fuel ih =>
      cases waiting with
      | nil => exact ⟨[], .done, rfl⟩
      | cons d rest =>
          rw [List.length_cons] at hfuel
          unfold registerWaiting
          by_cases hmet : d.id ∈ visited
          · have hfuel' : rest.length + c.unlisted visited ≤ fuel := by omega
            obtain ⟨order, hvisits, heq⟩ := ih map hseen hfuel'
            rw [if_pos (List.contains_iff_mem.mpr hmet)]
            exact ⟨order, .again ((hseen d.id).mp hmet) hvisits, heq⟩
          · have hunlisted := c.unlisted_cons hmet
            have hdependencies := c.length_dependencies_le d.id
            have hseen' : ∀ i, i ∈ d.id :: visited ↔ i ∈ seen ++ [d.id] := fun i => by
              simp [hseen i, or_comm]
            have hfuel' : (c.dependencies d.id ++ rest).length + c.unlisted (d.id :: visited) ≤
                fuel := by
              rw [List.length_append]
              omega
            obtain ⟨order, hvisits, heq⟩ := ih (registerOne map d) hseen' hfuel'
            -- what waits is searched below the definition first, and then beside it
            obtain ⟨below, after, hbelow, hafter, rfl⟩ := hvisits.split
            rw [if_neg fun hc => hmet (List.contains_iff_mem.mp hc)]
            refine ⟨d :: below ++ after,
              .first (fun hs => hmet ((hseen d.id).mpr hs)) hbelow ?_, heq⟩
            simpa using hafter

/-- Whatever names are known, registering meets the same definitions. -/
theorem exists_visits_register (c : Catalog) (d : Definition) :
    ∃ order, c.Visits [] [d] order ∧ ∀ map, c.register d map = order.foldl registerOne map := by
  have hfuel : [d].length + c.unlisted [] ≤ c.registerFuel := by
    rw [registerFuel_eq, List.length_singleton]
    omega
  have hregister := fun map => c.registerWaiting_eq map (fun _ => Iff.rfl) hfuel
  obtain ⟨order, hvisits, -⟩ := hregister ∅
  refine ⟨order, hvisits, fun map => ?_⟩
  obtain ⟨order', hvisits', heq⟩ := hregister map
  rwa [hvisits.unique hvisits'] at heq

end Catalog

/-! ## The names -/

/-- The definition under its name, if it has one. -/
def Definition.named? (d : Definition) : Option (String × Definition) := d.tagName.map (·, d)

namespace Fields

variable {α : Type}

theorem entries_insertIfNew (f : Fields α) (name : String) (value : α) :
    (f.insertIfNew name value).entries =
      if f.contains name then f.entries else f.entries ++ [(name, value)] := by
  unfold insertIfNew
  split
  · rfl
  · rename_i h
    exact put_of_lookup_eq_none value (by simpa [contains, get?] using h)

theorem get?_insertIfNew (f : Fields α) (name other : String) (value : α) :
    (f.insertIfNew name value).get? other =
      (f.get? other).or (if name = other then some value else none) := by
  unfold insertIfNew
  split
  · rename_i h
    obtain ⟨v, hv⟩ := Option.isSome_iff_exists.mp h
    by_cases hn : name = other
    · rw [← hn, hv]
      rfl
    · rw [if_neg hn, Option.or_none]
  · rename_i h
    rw [get?_insert]
    by_cases hn : name = other
    · subst hn
      have hnone : f.get? name = none := by simpa [contains] using h
      rw [if_pos rfl, if_pos rfl, hnone]
      rfl
    · rw [if_neg hn, if_neg hn, Option.or_none]

theorem contains_iff_mem_names (f : Fields α) (name : String) :
    f.contains name = true ↔ name ∈ f.names := by
  rw [contains, ← Option.ne_none_iff_isSome, get?, ne_eq, lookup_eq_none_iff, not_not]
  rfl

end Fields

namespace Catalog

/-- What is met comes into the map in that order, each name once. -/
theorem entries_foldl_registerOne (order : List Definition) (map : TagMap) :
    ∃ new, (order.foldl registerOne map).entries = map.entries ++ new ∧
      new.Sublist (order.filterMap Definition.named?) := by
  induction order generalizing map with
  | nil => exact ⟨[], by simp, List.Sublist.refl _⟩
  | cons d order ih =>
      obtain ⟨new, hentries, hsub⟩ := ih (registerOne map d)
      rw [List.foldl_cons, hentries, List.filterMap_cons, Definition.named?]
      rcases hname : d.tagName with - | tag <;> simp only [registerOne, hname, Option.map_none,
        Option.map_some]
      · exact ⟨new, rfl, hsub⟩
      · rw [Fields.entries_insertIfNew]
        split
        · exact ⟨new, rfl, hsub.cons _⟩
        · exact ⟨(tag, d) :: new, by simp, hsub.cons_cons _⟩

/-- A name that is known stays, and a new one goes to the first definition met that has it. -/
theorem get?_foldl_registerOne (order : List Definition) (map : TagMap) (tag : String) :
    (order.foldl registerOne map).get? tag =
      (map.get? tag).or (order.find? fun e => e.tagName == some tag) := by
  induction order generalizing map with
  | nil => simp
  | cons d order ih =>
      rw [List.foldl_cons, ih, List.find?_cons, registerOne]
      rcases hname : d.tagName with - | name
      · rfl
      · rw [Fields.get?_insertIfNew, Option.or_assoc]
        by_cases htag : name = tag
        · simp [htag]
        · simp [htag, beq_eq_false_iff_ne.mpr htag]

/-- A name stands for what it stood for, or else for the first definition met that has it. -/
theorem exists_get?_register (c : Catalog) (d : Definition) :
    ∃ order, c.Visits [] [d] order ∧ ∀ (map : TagMap) (tag : String), (c.register d map).get? tag =
      (map.get? tag).or (order.find? fun e => e.tagName == some tag) := by
  obtain ⟨order, hvisits, hregister⟩ := c.exists_visits_register d
  refine ⟨order, hvisits, fun map tag => ?_⟩
  rw [hregister, get?_foldl_registerOne]

/-- If all their names are known, definitions that are met change nothing. -/
theorem foldl_registerOne_of_known {order : List Definition} {map : TagMap}
    (h : ∀ e ∈ order, ∀ tag, e.tagName = some tag → map.contains tag = true) :
    order.foldl registerOne map = map := by
  induction order with
  | nil => rfl
  | cons d order ih =>
      rw [List.forall_mem_cons] at h
      have hd : registerOne map d = map := by
        unfold registerOne
        split
        · rename_i tag htag
          rw [Fields.insertIfNew, if_pos (h.1 tag htag)]
        · rfl
      rw [List.foldl_cons, hd, ih h.2]

end Catalog

/-- Makes definitions known, one after the other, each as its catalog has it. -/
def Session.registerAll (s : Session) (calls : List (Catalog × Definition)) : Session :=
  calls.foldl (fun s call => s.register call.1 call.2) s

theorem Session.lookup_registerAll (s : Session) (calls : List (Catalog × Definition))
    {tag : String} {d : Definition} (h : s.lookup tag = some d) :
    (s.registerAll calls).lookup tag = some d := by
  induction calls generalizing s with
  | nil => exact h
  | cons call calls ih =>
      exact ih _ (Fields.get?_of_prefix (call.1.prefix_register call.2 s.tagMap) h)

namespace Catalog

/-- What registering `d` makes of the known names, if the search from it meets `order`. -/
structure Registers (c : Catalog) (d : Definition) (order : List Definition) (map : TagMap) :
    Prop where
  /-- The names that were known stay as they are, and new ones follow in the order of the search. -/
  entries : ∃ new, (c.registerCounted d map).2.entries = map.entries ++ new ∧
    new.Sublist (order.filterMap Definition.named?) ∧ (c.registerCounted d map).1 = new.length
  /-- A new name stands for the first definition met that has it. -/
  get? : ∀ tag, (c.registerCounted d map).2.get? tag =
    (map.get? tag).or (order.find? fun e => e.tagName == some tag)
  names : ∀ tag, tag ∈ (c.registerCounted d map).2.names ↔
    tag ∈ map.names ∨ ∃ e, Relation.ReflTransGen c.Requires d e ∧ e.tagName = some tag
  /-- To register it again adds nothing. -/
  again : c.registerCounted d (c.registerCounted d map).2 = (0, (c.registerCounted d map).2)

/--
**Registering is a depth-first search in which the first of each name wins.** From a definition of a
catalog there is one search; it meets exactly what can be reached, nothing twice. Whatever names are
known, those that it meets and that are new become known in its order; and however often definitions
are registered on a session, a name that is known keeps its definition.
-/
theorem register_visits {c : Catalog} (hmade : c.Made) {d : Definition}
    (hd : c.get? d.id = some d) :
    (∃ order, c.Visits [] [d] order ∧ (∀ order', c.Visits [] [d] order' → order' = order) ∧
        (∀ e, e ∈ order ↔ Relation.ReflTransGen c.Requires d e) ∧
        (order.map (·.id)).Nodup ∧ ∀ map, c.Registers d order map) ∧
      ∀ (s : Session) (calls : List (Catalog × Definition)) (tag : String) (x : Definition),
        s.lookup tag = some x → (s.registerAll calls).lookup tag = some x := by
  refine ⟨?_, fun s calls tag x hx => s.lookup_registerAll calls hx⟩
  obtain ⟨order, hvisits, hregister⟩ := c.exists_visits_register d
  have hregister : ∀ map, (c.registerCounted d map).2 = order.foldl registerOne map := hregister
  have hmem := Visits.mem_iff hmade hd hvisits
  refine ⟨order, hvisits, fun _ => hvisits.unique, hmem, hvisits.nodup.1, fun map => ?_⟩
  have hget : ∀ tag, (c.registerCounted d map).2.get? tag =
      (map.get? tag).or (order.find? fun e => e.tagName == some tag) := by
    intro tag
    rw [hregister, get?_foldl_registerOne]
  have hnames : ∀ tag, tag ∈ (c.registerCounted d map).2.names ↔
      tag ∈ map.names ∨ ∃ e ∈ order, e.tagName = some tag := by
    intro tag
    rw [← Fields.contains_iff_mem_names, Fields.contains, hget, Option.isSome_or, Bool.or_eq_true,
      List.find?_isSome, ← Fields.contains, Fields.contains_iff_mem_names]
    simp
  refine ⟨?_, hget, fun tag => ?_, ?_⟩
  · obtain ⟨new, hentries, hsub⟩ := entries_foldl_registerOne order map
    rw [← hregister] at hentries
    refine ⟨new, hentries, hsub, ?_⟩
    change (c.registerCounted d map).2.entries.length - map.entries.length = new.length
    rw [hentries, List.length_append]
    omega
  · simp only [hnames, hmem]
  · have hsame : (c.registerCounted d (c.registerCounted d map).2).2 =
        (c.registerCounted d map).2 := by
      rw [hregister (c.registerCounted d map).2]
      refine foldl_registerOne_of_known fun e he tag htag => ?_
      rw [Fields.contains_iff_mem_names, hnames]
      exact .inr ⟨e, he, htag⟩
    refine Prod.ext ?_ hsame
    change (c.registerCounted d (c.registerCounted d map).2).2.size -
      (c.registerCounted d map).2.size = 0
    rw [hsame, Nat.sub_self]

end Catalog

namespace Sample

def bare (id : Nat) (tagName : Option String) : Definition :=
  ⟨id, tagName, none, [], ⟨[], ⟨false, false, false⟩⟩⟩

/-- A nameless definition with two sides, one of which leads back to it. Two share a name. -/
def hedge : Catalog :=
  (((Catalog.empty.add (bare 0 none) (some [1, 2])).add (bare 1 (some "x-left")) (some [3, 0])).add
    (bare 2 (some "x-right")) (some [3])).add (bare 3 (some "x-left")) (some [3])

end Sample

open Sample Catalog in
theorem Catalog.register_visits_hedge :
    hedge.Made ∧ hedge.get? (bare 0 none).id = some (bare 0 none) ∧
      hedge.Registers (bare 0 none)
        [bare 0 none, bare 1 (some "x-left"), bare 3 (some "x-left"), bare 2 (some "x-right")] ∅ ∧
      (hedge.registerCounted (bare 0 none) ∅).1 = 2 ∧
      (hedge.registerCounted (bare 0 none) ∅).2.entries =
        [("x-left", bare 1 (some "x-left")), ("x-right", bare 2 (some "x-right"))] := by
  have hmade : hedge.Made := .add _ _ (.add _ _ (.add _ _ (.add _ _ .empty)))
  have hroot : hedge.get? (bare 0 none).id = some (bare 0 none) := rfl
  obtain ⟨⟨order, -, hunique, -, -, hregisters⟩, -⟩ := Catalog.register_visits hmade hroot
  have hloop : hedge.Visits [0, 1, 3] [bare 3 (some "x-left")] [] := .again (by decide) .done
  have hback : hedge.Visits [0, 1, 3] [bare 0 none] [] := .again (by decide) .done
  have hmet : hedge.Visits [0, 1, 3, 2] [bare 3 (some "x-left")] [] := .again (by decide) .done
  have hleft : hedge.Visits [0, 1] [bare 3 (some "x-left"), bare 0 none]
      [bare 3 (some "x-left")] := @Visits.first _ _ _ _ [] [] (by decide) hloop hback
  have hright : hedge.Visits [0, 1, 3] [bare 2 (some "x-right")] [bare 2 (some "x-right")] :=
    @Visits.first _ _ _ _ [] [] (by decide) hmet .done
  have hsides : hedge.Visits [0] [bare 1 (some "x-left"), bare 2 (some "x-right")]
      [bare 1 (some "x-left"), bare 3 (some "x-left"), bare 2 (some "x-right")] :=
    @Visits.first _ _ _ _ [_] [_] (by decide) hleft hright
  have hvisits : hedge.Visits [] [bare 0 none] [bare 0 none, bare 1 (some "x-left"),
      bare 3 (some "x-left"), bare 2 (some "x-right")] :=
    @Visits.first _ _ _ _ [_, _, _] [] (by decide) hsides .done
  rw [← hunique _ hvisits] at hregisters
  exact ⟨hmade, hroot, hregisters ∅, rfl, rfl⟩

end CustomElements
