/-!
# Fields: an ordered map from names to values

Attributes, properties and registered tag names are all kept in the order in which their names
first appeared. Writing a name that is already there changes its value and moves nothing; a new
name goes to the end. That no name occurs twice is part of the type.
-/

namespace CustomElements

/-- An ordered map: a list of named values in which no name occurs twice. -/
structure Fields (α : Type) where
  /-- The entries in order of first insertion. -/
  entries : List (String × α)
  /-- Names are distinct. -/
  nodup : (entries.map Prod.fst).Nodup

namespace Fields

variable {α β : Type}

/-- No entries. -/
def empty : Fields α := ⟨[], by simp⟩

instance : EmptyCollection (Fields α) := ⟨empty⟩

instance : Inhabited (Fields α) := ⟨empty⟩

instance [DecidableEq α] : DecidableEq (Fields α) := fun f g =>
  if h : f.entries = g.entries then
    .isTrue (by cases f; cases g; simp at h; subst h; rfl)
  else
    .isFalse (fun e => h (e ▸ rfl))

/-- The names in order. -/
def names (f : Fields α) : List String := f.entries.map Prod.fst

/-- The values in the order of their names. -/
def values (f : Fields α) : List α := f.entries.map Prod.snd

/-- The number of entries. -/
def size (f : Fields α) : Nat := f.entries.length

/-- There are no entries. -/
def isEmpty (f : Fields α) : Bool := f.entries.isEmpty

/-- The first value stored under `name`. -/
def lookup (name : String) : List (String × α) → Option α
  | [] => none
  | (n, v) :: rest => if n = name then some v else lookup name rest

/-- The value of `name`. -/
def get? (f : Fields α) (name : String) : Option α := lookup name f.entries

/-- The name has a value. -/
def contains (f : Fields α) (name : String) : Bool := (f.get? name).isSome

/-- Writes a value over the one of the same name, or at the end. -/
def put (name : String) (value : α) : List (String × α) → List (String × α)
  | [] => [(name, value)]
  | (n, v) :: rest => if n = name then (n, value) :: rest else (n, v) :: put name value rest

theorem map_fst_put (name : String) (value : α) (l : List (String × α)) :
    (put name value l).map Prod.fst =
      if name ∈ l.map Prod.fst then l.map Prod.fst else l.map Prod.fst ++ [name] := by
  induction l with
  | nil => simp [put]
  | cons e l ih =>
    obtain ⟨n, v⟩ := e
    by_cases h : n = name
    · simp [put, h]
    · have h' : ¬ name = n := fun e => h e.symm
      simp only [put, if_neg h, List.map_cons, ih, List.mem_cons, h', false_or]
      split <;> simp

theorem nodup_put {l : List (String × α)} (name : String) (value : α)
    (h : (l.map Prod.fst).Nodup) : ((put name value l).map Prod.fst).Nodup := by
  rw [map_fst_put]
  split
  · exact h
  · rename_i hn
    rw [List.nodup_append]
    refine ⟨h, by simp, ?_⟩
    intro a ha b hb
    simp only [List.mem_singleton] at hb
    exact fun e => hn (hb ▸ e ▸ ha)

/-- Sets the value of a name. A known name keeps its position, a new one goes to the end. -/
def insert (f : Fields α) (name : String) (value : α) : Fields α :=
  ⟨put name value f.entries, nodup_put name value f.nodup⟩

/-- Sets the value of a name that has none. -/
def insertIfNew (f : Fields α) (name : String) (value : α) : Fields α :=
  if f.contains name then f else f.insert name value

/-- Takes a name out; the names after it move up. -/
def erase (f : Fields α) (name : String) : Fields α :=
  ⟨f.entries.filter (fun e => e.1 != name),
    f.nodup.sublist (List.filter_sublist.map Prod.fst)⟩

/-- Sets several values, one after the other. -/
def insertMany (f : Fields α) (l : List (String × α)) : Fields α :=
  l.foldl (fun f e => f.insert e.1 e.2) f

/-- The fields given by a list of pairs: a later value of a name replaces an earlier one. -/
def ofList (l : List (String × α)) : Fields α := empty.insertMany l

/-- The second map written over the first. -/
def union (f g : Fields α) : Fields α := f.insertMany g.entries

/-- Changes every value and no name. -/
def map (h : α → β) (f : Fields α) : Fields β :=
  ⟨f.entries.map fun e => (e.1, h e.2), by
    have : (f.entries.map fun e => (e.1, h e.2)).map Prod.fst = f.entries.map Prod.fst := by
      simp [Function.comp_def]
    rw [this]; exact f.nodup⟩

/-- Both maps give every name the same value; the order of the names does not matter. -/
def equiv [BEq α] (f g : Fields α) : Bool :=
  f.size == g.size && f.entries.all fun e => match g.get? e.1 with
    | some v => e.2 == v
    | none => false

@[simp] theorem names_insert (f : Fields α) (name : String) (value : α) :
    (f.insert name value).names = if name ∈ f.names then f.names else f.names ++ [name] :=
  map_fst_put name value f.entries

theorem lookup_put (name other : String) (value : α) (l : List (String × α)) :
    lookup other (put name value l) = if name = other then some value else lookup other l := by
  induction l with
  | nil => simp [put, lookup]
  | cons e l ih =>
    obtain ⟨n, v⟩ := e
    by_cases h : n = name
    · subst h
      by_cases h' : n = other <;> simp [put, lookup, h']
    · by_cases h' : n = other
      · subst h'
        simp [put, lookup, h, Ne.symm h]
      · simp [put, lookup, h, h', ih]

theorem mem_of_lookup_eq_some {name : String} {value : α} {l : List (String × α)}
    (h : lookup name l = some value) : (name, value) ∈ l := by
  induction l with
  | nil => simp [lookup] at h
  | cons e l ih =>
    obtain ⟨n, v⟩ := e
    by_cases hn : n = name
    · simp only [lookup, if_pos hn, Option.some.injEq] at h
      simp [hn, h]
    · simp only [lookup, if_neg hn] at h
      exact List.mem_cons_of_mem _ (ih h)

/-- The value of a name is one of the values. -/
theorem mem_values_of_get? {f : Fields α} {name : String} {value : α}
    (h : f.get? name = some value) : value ∈ f.values :=
  List.mem_map.mpr ⟨(name, value), mem_of_lookup_eq_some h, rfl⟩

theorem put_of_lookup_eq_none {name : String} (value : α) {l : List (String × α)}
    (h : lookup name l = none) : put name value l = l ++ [(name, value)] := by
  induction l with
  | nil => rfl
  | cons e l ih =>
    obtain ⟨n, v⟩ := e
    by_cases hn : n = name
    · simp [lookup, hn] at h
    · simp only [lookup, if_neg hn] at h
      simp [put, hn, ih h]

theorem lookup_append_of_eq_some {name : String} {value : α} {l : List (String × α)}
    (m : List (String × α)) (h : lookup name l = some value) :
    lookup name (l ++ m) = some value := by
  induction l with
  | nil => simp [lookup] at h
  | cons e l ih =>
    obtain ⟨n, v⟩ := e
    by_cases hn : n = name
    · simpa [lookup, hn] using h
    · simp only [lookup, if_neg hn] at h
      simpa [lookup, hn] using ih h

/-- A name that has a value keeps it when entries are added at the end. -/
theorem get?_of_prefix {f g : Fields α} {name : String} {value : α} (h : f.entries <+: g.entries)
    (hf : f.get? name = some value) : g.get? name = some value := by
  obtain ⟨m, hm⟩ := h
  rw [get?, ← hm]
  exact lookup_append_of_eq_some m hf

/-- A name that is new goes to the end, and one that has a value changes nothing. -/
theorem prefix_insertIfNew (f : Fields α) (name : String) (value : α) :
    f.entries <+: (f.insertIfNew name value).entries := by
  unfold insertIfNew
  split
  · exact List.prefix_refl _
  · rename_i h
    have hn : lookup name f.entries = none := by simpa [contains, get?] using h
    exact ⟨[(name, value)], (put_of_lookup_eq_none value hn).symm⟩

theorem mem_put {name : String} {value : α} {l : List (String × α)} {e : String × α}
    (h : e ∈ put name value l) : e = (name, value) ∨ e ∈ l := by
  induction l with
  | nil => exact .inl (List.mem_singleton.mp h)
  | cons e' l ih =>
    obtain ⟨n, v⟩ := e'
    by_cases hn : n = name
    · simp only [put, if_pos hn, List.mem_cons] at h
      rcases h with rfl | h
      · exact .inl (by rw [hn])
      · exact .inr (List.mem_cons_of_mem _ h)
    · simp only [put, if_neg hn, List.mem_cons] at h
      rcases h with rfl | h
      · exact .inr List.mem_cons_self
      · exact (ih h).imp id (List.mem_cons_of_mem _)

theorem mem_names_insertMany (f : Fields α) (l : List (String × α)) (name : String) :
    name ∈ (f.insertMany l).names ↔ name ∈ f.names ∨ name ∈ l.map Prod.fst := by
  induction l generalizing f with
  | nil => simp [insertMany]
  | cons e l ih =>
    rw [insertMany, List.foldl_cons, ← insertMany, ih, names_insert, List.map_cons, List.mem_cons]
    split
    · rename_i h
      constructor
      · exact Or.imp_right .inr
      · rintro (h' | rfl | h')
        · exact .inl h'
        · exact .inl h
        · exact .inr h'
    · rw [List.mem_append, List.mem_singleton, or_assoc]

/-- The names of a list of pairs are the names of its map. -/
theorem mem_names_ofList (l : List (String × α)) (name : String) :
    name ∈ (ofList l).names ↔ name ∈ l.map Prod.fst := by
  rw [ofList, mem_names_insertMany]
  simp [names, empty]

/-- A map whose list gives each name the value of a function is that function on its names. -/
theorem values_ofList_map (g : String → α) (l : List String) :
    (ofList (l.map fun name => (name, g name))).values =
      (ofList (l.map fun name => (name, g name))).names.map g := by
  have h : ∀ (l : List String) (f : Fields α), (∀ e ∈ f.entries, e.2 = g e.1) →
      ∀ e ∈ (f.insertMany (l.map fun name => (name, g name))).entries, e.2 = g e.1 := by
    intro l
    induction l with
    | nil => exact fun f hf => hf
    | cons name l ih =>
      intro f hf
      refine ih (f.insert name (g name)) fun e he => ?_
      rcases mem_put he with rfl | he
      · rfl
      · exact hf e he
  rw [values, names, List.map_map]
  exact List.map_congr_left (h l empty (by simp [empty]))

/-- The values of a map are that of one name and those of all others. -/
theorem perm_values_erase (f : Fields α) (name : String) :
    ((f.get? name).toList ++ (f.erase name).values).Perm f.values := by
  obtain ⟨l, hl⟩ := f
  simp only [get?, erase, values]
  induction l with
  | nil => exact .refl _
  | cons e l ih =>
    obtain ⟨n, v⟩ := e
    rw [List.map_cons, List.nodup_cons] at hl
    by_cases hn : n = name
    · have hrest : l.filter (fun e => e.1 != name) = l := by
        rw [List.filter_eq_self]
        intro e he
        rw [bne_iff_ne]
        rintro rfl
        exact hl.1 (List.mem_map.mpr ⟨e, he, hn.symm⟩)
      simp [lookup, hn, hrest]
    · have hi := ih hl.2
      simp only [lookup, if_neg hn, List.filter_cons, bne_iff_ne.mpr hn, if_true, List.map_cons]
      exact List.perm_middle.trans (hi.cons v)

@[simp] theorem get?_insert (f : Fields α) (name other : String) (value : α) :
    (f.insert name value).get? other = if name = other then some value else f.get? other :=
  lookup_put name other value f.entries

/-- A name that was taken out has no value; the others keep theirs. -/
theorem get?_erase (f : Fields α) (name other : String) :
    (f.erase name).get? other = if name = other then none else f.get? other := by
  obtain ⟨l, hl⟩ := f
  simp only [get?, erase]
  clear hl
  induction l with
  | nil => simp [lookup]
  | cons e l ih =>
    obtain ⟨n, v⟩ := e
    by_cases hn : n = name
    · rw [List.filter_cons_of_neg (by simp [hn]), ih, lookup, hn]
      split <;> rfl
    · by_cases ho : n = other
      · subst ho
        simp [lookup, hn, Ne.symm hn]
      · simp [lookup, ih, hn, ho]

/-- A map whose list gives each name the value of a function has that value for its names. -/
theorem get?_ofList_map (g : String → α) (l : List String) (name : String) :
    (ofList (l.map fun name => (name, g name))).get? name =
      if name ∈ l then some (g name) else none := by
  have h : ∀ (l : List String) (f : Fields α),
      (f.insertMany (l.map fun name => (name, g name))).get? name =
        if name ∈ l then some (g name) else f.get? name := by
    intro l
    induction l with
    | nil => simp [insertMany]
    | cons n l ih =>
      intro f
      rw [List.map_cons, insertMany, List.foldl_cons, ← insertMany, ih, get?_insert]
      by_cases hl : name ∈ l
      · simp [hl]
      · by_cases hn : n = name
        · simp [hl, hn]
        · simp [hl, hn, Ne.symm hn]
  rw [ofList, h]
  rfl

theorem lookup_eq_none_iff {name : String} {l : List (String × α)} :
    lookup name l = none ↔ name ∉ l.map Prod.fst := by
  induction l with
  | nil => simp [lookup]
  | cons e l ih =>
    obtain ⟨n, v⟩ := e
    by_cases hn : n = name
    · simp [lookup, hn]
    · simp [lookup, hn, Ne.symm hn, ih]

theorem entries_insertMany {f : Fields α} {l : List (String × α)}
    (h : (f.names ++ l.map Prod.fst).Nodup) : (f.insertMany l).entries = f.entries ++ l := by
  induction l generalizing f with
  | nil => exact (List.append_nil _).symm
  | cons e l ih =>
    have hnew : e.1 ∉ f.names := by
      intro he
      exact (List.nodup_append.mp h).2.2 e.1 he e.1 (by simp) rfl
    have hput : (f.insert e.1 e.2).entries = f.entries ++ [e] :=
      put_of_lookup_eq_none e.2 (lookup_eq_none_iff.mpr hnew)
    have hnames : (f.insert e.1 e.2).names = f.names ++ [e.1] := by
      rw [names_insert, if_neg hnew]
    rw [insertMany, List.foldl_cons, ← insertMany, ih (by simpa [hnames] using h), hput]
    simp

/-- Names that are distinct make a map of their list as it is. -/
theorem entries_ofList {l : List (String × α)} (h : (l.map Prod.fst).Nodup) :
    (ofList l).entries = l :=
  entries_insertMany (by simpa [names, empty] using h)

theorem lookup_append (name : String) (l m : List (String × α)) :
    lookup name (l ++ m) = (lookup name l).or (lookup name m) := by
  induction l with
  | nil => rfl
  | cons e l ih =>
    obtain ⟨n, v⟩ := e
    by_cases hn : n = name <;> simp [lookup, hn, ih]

/-- Of several values of a name the last one stays. -/
theorem get?_insertMany (f : Fields α) (l : List (String × α)) (name : String) :
    (f.insertMany l).get? name = (lookup name l.reverse).or (f.get? name) := by
  induction l generalizing f with
  | nil => rfl
  | cons e l ih =>
    obtain ⟨n, v⟩ := e
    rw [insertMany, List.foldl_cons, ← insertMany, ih, get?_insert, List.reverse_cons,
      lookup_append, Option.or_assoc]
    by_cases hn : n = name <;> simp [lookup, hn]

theorem lookup_eq_some_iff {name : String} {value : α} {l : List (String × α)}
    (h : (l.map Prod.fst).Nodup) : lookup name l = some value ↔ (name, value) ∈ l := by
  refine ⟨mem_of_lookup_eq_some, fun hmem => ?_⟩
  induction l with
  | nil => simp at hmem
  | cons e l ih =>
    obtain ⟨n, v⟩ := e
    rw [List.map_cons, List.nodup_cons] at h
    rcases List.mem_cons.mp hmem with heq | hmem
    · obtain ⟨rfl, rfl⟩ := Prod.mk.inj heq
      simp [lookup]
    · have hn : n ≠ name := by
        rintro rfl
        exact h.1 (List.mem_map.mpr ⟨(n, value), hmem, rfl⟩)
      simp [lookup, hn, ih h.2 hmem]

/-- The second map decides wherever it has a value. -/
theorem get?_union (f g : Fields α) (name : String) :
    (f.union g).get? name = (g.get? name).or (f.get? name) := by
  have hreverse : lookup name g.entries.reverse = lookup name g.entries := by
    refine Option.ext fun v => ?_
    have hnodup : (g.entries.reverse.map Prod.fst).Nodup :=
      ((List.reverse_perm g.entries).map Prod.fst).nodup_iff.mpr g.nodup
    rw [lookup_eq_some_iff hnodup, lookup_eq_some_iff g.nodup,
      List.mem_reverse]
  rw [union, get?_insertMany, hreverse]
  rfl

theorem get?_map (h : α → β) (f : Fields α) (name : String) :
    (f.map h).get? name = (f.get? name).map h := by
  obtain ⟨l, hl⟩ := f
  simp only [get?, map]
  clear hl
  induction l with
  | nil => rfl
  | cons e l ih =>
    obtain ⟨n, v⟩ := e
    by_cases hn : n = name <;> simp [lookup, hn, ih]

end Fields

end CustomElements
