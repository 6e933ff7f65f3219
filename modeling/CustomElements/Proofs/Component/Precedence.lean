import CustomElements.Proofs.Component.HostAttributes

/-!
# Which source has the say

What templates see and what the host carries are put together from sources that may use the same
names, and within one source a name may come up more than once. A prop comes from the last
declaration of it that has a value, else from the caller's attributes, else it is the language. An
attribute of the host is the one that the instance set on itself, else the one written back by the
last declaration that has something to write back, else the caller's
(`Instance.hostAttributes_precedence`).

The order of the host's attributes is that in which their names first come up in the sources. For
the attributes that an instance sets on itself, and may remove and set again, this is the order of
the calls that *open* them: that set them for the first time since they were last removed.
-/

namespace CustomElements

/-! ## The order of names -/

namespace Fields

variable {α : Type}

theorem mem_names_iff (f : Fields α) (name : String) :
    name ∈ f.names ↔ (f.get? name).isSome = true := by
  rw [get?, ← Option.ne_none_iff_isSome, ne_eq, lookup_eq_none_iff, not_not, names]

theorem names_erase (f : Fields α) (name : String) :
    (f.erase name).names = f.names.filter (· != name) := by
  rw [names, erase, names, List.filter_map]
  rfl

/-- New names follow the old ones, each where it comes up first. -/
theorem names_insertMany (f : Fields α) (l : List (String × α)) :
    (f.insertMany l).names =
      f.names ++ ((l.map Prod.fst).filter (· ∉ f.names)).eraseDups := by
  induction l generalizing f with
  | nil => simp [insertMany]
  | cons e l ih =>
      rw [insertMany, List.foldl_cons, ← insertMany, ih, names_insert, List.map_cons]
      by_cases h : e.1 ∈ f.names
      · rw [if_pos h, List.filter_cons_of_neg (by simpa using h)]
      · rw [if_neg h, List.filter_cons_of_pos (by simpa using h), List.eraseDups_cons,
          List.filter_filter, List.append_assoc, List.singleton_append]
        congr 3
        refine List.filter_congr fun a _ => ?_
        by_cases ha : a = e.1 <;> simp [ha]

theorem eraseDups_of_nodup {l : List String} (h : l.Nodup) : l.eraseDups = l := by
  induction l with
  | nil => rfl
  | cons a l ih =>
      rw [List.nodup_cons] at h
      have hrest : (l.filter fun b => !b == a) = l :=
        List.filter_eq_self.mpr fun b hb => by
          have hne : b ≠ a := fun e => h.1 (e ▸ hb)
          simpa using hne
      rw [List.eraseDups_cons, hrest, ih h.2]

theorem names_ofList (l : List (String × α)) : (ofList l).names = (l.map Prod.fst).eraseDups := by
  have hall : (l.map Prod.fst).filter (· ∉ (empty : Fields α).names) = l.map Prod.fst :=
    List.filter_eq_self.mpr fun a _ => by simp [names, empty]
  rw [ofList, names_insertMany, hall]
  rfl

theorem names_union (f g : Fields α) :
    (f.union g).names = f.names ++ g.names.filter (· ∉ f.names) := by
  rw [union, names_insertMany, eraseDups_of_nodup (g.nodup.filter _)]
  rfl

end Fields

/-! ## What an instance does to its attributes -/

/-- A call by which an instance changes the attributes that it set on itself. -/
inductive AttributeCall where
  | set (name value : String)
  | remove (name : String)
  deriving DecidableEq

namespace AttributeCall

/-- The attribute that the call is about. -/
def name : AttributeCall → String
  | .set name _ => name
  | .remove name => name

/-- What the attribute is after the call. -/
def value? : AttributeCall → Option String
  | .set _ value => some value
  | .remove _ => none

/-- The instance after the call. -/
def apply (i : Instance) : AttributeCall → Instance
  | .set name value => i.setAttribute name value
  | .remove name => i.removeAttribute name

end AttributeCall

/-- The instance after the calls, one after the other. -/
def Instance.after (i : Instance) (calls : List AttributeCall) : Instance :=
  calls.foldl AttributeCall.apply i

/-- What the attribute is after the calls: what the last call about it made it. -/
def ownValue? (calls : List AttributeCall) (name : String) : Option String :=
  ((calls.filter (·.name == name)).getLast?).bind AttributeCall.value?

/-- The call with number `k` sets the attribute for the first time since it was last removed. -/
structure Opens (calls : List AttributeCall) (name : String) (k : Nat) : Prop where
  sets : ∃ value, calls[k]? = some (.set name value)
  /-- The attribute is not removed afterwards. -/
  stays : ∀ j, k < j → calls[j]? ≠ some (.remove name)
  /-- Wherever it was set before, it was removed in between. -/
  first : ∀ j < k, ∀ value, calls[j]? = some (.set name value) →
    ∃ r, j < r ∧ r < k ∧ calls[r]? = some (.remove name)

/-- The call that opens the one attribute comes before the call that opens the other. -/
def OpensBefore (calls : List AttributeCall) (a b : String) : Prop :=
  ∃ j k, j < k ∧ Opens calls a j ∧ Opens calls b k

section Calls

variable {calls : List AttributeCall} {c : AttributeCall} {name : String} {k : Nat}

theorem ownValue?_concat (calls : List AttributeCall) (c : AttributeCall) (name : String) :
    ownValue? (calls ++ [c]) name = if c.name = name then c.value? else ownValue? calls name := by
  rw [ownValue?, List.filter_append]
  by_cases h : c.name = name
  · simp [h]
  · simp [h, ownValue?]

/-- An attribute that is not there was removed after it was last set. -/
theorem exists_removal (hnone : ownValue? calls name = none) {value : String}
    (hk : calls[k]? = some (.set name value)) : ∃ r, k < r ∧ calls[r]? = some (.remove name) := by
  induction calls using List.reverseRecOn with
  | nil => simp at hk
  | append_singleton calls c ih =>
      have hlt : k < calls.length + 1 := by
        simpa using (List.getElem?_eq_some_iff.mp hk).1
      rw [ownValue?_concat] at hnone
      -- the last call about the attribute removed it: this one, or one before it
      by_cases hc : c.name = name
      · rw [if_pos hc] at hnone
        cases c with
        | set n v => cases hnone
        | remove n =>
            obtain rfl : n = name := hc
            rcases Nat.lt_succ_iff_lt_or_eq.mp hlt with h | rfl
            · exact ⟨calls.length, h, List.getElem?_concat_length⟩
            · rw [List.getElem?_concat_length] at hk
              cases hk
      · rw [if_neg hc] at hnone
        rcases Nat.lt_succ_iff_lt_or_eq.mp hlt with h | rfl
        · rw [List.getElem?_append_left h] at hk
          obtain ⟨r, hkr, hr⟩ := ih hnone hk
          have hrlt := (List.getElem?_eq_some_iff.mp hr).1
          exact ⟨r, hkr, by rw [List.getElem?_append_left hrlt, hr]⟩
        · rw [List.getElem?_concat_length] at hk
          cases hk
          exact absurd rfl hc

theorem Opens.lt (h : Opens calls name k) : k < calls.length := by
  obtain ⟨value, hvalue⟩ := h.sets
  exact (List.getElem?_eq_some_iff.mp hvalue).1

/-- What opens an attribute still does after a call that does not remove it. -/
theorem Opens.concat (h : Opens calls name k) (hc : c ≠ .remove name) :
    Opens (calls ++ [c]) name k := by
  have hk := h.lt
  obtain ⟨value, hvalue⟩ := h.sets
  refine ⟨⟨value, by rw [List.getElem?_append_left hk, hvalue]⟩, fun j hj hremove => ?_,
    fun j hj v hset => ?_⟩
  · rcases Nat.lt_trichotomy j calls.length with hlt | rfl | hlt
    · exact h.stays j hj (by rwa [List.getElem?_append_left hlt] at hremove)
    · rw [List.getElem?_concat_length, Option.some.injEq] at hremove
      exact hc hremove
    · have := (List.getElem?_eq_some_iff.mp hremove).1
      rw [List.length_append, List.length_singleton] at this
      omega
  · rw [List.getElem?_append_left (Nat.lt_trans hj hk)] at hset
    obtain ⟨r, hjr, hrk, hr⟩ := h.first j hj v hset
    exact ⟨r, hjr, hrk, by rw [List.getElem?_append_left (Nat.lt_trans hrk hk), hr]⟩

/-- A call opens an attribute that is not there. -/
theorem opens_length (hnone : ownValue? calls name = none) (value : String) :
    Opens (calls ++ [.set name value]) name calls.length := by
  refine ⟨⟨value, List.getElem?_concat_length⟩, fun j hj hremove => ?_, fun j hj v hset => ?_⟩
  · have := (List.getElem?_eq_some_iff.mp hremove).1
    rw [List.length_append, List.length_singleton] at this
    omega
  · rw [List.getElem?_append_left hj] at hset
    obtain ⟨r, hjr, hr⟩ := exists_removal hnone hset
    have hrlt := (List.getElem?_eq_some_iff.mp hr).1
    exact ⟨r, hjr, hrlt, by rw [List.getElem?_append_left hrlt, hr]⟩

end Calls

/-! ## Names in the order of the calls -/

/-- The names stand in the order of the calls that open their attributes. -/
structure InOrder (calls : List AttributeCall) (names : List String) : Prop where
  opened : ∀ name ∈ names, ∃ k, Opens calls name k
  pairwise : names.Pairwise (OpensBefore calls)

section InOrder

variable {calls : List AttributeCall} {c : AttributeCall} {names : List String}

theorem InOrder.concat (h : InOrder calls names) (hc : ∀ name ∈ names, c ≠ .remove name) :
    InOrder (calls ++ [c]) names := by
  refine ⟨fun name hname => ?_, h.pairwise.imp_of_mem fun ha hb hab => ?_⟩
  · obtain ⟨k, hk⟩ := h.opened name hname
    exact ⟨k, hk.concat (hc name hname)⟩
  · obtain ⟨j, k, hjk, hj, hk⟩ := hab
    exact ⟨j, k, hjk, hj.concat (hc _ ha), hk.concat (hc _ hb)⟩

theorem InOrder.set (h : InOrder calls names) {name : String}
    (hnone : ownValue? calls name = none) (value : String) :
    InOrder (calls ++ [.set name value]) (names ++ [name]) := by
  have hold : InOrder (calls ++ [.set name value]) names := h.concat fun _ _ => nofun
  have hnew := opens_length hnone value
  refine ⟨List.forall_mem_append.mpr
    ⟨hold.opened, List.forall_mem_singleton.mpr ⟨calls.length, hnew⟩⟩,
    List.pairwise_append.mpr ⟨hold.pairwise, List.pairwise_singleton _ _, fun a ha b hb => ?_⟩⟩
  obtain ⟨k, hk⟩ := h.opened a ha
  rw [List.mem_singleton.mp hb]
  exact ⟨k, calls.length, hk.lt, hk.concat nofun, hnew⟩

theorem InOrder.remove (h : InOrder calls names) (name : String) :
    InOrder (calls ++ [.remove name]) (names.filter (· != name)) := by
  have hkept : InOrder calls (names.filter (· != name)) :=
    ⟨fun a ha => h.opened a (List.mem_filter.mp ha).1, h.pairwise.filter _⟩
  refine hkept.concat fun a ha heq => ?_
  cases heq
  simp at ha

end InOrder

namespace Instance

theorem after_concat (i : Instance) (calls : List AttributeCall) (c : AttributeCall) :
    i.after (calls ++ [c]) = c.apply (i.after calls) := by
  rw [after, List.foldl_append]
  rfl

/-- The calls change nothing but the attributes that the instance set on itself. -/
theorem after_eq (i : Instance) (calls : List AttributeCall) :
    i.after calls = { i with ownAttributes := (i.after calls).ownAttributes } := by
  induction calls using List.reverseRecOn with
  | nil => rfl
  | append_singleton calls c ih =>
      rw [after_concat]
      cases c <;> rw [AttributeCall.apply, ih] <;> rfl

variable {i : Instance} {calls : List AttributeCall}

theorem get?_ownAttributes_after (h : i.ownAttributes = ∅) (calls : List AttributeCall)
    (name : String) : (i.after calls).ownAttributes.get? name = ownValue? calls name := by
  induction calls using List.reverseRecOn with
  | nil => rw [after, List.foldl_nil, h]; rfl
  | append_singleton calls c ih =>
      rw [after_concat, ownValue?_concat, ← ih]
      cases c with
      | set n v => exact Fields.get?_insert _ n name v
      | remove n => exact Fields.get?_erase _ n name

theorem inOrder_ownAttributes_after (h : i.ownAttributes = ∅) (calls : List AttributeCall) :
    InOrder calls (i.after calls).ownAttributes.names := by
  induction calls using List.reverseRecOn with
  | nil =>
      have hnames : (i.after []).ownAttributes.names = [] := by rw [after, List.foldl_nil, h]; rfl
      rw [hnames]
      exact ⟨fun name hname => absurd hname List.not_mem_nil, .nil⟩
  | append_singleton calls c ih =>
      rw [after_concat]
      cases c with
      | set n v =>
          rw [AttributeCall.apply, setAttribute, Fields.names_insert]
          split_ifs with hn
          -- an attribute that is set again stays where it is
          · exact ih.concat fun _ _ => nofun
          · refine ih.set ?_ v
            rw [Fields.mem_names_iff, get?_ownAttributes_after h] at hn
            exact Option.not_isSome_iff_eq_none.mp hn
      | remove n =>
          rw [AttributeCall.apply, removeAttribute, Fields.names_erase]
          exact ih.remove n

end Instance

/-! ## The sources of the host's attributes -/

/-- The declarations that have something to write back. -/
def Interface.reflecting (i : Interface) (props : Props) : List Property :=
  if i.capabilities.reflect then
    i.properties.filter fun p => p.reflect && (props.get? p.name).isSome
  else []

namespace Instance

/-- A prop is declared, or one of the caller's attributes, or the language. -/
theorem get?_visibleProps_eq (interface : Interface) (attributes : Props) (lang name : String) :
    (visibleProps interface attributes lang).get? name =
      ((supplier? interface.properties attributes name).bind (declaredValue? attributes)).or
        ((attributes.get? name).or
          (if interface.capabilities.i18n ∧ name = "lang" then some (.string lang) else none)) := by
  rw [visibleProps, ← Option.or_assoc, ← get?_declaredProps]
  by_cases hcan : interface.capabilities.i18n = true
  · rw [if_pos hcan, Fields.insertIfNew]
    split_ifs with hknown hname hname
    · rw [hname.2, Option.or_of_isSome hknown]
    · rw [Option.or_none]
    · rw [hname.2, Fields.get?_insert, if_pos rfl,
        Option.not_isSome_iff_eq_none.mp hknown]
      rfl
    · rw [Fields.get?_insert, if_neg fun heq => hname ⟨hcan, heq.symm⟩, Option.or_none]
  · rw [if_neg hcan, if_neg fun h => hcan h.1, Option.or_none]

theorem names_reflectedAttributes (i : Instance) :
    i.reflectedAttributes.names =
      ((i.interface.reflecting i.props).map (·.attributeName)).eraseDups := by
  rw [reflectedAttributes, Interface.reflecting]
  split_ifs
  · rw [Fields.names_ofList]
    congr 1
    induction i.interface.properties with
    | nil => rfl
    | cons p properties ih =>
        rcases hreflect : p.reflect with - | -
        · simpa [hreflect] using ih
        · rcases hvalue : i.props.get? p.name with - | v <;> simpa [hreflect, hvalue] using ih
  · rfl

theorem get?_reflectedAttributes (i : Instance) (name : String) :
    i.reflectedAttributes.get? name =
      (((i.interface.reflecting i.props).filter (·.attributeName == name)).getLast?).bind
        fun p => (i.props.get? p.name).map attributeText := by
  rw [reflectedAttributes, Interface.reflecting]
  split_ifs
  · rw [get?_ofList_reflected, List.filter_filter]
    congr 3
    funext p
    rw [Bool.and_comm]
  · rfl

theorem mem_names_reflectedAttributes (i : Instance) (name : String) :
    name ∈ i.reflectedAttributes.names ↔
      name ∈ (i.interface.reflecting i.props).map (·.attributeName) := by
  rw [names_reflectedAttributes, List.mem_eraseDups]

/-- The names come from the sources in turn, each where it comes up first. -/
theorem names_hostAttributes (i : Instance) :
    i.hostAttributes.names =
      i.attributes.names ++ i.reflectedAttributes.names.filter (· ∉ i.attributes.names) ++
        i.ownAttributes.names.filter fun name =>
          name ∉ i.attributes.names ∧ name ∉ i.reflectedAttributes.names := by
  have hexplicit : i.explicitAttributes.names = i.attributes.names := by
    rw [explicitAttributes, Fields.map, Fields.names, List.map_map]
    rfl
  rw [hostAttributes, Fields.names_union, Fields.names_union, hexplicit]
  congr 1
  refine List.filter_congr fun name _ => ?_
  by_cases h : name ∈ i.attributes.names <;> simp [h]

/--
**Every prop and every attribute of the host has the value of its foremost source, and the host's
attributes stand in the order in which their names first come up.** This is so for any declarations,
also of the same name or attribute, and after any calls by which the instance changes its own
attributes.
-/
theorem hostAttributes_precedence (id definition : Nat) (interface : Interface) (tagName : String)
    (attributes : Props) (theme : Option Theme) (lang : String) (calls : List AttributeCall) :
    let i := (create id definition interface tagName attributes theme lang).after calls
    let reflecting := interface.reflecting i.props
    (∀ name, i.props.get? name =
      ((supplier? interface.properties attributes name).bind (declaredValue? attributes)).or
        ((attributes.get? name).or
          (if interface.capabilities.i18n ∧ name = "lang" then some (.string lang) else none))) ∧
    (∀ name, i.hostAttributes.get? name =
      (ownValue? calls name).or
        ((((reflecting.filter (·.attributeName == name)).getLast?).bind
            fun p => (i.props.get? p.name).map attributeText).or
          ((attributes.get? name).map attributeText))) ∧
    (∀ name, name ∈ i.hostAttributes.names ↔
      name ∈ attributes.names ∨ name ∈ reflecting.map (·.attributeName) ∨
        (ownValue? calls name).isSome = true) ∧
    ∃ own, InOrder calls own ∧ (∀ name, name ∈ own ↔ (ownValue? calls name).isSome = true) ∧
      i.hostAttributes.names =
        attributes.names ++
          ((reflecting.map (·.attributeName)).eraseDups.filter (· ∉ attributes.names)) ++
            own.filter fun name =>
              name ∉ attributes.names ∧ name ∉ reflecting.map (·.attributeName) := by
  intro i reflecting
  -- the calls leave all but the self-set attributes as they were created
  have hframe := after_eq (create id definition interface tagName attributes theme lang) calls
  have hattributes : i.attributes = attributes := congrArg Instance.attributes hframe
  have hinterface : i.interface = interface := congrArg Instance.interface hframe
  have hprops : i.props = visibleProps interface attributes lang :=
    congrArg Instance.props hframe
  have hown : ∀ name, i.ownAttributes.get? name = ownValue? calls name :=
    get?_ownAttributes_after rfl calls
  have hreflecting : i.interface.reflecting i.props = reflecting := by rw [hinterface]
  have hmem : ∀ name, name ∈ i.ownAttributes.names ↔ (ownValue? calls name).isSome = true := by
    intro name
    rw [Fields.mem_names_iff, hown]
  have hnames := names_hostAttributes i
  simp only [mem_names_reflectedAttributes, hattributes, hreflecting] at hnames
  rw [names_reflectedAttributes, hreflecting] at hnames
  refine ⟨fun name => ?_, fun name => ?_, fun name => ?_, i.ownAttributes.names,
    inOrder_ownAttributes_after rfl calls, hmem, hnames⟩
  · rw [hprops, get?_visibleProps_eq]
  · rw [hostAttributes, Fields.get?_union, Fields.get?_union, hown, get?_reflectedAttributes,
      hreflecting, explicitAttributes, Fields.get?_map, hattributes]
  · rw [hnames, ← hmem, List.mem_append, List.mem_append, List.mem_filter, List.mem_filter,
      List.mem_eraseDups, decide_eq_true_iff, decide_eq_true_iff]
    tauto

end Instance

end CustomElements
