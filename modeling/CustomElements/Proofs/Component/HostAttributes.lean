import CustomElements.Component.Instance
import Mathlib.Data.List.Induction

/-!
# Attributes that reach the host

The host of an instance gets the caller's attributes, with reflected properties written over them
and the attributes that the instance set on itself over both. An attribute of the caller comes
through with its value if the instance does not set one of that name and *returns* it: what is
reflected to the attribute, if anything, was read from it (`Instance.get?_hostAttributes`).
Reflection can put another value there only through two declarations of one property.

Classes that are added to a `class` attribute come through as separate words, behind those that it
had (`Tag.words_joinClasses_eq`).
-/

namespace CustomElements

/-! ## Declarations -/

/-- The last declaration that is written back to the attribute. -/
def Interface.reflector? (i : Interface) (key : String) : Option Property :=
  if i.capabilities.reflect then
    (i.properties.filter fun p => p.reflect && p.attributeName == key).getLast?
  else none

namespace Instance

/-- The last declaration of the property that has a value. -/
def supplier? (properties : List Property) (attributes : Props) (name : String) :
    Option Property :=
  (properties.filter fun p => p.name == name && (declaredValue? attributes p).isSome).getLast?

/-- If anything is written back to the attribute, it is what was read from it. -/
def Returns (i : Instance) (key : String) : Prop :=
  ∀ p ∈ i.interface.reflector? key,
    ∀ q ∈ supplier? i.interface.properties i.attributes p.name, q.attributeName = key

instance (i : Instance) (key : String) : Decidable (i.Returns key) :=
  inferInstanceAs (Decidable (∀ p ∈ i.interface.reflector? key,
    ∀ q ∈ supplier? i.interface.properties i.attributes p.name, q.attributeName = key))

section Props

variable {attributes : Props} {key : String} {value : Json}

/-- A declared property has the value of its last declaration that has one. -/
theorem get?_declaredProps (properties : List Property) (attributes : Props) (name : String) :
    (declaredProps properties attributes).get? name =
      ((supplier? properties attributes name).bind (declaredValue? attributes)).or
        (attributes.get? name) := by
  induction properties using List.reverseRecOn with
  | nil => rfl
  | append_singleton properties p ih =>
      rw [declaredProps, List.foldl_append, ← declaredProps, List.foldl_cons, List.foldl_nil,
        supplier?, List.filter_append]
      rcases hvalue : declaredValue? attributes p with - | v
      · simpa [supplier?, hvalue] using ih
      · by_cases hname : p.name = name
        · simp [hvalue, hname]
        · simpa [supplier?, hvalue, hname] using ih

theorem isSome_supplier? (h : attributes.get? key = some value) {properties : List Property}
    {p : Property} (hp : p ∈ properties) (hkey : p.attributeName = key) :
    ∃ q v, supplier? properties attributes p.name = some q ∧
      declaredValue? attributes q = some v := by
  have hvalue : (declaredValue? attributes p).isSome = true := by
    rw [declaredValue?, hkey, h]
    rfl
  rcases hq : supplier? properties attributes p.name with - | q
  · rw [supplier?, List.getLast?_eq_none_iff, List.filter_eq_nil_iff] at hq
    exact absurd (by simp [hvalue]) (hq p hp)
  · have hmem := List.mem_of_getLast? hq
    obtain ⟨v, hv⟩ := Option.isSome_iff_exists.mp
      (Bool.and_eq_true_iff.mp (List.mem_filter.mp hmem).2).2
    exact ⟨q, v, rfl, hv⟩

/-- The language does not take the place of a property that has a value. -/
theorem get?_visibleProps {interface : Interface} {name lang : String}
    (h : (declaredProps interface.properties attributes).get? name = some value) :
    (visibleProps interface attributes lang).get? name = some value := by
  rw [visibleProps]
  split_ifs
  · exact Fields.get?_of_prefix (Fields.prefix_insertIfNew _ _ _) h
  · exact h

/-- Of the declarations that have something to write to an attribute the last one stays. -/
theorem get?_ofList_reflected (props : Props) (properties : List Property) (key : String) :
    (Fields.ofList ((properties.filter (·.reflect)).filterMap fun p =>
        (props.get? p.name).map fun v => (p.attributeName, attributeText v))).get? key =
      ((properties.filter fun p =>
        (p.reflect && (props.get? p.name).isSome) && p.attributeName == key).getLast?).bind
          fun p => (props.get? p.name).map attributeText := by
  induction properties using List.reverseRecOn with
  | nil => rfl
  | append_singleton properties p ih =>
      rw [Fields.ofList, Fields.get?_insertMany] at ih ⊢
      rw [List.filter_append, List.filterMap_append, List.reverse_append, Fields.lookup_append,
        List.filter_append]
      rcases hreflect : p.reflect with - | -
      · simpa [hreflect, Fields.lookup] using ih
      · rcases hv : props.get? p.name with - | v
        · simpa [hreflect, hv, Fields.lookup] using ih
        · by_cases hname : p.attributeName = key
          · simp [hreflect, hv, hname, Fields.lookup]
          · simpa [hreflect, hv, hname, Fields.lookup] using ih

theorem get?_reflected (props : Props) (properties : List Property)
    (h : ∀ p ∈ properties, p.attributeName = key → (props.get? p.name).isSome = true) :
    (Fields.ofList ((properties.filter (·.reflect)).filterMap fun p =>
        (props.get? p.name).map fun v => (p.attributeName, attributeText v))).get? key =
      ((properties.filter fun p => p.reflect && p.attributeName == key).getLast?).bind
        fun p => (props.get? p.name).map attributeText := by
  rw [get?_ofList_reflected]
  congr 2
  refine List.filter_congr fun p hp => ?_
  by_cases hname : p.attributeName = key
  · rw [h p hp hname, Bool.and_true]
  · rw [beq_false_of_ne hname, Bool.and_false, Bool.and_false]

end Props

/-- **An attribute that the instance does not set and returns reaches the host as it is.** -/
theorem get?_hostAttributes {i : Instance} {key lang : String} {value : Json}
    (hprops : i.props = visibleProps i.interface i.attributes lang)
    (h : i.attributes.get? key = some value) (hset : i.ownAttributes.get? key = none)
    (hreturns : i.Returns key) :
    i.hostAttributes.get? key = some (attributeText value) := by
  -- every declaration for the attribute has a value, since the attribute has one
  have hvalue : ∀ p ∈ i.interface.properties, p.attributeName = key → ∃ q v,
      supplier? i.interface.properties i.attributes p.name = some q ∧
        declaredValue? i.attributes q = some v ∧ i.props.get? p.name = some v := by
    intro p hp hkey
    obtain ⟨q, v, hq, hv⟩ := isSome_supplier? h hp hkey
    refine ⟨q, v, hq, hv, ?_⟩
    rw [hprops]
    refine get?_visibleProps ?_
    rw [get?_declaredProps, hq, Option.bind_some, hv, Option.some_or]
  have hreflected : i.reflectedAttributes.get? key = none ∨
      i.reflectedAttributes.get? key = some (attributeText value) := by
    rw [reflectedAttributes]
    split_ifs with hcan
    · rw [get?_reflected _ _ fun p hp hkey => by
        obtain ⟨q, v, -, -, hv⟩ := hvalue p hp hkey
        rw [hv]
        rfl]
      rcases hlast : (i.interface.properties.filter fun p =>
        p.reflect && p.attributeName == key).getLast? with - | p
      · exact .inl (by rw [hlast]; rfl)
      · obtain ⟨hp, hwrites⟩ := List.mem_filter.mp (List.mem_of_getLast? hlast)
        have hkey : p.attributeName = key :=
          beq_iff_eq.mp (Bool.and_eq_true_iff.mp hwrites).2
        obtain ⟨q, v, hq, hv, hget⟩ := hvalue p hp hkey
        have hread : q.attributeName = key :=
          hreturns p (by rw [Interface.reflector?, if_pos hcan, hlast]; rfl) q hq
        rw [declaredValue?, hread, h, Option.some_or, Option.some_or] at hv
        obtain rfl := Option.some.inj hv
        exact .inr (by rw [hlast, Option.bind_some, hget, Option.map_some])
    · exact .inl rfl
  rw [hostAttributes, Fields.get?_union, hset, Option.none_or, Fields.get?_union,
    explicitAttributes, Fields.get?_map, h]
  rcases hreflected with hr | hr <;> rw [hr] <;> rfl

end Instance

/-! ## Words -/

namespace Text

theorem words_cons (c : Char) (cs : List Char) : words (c :: cs) =
    if isBlank c then words cs
    else match cs with
      | [] => [[c]]
      | d :: _ =>
        if isBlank d then [c] :: words cs
        else match words cs with
          | [] => [[c]]
          | w :: ws => (c :: w) :: ws :=
  words.eq_def (c :: cs)

theorem words_ne_nil {c : Char} (hc : isBlank c = false) (cs : List Char) :
    words (c :: cs) ≠ [] := by
  rw [words_cons, if_neg (by simp [hc])]
  cases cs with
  | nil => simp
  | cons d cs =>
      dsimp only
      split_ifs
      · simp
      · split <;> simp

theorem words_append_cons {b : Char} (hb : isBlank b = true) (cs ds : List Char) :
    words (cs ++ b :: ds) = words cs ++ words ds := by
  induction cs with
  | nil => rw [List.nil_append, words_cons, if_pos hb]; rfl
  | cons c cs ih =>
      rw [List.cons_append, words_cons, words_cons]
      by_cases hc : isBlank c = true
      · rw [if_pos hc, if_pos hc, ih]
      · rw [if_neg hc, if_neg hc]
        cases cs with
        | nil =>
            rw [List.nil_append] at ih ⊢
            simp only [hb, if_true, ih]
            rfl
        | cons d cs =>
            rw [List.cons_append] at ih ⊢
            dsimp only
            by_cases hd : isBlank d = true
            · rw [if_pos hd, if_pos hd, ih, List.cons_append]
            · rw [if_neg hd, if_neg hd, ih]
              obtain ⟨w, ws, hw⟩ := List.exists_cons_of_ne_nil
                (words_ne_nil (Bool.eq_false_iff.mpr hd) cs)
              rw [hw]
              rfl

/-- Without white space there is one word. -/
theorem words_eq_singleton {cs : List Char} (hne : cs ≠ [])
    (h : ∀ c ∈ cs, isBlank c = false) : words cs = [cs] := by
  induction cs with
  | nil => exact absurd rfl hne
  | cons c cs ih =>
      rw [List.forall_mem_cons] at h
      rw [words_cons, if_neg (by simp [h.1])]
      cases cs with
      | nil => rfl
      | cons d cs =>
          have hd := h.2 d List.mem_cons_self
          dsimp only
          rw [if_neg (by simp [hd]), ih (List.cons_ne_nil d cs) h.2]

theorem words_intercalate (texts : List String) :
    words (" ".intercalate texts).toList = texts.flatMap fun s => words s.toList := by
  induction texts with
  | nil => rfl
  | cons s texts ih =>
      cases texts with
      | nil => simp
      | cons t texts =>
          have hchars : (" ".intercalate (s :: t :: texts)).toList =
              s.toList ++ ' ' :: (" ".intercalate (t :: texts)).toList := by
            simp [String.intercalate_cons_cons]
          rw [hchars, words_append_cons rfl, ih]
          rfl

theorem words_eq_nil {cs : List Char} (h : ∀ c ∈ cs, isBlank c = true) : words cs = [] := by
  induction cs with
  | nil => rfl
  | cons c cs ih =>
      rw [List.forall_mem_cons] at h
      rw [words_cons, if_pos h.1, ih h.2]

theorem words_trimStart (cs : List Char) : words (trimStart cs) = words cs := by
  induction cs with
  | nil => rfl
  | cons c cs ih =>
      by_cases hc : isBlank c = true
      · rw [trimStart, List.dropWhile_cons_of_pos hc, words_cons, if_pos hc]
        exact ih
      · rw [trimStart, List.dropWhile_cons_of_neg hc]

/-- What is dropped from the end of a text is white space. -/
theorem trimEnd_append (cs : List Char) :
    ∃ dropped, cs = trimEnd cs ++ dropped ∧ ∀ c ∈ dropped, isBlank c = true := by
  refine ⟨(cs.reverse.takeWhile isBlank).reverse, ?_, fun c hc => ?_⟩
  · rw [trimEnd, ← List.reverse_append, List.takeWhile_append_dropWhile, List.reverse_reverse]
  · exact List.all_eq_true.mp List.all_takeWhile c (List.mem_reverse.mp hc)

theorem words_trimEnd (cs : List Char) : words (trimEnd cs) = words cs := by
  obtain ⟨dropped, hcs, hblank⟩ := trimEnd_append cs
  conv_rhs => rw [hcs]
  cases dropped with
  | nil => rw [List.append_nil]
  | cons c dropped =>
      rw [List.forall_mem_cons] at hblank
      rw [words_append_cons hblank.1, words_eq_nil hblank.2, List.append_nil]

theorem words_trimmed (s : String) : words (trimmed s).toList = words s.toList := by
  rw [trimmed, String.toList_ofList, trim, words_trimEnd, words_trimStart]

end Text

/-- The words of a value with classes are those that it had and then those of the classes. -/
theorem Tag.words_joinClasses_eq (existing : Option String) (classes : List String) :
    Text.words (joinClasses existing classes).toList =
      Text.words (existing.getD "").toList ++ classes.flatMap fun k => Text.words k.toList := by
  rw [← Text.words_intercalate]
  unfold joinClasses
  rcases existing with - | value
  · rfl
  · have hkept := Text.words_trimmed value
    dsimp only [Option.getD_some]
    split
    · rename_i hempty
      rw [← hkept, hempty]
      rfl
    · have hchars : (Text.trimmed value ++ " " ++ " ".intercalate classes).toList =
          (Text.trimmed value).toList ++ ' ' :: (" ".intercalate classes).toList := by simp
      rw [hchars, Text.words_append_cons rfl, hkept]

/-- The words of classes that are added to an attribute are words of the attribute. -/
theorem Tag.words_joinClasses (existing : Option String) {classes : List String} {k : String}
    (hk : k ∈ classes) :
    Text.words k.toList ⊆ Text.words (joinClasses existing classes).toList := by
  rw [words_joinClasses_eq]
  exact fun w hw => List.mem_append_right _ (List.mem_flatMap.mpr ⟨k, hk, hw⟩)

end CustomElements
