import CustomElements.Jinja.Printer

/-!
# Data in text templates

A text template is given data, and some of what it does with values takes them back into data. On
the way there and back nothing is lost (`Jinja.Value.toJson?_ofJson`), if the data is as data is
read and written: the members of an object are in order, whole numbers fit 64 bits, and
floating-point numbers are finite. Values know numbers that data does not have, and their maps are
put in order again when they are taken back, so each of the three is needed.
-/

namespace CustomElements

namespace Json

/-! ## Numbers that data can hold -/

/-- The number is a whole number of 64 bits, signed or unsigned, or a finite one. -/
def Number.Fits : Number → Prop
  | .int n => -0x8000000000000000 ≤ n ∧ n < 0x10000000000000000
  | .float x => x.isNaN = false ∧ x.isInf = false

mutual

/-- Every number in the value fits. -/
def Fits : Json → Prop
  | .number n => n.Fits
  | .array items => FitsItems items
  | .object members => FitsMembers members
  | _ => True

/-- Every number in the values fits. -/
def FitsItems : List Json → Prop
  | [] => True
  | v :: rest => v.Fits ∧ FitsItems rest

/-- Every number in the members' values fits. -/
def FitsMembers : List (String × Json) → Prop
  | [] => True
  | (_, v) :: rest => v.Fits ∧ FitsMembers rest

end

/-! ## Members in order -/

/-- A member whose name comes after all others goes to the end. -/
theorem insertMember_of_forall_lt {name : String} {value : Json} {members : List (String × Json)}
    (h : ∀ e ∈ members, e.1 < name) :
    insertMember name value members = members ++ [(name, value)] := by
  induction members with
  | nil => rfl
  | cons e rest ih =>
      have hlt : e.1 < name := h e List.mem_cons_self
      rw [insertMember, if_neg (String.ne_of_lt hlt), if_neg (String.lt_asymm hlt),
        ih fun e he => h e (List.mem_cons_of_mem _ he), List.cons_append]

theorem foldl_insertMember (members done : List (String × Json))
    (h : ((done ++ members).map Prod.fst).Pairwise (· < ·)) :
    members.foldl (fun done e => insertMember e.1 e.2 done) done = done ++ members := by
  induction members generalizing done with
  | nil => exact (List.append_nil done).symm
  | cons e rest ih =>
      have hlast : ∀ d ∈ done, d.1 < e.1 := by
        intro d hd
        rw [List.map_append, List.map_cons, List.pairwise_append] at h
        exact h.2.2 d.1 (List.mem_map_of_mem hd) e.1 List.mem_cons_self
      rw [List.append_cons] at h
      rw [List.foldl_cons, insertMember_of_forall_lt hlast, ih _ h, ← List.append_cons]

/-- Members that are in order already stay as they are. -/
theorem sortMembers_of_pairwise {members : List (String × Json)}
    (h : (members.map Prod.fst).Pairwise (· < ·)) : sortMembers members = members :=
  foldl_insertMember members [] h

end Json

namespace Jinja.Value

/-- The members of an object keep their names. -/
theorem keyText?_text (name : String) : keyText? (text name) = some name := rfl

mutual

/-- Data that a template is given can be taken back as it was. -/
theorem toJson?_ofJson : (v : Json) → v.Ordered → v.Fits → (ofJson v).toJson? = some v
  | .null, _, _ | .bool _, _, _ | .string _, _, _ => rfl
  | .number (.int n), _, hfits => if_pos hfits
  | .number (.float x), _, hfits => by
      obtain ⟨hnan, hinf⟩ := hfits
      rw [ofJson, toJson?, hnan, hinf]
      rfl
  | .array items, hordered, hfits => by
      rw [ofJson, toJson?, toItems?_ofItems items hordered hfits]
      rfl
  | .object members, hordered, hfits => by
      -- the members come back in order, and putting them in order changes nothing
      rw [ofJson, toJson?, toMembers?_ofMembers members hordered.2 hfits, Option.map_some,
        Json.ofMembers, Json.sortMembers_of_pairwise hordered.1]

theorem toItems?_ofItems : (items : List Json) → Json.OrderedItems items → Json.FitsItems items →
    toItems? (ofItems items) = some items
  | [], _, _ => rfl
  | v :: rest, hordered, hfits => by
      rw [ofItems, toItems?, toJson?_ofJson v hordered.1 hfits.1,
        toItems?_ofItems rest hordered.2 hfits.2]

theorem toMembers?_ofMembers : (members : List (String × Json)) → Json.OrderedMembers members →
    Json.FitsMembers members → toMembers? (ofMembers members) = some members
  | [], _, _ => rfl
  | (name, v) :: rest, hordered, hfits => by
      rw [ofMembers, toMembers?, keyText?_text, toJson?_ofJson v hordered.1 hfits.1,
        toMembers?_ofMembers rest hordered.2 hfits.2]

end

end Jinja.Value

end CustomElements
