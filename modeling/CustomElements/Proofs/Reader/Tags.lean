import CustomElements.Proofs.Markup.Writing
import CustomElements.Proofs.Reader.Surroundings

/-!
# Printed tags are one token each

What the printer writes for a tag is read as one token, whatever follows it: the name up to the
first space or the end, and each attribute up to the quote behind its value.
-/

namespace CustomElements.Markup

open Builder (TagAttributes)

/-! ## Names -/

theorem isAlpha_of_rereadsName {name : String} (h : rereadsName name = true) :
    ∃ c cs, name.toList = c :: cs ∧ c.isAlpha = true := by
  unfold rereadsName at h
  split at h
  · cases h
  · rename_i c cs heq
    exact ⟨c, cs, heq, (Bool.and_eq_true_iff.mp h).1⟩

theorem isTagSpace_eq_false {c : Char} (hc : c.isAlpha = true) :
    (isTagSpace c || c == '/' || c == '>') = false := by
  simp only [isTagSpace, Bool.or_eq_false_iff, beq_eq_false_iff_ne, ne_eq]
  refine ⟨⟨⟨⟨⟨?_, ?_⟩, ?_⟩, ?_⟩, ?_⟩, ?_⟩ <;> (rintro rfl; exact absurd hc (by decide))

/-- The name of a tag ends at a space or where the tag ends. -/
theorem span_tagName {name : String} (h : rereadsName name = true) {after : List Char}
    (hafter : ∀ c ∈ after.head?, c = ' ' ∨ c = '>') :
    (name.toList ++ after).span (fun c => !(isTagSpace c || c == '/' || c == '>')) =
      (name.toList, after) := by
  refine span_append ?_ fun c hc => ?_
  · unfold rereadsName at h
    split at h
    · cases h
    · rename_i c cs heq
      rw [Bool.and_eq_true, List.all_eq_true] at h
      rw [heq, List.forall_mem_cons]
      exact ⟨by rw [isTagSpace_eq_false h.1]; rfl, h.2⟩
  · rcases hafter c hc with rfl | rfl <;> rfl

theorem attributeName_append {name : String} (h : rereadsAttributeName name = true)
    (after : List Char) :
    ∃ c cs, name.toList = c :: cs ∧ (isTagSpace c || c == '/') = false ∧ c ≠ '>' ∧
      attributeName c (cs ++ '=' :: after) = (readName name, '=' :: after) := by
  unfold rereadsAttributeName at h
  split at h
  · cases h
  · rename_i c cs heq
    rw [Bool.and_eq_true, Bool.not_eq_true', Bool.or_eq_false_iff, List.all_eq_true] at h
    refine ⟨c, cs, heq, h.1.1, beq_eq_false_iff_ne.mp h.1.2, ?_⟩
    have hspan : (cs ++ '=' :: after).span
        (fun c => !(isTagSpace c || c == '/' || c == '>' || c == '=')) = (cs, '=' :: after) :=
      span_append h.2 (by simp)
    rw [attributeName, hspan, readName, heq]

/-! ## Attributes -/

theorem attributeValue?_escaped (value : String) (after : List Char) :
    attributeValue? ('"' :: ((escapeAttribute value).toList ++ '"' :: after)) =
      some (String.ofList (decodeReferences true ((escapeAttribute value).toList.length + 1)
        (escapeAttribute value).toList), after) := by
  simp [attributeValue?, upTo?_append (quote_notMem_escapeAttribute value)]

/-- What a printed attribute is read as. -/
def readAttribute (a : String × String) : String × String :=
  (readName a.1, String.ofList (decodeReferences true ((escapeAttribute a.2).toList.length + 1)
    (escapeAttribute a.2).toList))

theorem addAttribute_of_notMem {done : TagAttributes} {a : String × String}
    (h : a.1 ∉ done.map Prod.fst) : addAttribute done a.1 a.2 = done ++ [a] := by
  have hnone : (done.any (·.1 == a.1)) = false := by
    rw [List.any_eq_false]
    intro b hb hname
    exact h (List.mem_map.mpr ⟨b, hb, beq_iff_eq.mp hname⟩)
  rw [addAttribute, hnone]
  rfl

/-- One attribute is read in two steps: the space before it, and the attribute. -/
theorem tagRest?_attribute {fuel : Nat} {done : TagAttributes} {a : String × String}
    (ha : rereadsAttributeName a.1 = true) (after : List Char) :
    tagRest? (fuel + 2) done
        (' ' :: (a.1.toList ++ '=' :: '"' :: ((escapeAttribute a.2).toList ++ '"' :: after))) =
      tagRest? fuel (addAttribute done (readAttribute a).1 (readAttribute a).2) after := by
  obtain ⟨c, cs, heq, hspace, hend, hname⟩ := attributeName_append ha
    ('"' :: ((escapeAttribute a.2).toList ++ '"' :: after))
  have hslash : c ≠ '/' := fun e => by simp [e] at hspace
  have hstart : tagRest? (fuel + 2) done
        (' ' :: (a.1.toList ++ '=' :: '"' :: ((escapeAttribute a.2).toList ++ '"' :: after))) =
      tagRest? (fuel + 1) done
        (a.1.toList ++ '=' :: '"' :: ((escapeAttribute a.2).toList ++ '"' :: after)) := rfl
  rw [hstart, heq, List.cons_append, tagRest?, if_neg (by simp [hspace]), hname]
  · simp only [List.dropWhile_cons_of_neg (show ¬isTagSpace '=' = true by decide),
      List.dropWhile_cons_of_neg (show ¬isTagSpace '"' = true by decide),
      attributeValue?_escaped]
    rfl
  · exact hend
  · intro rest h
    exact absurd h hslash

theorem tagRest?_attributesText {entries : List (String × String)} {done : TagAttributes}
    (hnames : ∀ a ∈ entries, rereadsAttributeName a.1 = true)
    (hnodup : ((done ++ entries.map readAttribute).map Prod.fst).Nodup) (rest : List Char)
    {fuel : Nat} (hfuel : 2 * entries.length < fuel) :
    tagRest? fuel done (attributesText entries ++ '>' :: rest) =
      some ⟨done ++ entries.map readAttribute, false, rest⟩ := by
  induction entries generalizing done fuel with
  | nil =>
      obtain ⟨fuel, rfl⟩ : ∃ n, fuel = n + 1 := ⟨fuel - 1, by omega⟩
      rw [List.map_nil, List.append_nil]
      rfl
  | cons a entries ih =>
      rw [List.length_cons] at hfuel
      obtain ⟨fuel, rfl⟩ : ∃ n, fuel = n + 2 := ⟨fuel - 2, by omega⟩
      rw [List.forall_mem_cons] at hnames
      have htext : attributesText (a :: entries) ++ '>' :: rest =
          ' ' :: (a.1.toList ++ '=' :: '"' :: ((escapeAttribute a.2).toList ++
            '"' :: (attributesText entries ++ '>' :: rest))) := by
        simp [attributesText]
      have hsplit : done ++ (a :: entries).map readAttribute =
          done ++ [readAttribute a] ++ entries.map readAttribute := by simp
      -- a name that was read before would be dropped, so the names differ as they are read
      have hnew : (readAttribute a).1 ∉ done.map Prod.fst := by
        rw [hsplit, List.map_append, List.map_append] at hnodup
        have hfirst := (List.nodup_append.mp hnodup).1
        intro hmem
        exact (List.nodup_append.mp hfirst).2.2 _ hmem _ (by simp) rfl
      rw [hsplit] at hnodup ⊢
      rw [htext, tagRest?_attribute hnames.1, addAttribute_of_notMem hnew]
      exact ih hnames.2 hnodup (by omega)

/-! ## Tags -/

/-- The parts of what `rereadsTag` asks for. -/
structure TagReread (language : Language) (tag : Tag) : Prop where
  fresh : tag = { Tag.ofName tag.name with attributes := tag.attributes }
  name : adjustedName language (readName tag.name) = tag.name
  nameEnds : rereadsName tag.name = true
  attributeEnds : ∀ a ∈ tag.attributes.entries, rereadsAttributeName a.1 = true
  values : tag.attributes.entries.map readAttribute = readAttributes tag.attributes
  nodup : ((readAttributes tag.attributes).map Prod.fst).Nodup
  attributes : Fields.ofList (adjusted language (readAttributes tag.attributes)) = tag.attributes

theorem tagReread_of_rereadsTag {language : Language} {tag : Tag}
    (h : rereadsTag language tag = true) : TagReread language tag := by
  simp only [rereadsTag, Bool.and_eq_true, beq_iff_eq, List.all_eq_true, decide_eq_true_eq] at h
  obtain ⟨⟨⟨⟨⟨hfresh, hname⟩, hends⟩, hall⟩, hnodup⟩, hattributes⟩ := h
  refine ⟨hfresh, hname, hends, fun a ha => (hall a ha).1, ?_, hnodup, hattributes⟩
  refine List.map_congr_left fun a ha => ?_
  have hvalue := (hall a ha).2
  rw [rereadsValue, beq_iff_eq] at hvalue
  rw [readAttribute, hvalue, String.ofList_toList]

variable {language : Language} {tag : Tag}

theorem head?_attributesText (entries : List (String × String)) (rest : List Char) :
    ∀ c ∈ (attributesText entries ++ '>' :: rest).head?, c = ' ' ∨ c = '>' := by
  intro c hc
  cases entries with
  | nil => exact .inr (Option.some.inj hc).symm
  | cons a entries => exact .inl (Option.some.inj hc).symm

/-- The name and the attributes of a printed start tag, with any attributes, are read as a tag. -/
theorem tag?_attributesText {name : String} {entries : List (String × String)}
    (hname : rereadsName name = true)
    (hentries : ∀ a ∈ entries, rereadsAttributeName a.1 = true)
    (hnodup : ((entries.map readAttribute).map Prod.fst).Nodup) (rest : List Char) :
    tag? (name.toList ++ (attributesText entries ++ '>' :: rest)) =
      some (readName name, ⟨entries.map readAttribute, false, rest⟩) := by
  have hlength := length_le_attributesText entries
  have hfuel : 2 * entries.length < (attributesText entries ++ '>' :: rest).length + 1 := by
    rw [List.length_append]
    omega
  have hrest : tagRest? ((attributesText entries ++ '>' :: rest).length + 1) []
      (attributesText entries ++ '>' :: rest) = some ⟨entries.map readAttribute, false, rest⟩ :=
    tagRest?_attributesText hentries hnodup rest hfuel
  rw [tag?, span_tagName hname (head?_attributesText entries rest)]
  simp only [hrest, Option.map_some]
  rfl

theorem angle?_of_isAlpha (foreign : Bool) {c : Char} (hc : c.isAlpha = true) (cs : List Char) :
    angle? foreign (c :: cs) = startTag? (c :: cs) := by
  have hne : ∀ d : Char, d.isAlpha = false → c ≠ d := fun d hd e => by
    rw [e, hd] at hc
    cases hc
  have hbang := hne '!' (by decide)
  have hquery := hne '?' (by decide)
  have hslash := hne '/' (by decide)
  rw [angle?, if_pos hc]
  · exact hbang
  · exact hquery
  all_goals simp [hslash]

/-- **A printed start tag is read as the tag.** -/
theorem nextToken?_openTag (h : TagReread language tag) (foreign : Bool) (rest : List Char) :
    nextToken? .markup foreign
        ('<' :: (tag.name.toList ++ (attributesText tag.attributes.entries ++ '>' :: rest))) =
      some (.startTag (readName tag.name) (readAttributes tag.attributes) false, rest) := by
  obtain ⟨c, cs, heq, hc⟩ := isAlpha_of_rereadsName h.nameEnds
  have htag := tag?_attributesText h.nameEnds h.attributeEnds (h.values ▸ h.nodup) rest
  rw [h.values] at htag
  rw [nextToken?, markupToken?]
  rw [heq, List.cons_append] at htag ⊢
  rw [angle?_of_isAlpha foreign hc, startTag?, htag]
  rfl

theorem endTag?_append {name : String} (h : rereadsName name = true) (rest : List Char) :
    endTag? (name.toList ++ '>' :: rest) = some (.endTag (readName name), rest) := by
  have htag : tag? (name.toList ++ (attributesText [] ++ '>' :: rest)) =
      some (readName name, ⟨[].map readAttribute, false, rest⟩) :=
    tag?_attributesText h (List.forall_mem_nil _) List.nodup_nil rest
  rw [attributesText, List.flatMap_nil, List.nil_append] at htag
  rw [endTag?, htag]
  rfl

/-- **A printed end tag is read as the end tag.** -/
theorem nextToken?_closeTag {name : String} (h : rereadsName name = true) (foreign : Bool)
    (rest : List Char) :
    nextToken? .markup foreign ('<' :: '/' :: (name.toList ++ '>' :: rest)) =
      some (.endTag (readName name), rest) := by
  obtain ⟨c, cs, heq, hc⟩ := isAlpha_of_rereadsName h
  have hend := endTag?_append h rest
  rw [nextToken?, markupToken?]
  rw [heq, List.cons_append] at hend ⊢
  have hne : c ≠ '>' := fun e => by rw [e] at hc; exact absurd hc (by decide)
  rw [angle?, if_pos hc, hend]
  exact hne

end CustomElements.Markup
