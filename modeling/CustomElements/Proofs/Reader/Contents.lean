import CustomElements.Proofs.Reader.Tags
import Mathlib.Data.List.Basic

/-!
# Printed text

The three escapes of text are read as the characters they stand for, whatever follows them. Inside
an element for text only, what is read up to the end tag depends on nothing behind that tag.
-/

namespace CustomElements.Markup

/-! ## Escapes -/

/-- The name and the word agree as far as both go. -/
def meets (word : List Char) (e : List Char × List Char) : Bool :=
  e.1.isPrefixOf word || word.isPrefixOf e.1

/-- A name that does not meet a word does not begin a text that the word begins. -/
theorem isPrefixOf_append_of_not_meets {word : List Char} {e : List Char × List Char}
    (h : meets word e = false) (rest : List Char) : e.1.isPrefixOf (word ++ rest) = false := by
  rw [meets, Bool.or_eq_false_iff] at h
  rw [Bool.eq_false_iff, ne_eq, List.isPrefixOf_iff_prefix]
  intro hprefix
  rcases List.prefix_or_prefix_of_prefix hprefix (List.prefix_append word rest) with hle | hge
  · rw [← List.isPrefixOf_iff_prefix, h.1] at hle
    cases hle
  · rw [← List.isPrefixOf_iff_prefix, h.2] at hge
    cases hge

/-- The names that do not meet the word are passed over. -/
theorem longestName?_append {first second : Char} {word : List Char}
    {names : List (List Char × List Char)}
    (h : (namesUnder first second).filter (meets (first :: second :: word)) = names)
    (rest : List Char) :
    longestName? (first :: second :: (word ++ rest)) =
      names.foldl (fun best e =>
        if e.1.isPrefixOf (first :: second :: (word ++ rest)) &&
          (best.map (·.1.length)).getD 0 < e.1.length then some e else best) none := by
  rw [longestName?, ← h, List.foldl_filter]
  refine List.foldl_ext _ _ _ fun best e _ => ?_
  cases hmeets : meets (first :: second :: word) e with
  | true => rfl
  | false =>
      have hnot := isPrefixOf_append_of_not_meets hmeets rest
      rw [List.cons_append, List.cons_append] at hnot
      simp only [hnot, Bool.false_and, Bool.false_eq_true, if_false]

theorem reference?_amp (rest : List Char) :
    reference? false ('a' :: 'm' :: 'p' :: ';' :: rest) = some (['&'], rest) := by
  have hnames : (namesUnder 'a' 'm').filter (meets ['a', 'm', 'p', ';']) =
      [(['a', 'm', 'p'], ['&']), (['a', 'm', 'p', ';'], ['&'])] := by decide +kernel
  have hlongest := longestName?_append hnames rest
  rw [List.cons_append, List.cons_append, List.nil_append] at hlongest
  simp [reference?, namedReference?, hlongest]

theorem reference?_lt (rest : List Char) :
    reference? false ('l' :: 't' :: ';' :: rest) = some (['<'], rest) := by
  have hnames : (namesUnder 'l' 't').filter (meets ['l', 't', ';']) =
      [(['l', 't'], ['<']), (['l', 't', ';'], ['<'])] := by decide +kernel
  have hlongest := longestName?_append hnames rest
  rw [List.cons_append, List.nil_append] at hlongest
  simp [reference?, namedReference?, hlongest]

theorem reference?_gt (rest : List Char) :
    reference? false ('g' :: 't' :: ';' :: rest) = some (['>'], rest) := by
  have hnames : (namesUnder 'g' 't').filter (meets ['g', 't', ';']) =
      [(['g', 't'], ['>']), (['g', 't', ';'], ['>'])] := by decide +kernel
  have hlongest := longestName?_append hnames rest
  rw [List.cons_append, List.nil_append] at hlongest
  simp [reference?, namedReference?, hlongest]

/-- The characters that are printed as a reference. -/
def isEscaped (c : Char) : Bool := c == '&' || c == '<' || c == '>'

/-- A character that is printed as a reference is read alone. -/
theorem markupToken?_escaped {c : Char} (hc : isEscaped c = true) (foreign : Bool)
    (rest : List Char) :
    markupToken? foreign (escapeTextChar c ++ rest) = some (.text [c], rest) := by
  simp only [isEscaped, Bool.or_eq_true, beq_iff_eq] at hc
  rcases hc with (rfl | rfl) | rfl
  · show markupToken? foreign ('&' :: 'a' :: 'm' :: 'p' :: ';' :: rest) = _
    rw [markupToken?, reference?_amp]
  · show markupToken? foreign ('&' :: 'l' :: 't' :: ';' :: rest) = _
    rw [markupToken?, reference?_lt]
  · show markupToken? foreign ('&' :: 'g' :: 't' :: ';' :: rest) = _
    rw [markupToken?, reference?_gt]

/-- Other characters are read up to the next tag or reference. -/
theorem markupToken?_plain {cs : List Char} (hcs : ∀ c ∈ cs, c ≠ '<' ∧ c ≠ '&') (hne : cs ≠ [])
    (foreign : Bool) {rest : List Char} (hrest : ∀ c ∈ rest.head?, c = '<' ∨ c = '&') :
    markupToken? foreign (cs ++ rest) = some (.text cs, rest) := by
  obtain ⟨c, tail, rfl⟩ := List.exists_cons_of_ne_nil hne
  have hspan : (c :: tail ++ rest).span (fun c => c != '<' && c != '&') = (c :: tail, rest) :=
    span_append (fun d hd => by simpa using hcs d hd) fun d hd => by
      rcases hrest d hd with rfl | rfl <;> rfl
  have hc := hcs c List.mem_cons_self
  rw [List.cons_append] at hspan ⊢
  rw [markupToken?, hspan]
  · simp
  · simp [hc.1]
  · simp [hc.2]

/-! ## Contents of elements for text only -/

theorem atEndTagOf_of_ne {name : String} {cs : List Char}
    (h : ∀ ds, cs ≠ '<' :: '/' :: ds) : atEndTagOf name cs = false := by
  unfold atEndTagOf
  split
  · exact absurd rfl (h _)
  · rfl

/-- Whether an end tag begins is decided by as many characters as the tag has. -/
theorem atEndTagOf_append {name : String} {cs : List Char} (hlength : name.length + 3 ≤ cs.length)
    (rest : List Char) : atEndTagOf name (cs ++ rest) = atEndTagOf name cs := by
  by_cases hstart : ∃ ds, cs = '<' :: '/' :: ds
  · obtain ⟨ds, rfl⟩ := hstart
    have hds : name.length + 1 ≤ ds.length := by simpa using hlength
    rw [List.cons_append, List.cons_append, atEndTagOf, atEndTagOf, startsWithWord, startsWithWord,
      List.take_append_of_le_length (by rw [String.length_toList]; omega),
      List.drop_append_of_le_length (by omega)]
    cases hdrop : ds.drop name.length with
    | nil =>
        rw [List.drop_eq_nil_iff] at hdrop
        omega
    | cons d ds => rfl
  · have hcs : ∀ ds, cs ≠ '<' :: '/' :: ds := fun ds e => hstart ⟨ds, e⟩
    rw [atEndTagOf_of_ne hcs, atEndTagOf_of_ne]
    intro ds e
    obtain ⟨a, b, tail, rfl⟩ : ∃ a b tail, cs = a :: b :: tail := by
      rcases cs with - | ⟨a, - | ⟨b, tail⟩⟩
      · simp at hlength
      · simp at hlength
      · exact ⟨a, b, tail, rfl⟩
    simp only [List.cons_append, List.cons.injEq] at e
    exact hcs tail (by rw [e.1, e.2.1])

theorem map_toLower_of_readName {name : String} (h : readName name = name) :
    name.toList.map Char.toLower = name.toList := by
  have hlist : name.toList.map nameChar = name.toList.map id := by
    rw [List.map_id, ← String.toList_ofList (l := name.toList.map nameChar), ← readName, h]
  conv_rhs => rw [← List.map_id name.toList]
  refine List.map_congr_left fun c hc => ?_
  have hchar := List.map_inj_left.mp hlist c hc
  rw [nameChar] at hchar
  split at hchar
  · rename_i hzero
    rw [beq_iff_eq.mp hzero] at hchar
    exact absurd hchar (by decide)
  · exact hchar

/-- The end tag that is printed, and what follows it. -/
theorem atEndTagOf_closing {name : String} (h : readName name = name) (rest : List Char) :
    atEndTagOf name ('<' :: '/' :: (name.toList ++ '>' :: rest)) = true := by
  rw [atEndTagOf, startsWithWord, List.take_left, map_toLower_of_readName h, Bool.and_eq_true,
    List.isPrefixOf_iff_prefix]
  refine ⟨List.prefix_rfl, ?_⟩
  rw [← String.length_toList, List.drop_left]
  rfl

/-- What is read of a text before the end tag does not depend on what follows the tag. -/
theorem spanRaw_append {name : String} (h : readName name = name) {cs text : List Char}
    (hspan : spanRaw name (cs ++ '<' :: '/' :: (name.toList ++ ['>'])) =
      (text, '<' :: '/' :: (name.toList ++ ['>']))) (rest : List Char) :
    text = cs ∧ spanRaw name (cs ++ '<' :: '/' :: (name.toList ++ '>' :: rest)) =
      (cs, '<' :: '/' :: (name.toList ++ '>' :: rest)) := by
  induction cs generalizing text with
  | nil =>
      rw [List.nil_append, spanRaw, if_pos (atEndTagOf_closing h []), Prod.mk.injEq] at hspan
      rw [List.nil_append, spanRaw, if_pos (atEndTagOf_closing h rest)]
      exact ⟨hspan.1.symm, rfl⟩
  | cons c cs ih =>
      have hsplit : c :: (cs ++ '<' :: '/' :: (name.toList ++ '>' :: rest)) =
          c :: (cs ++ '<' :: '/' :: (name.toList ++ ['>'])) ++ rest := by simp
      have hlocal : atEndTagOf name (c :: (cs ++ '<' :: '/' :: (name.toList ++ '>' :: rest))) =
          atEndTagOf name (c :: (cs ++ '<' :: '/' :: (name.toList ++ ['>']))) := by
        rw [hsplit]
        exact atEndTagOf_append (by simp [← String.length_toList]; omega) rest
      rw [List.cons_append, spanRaw] at hspan
      rw [List.cons_append, spanRaw, hlocal]
      split at hspan
      · -- an end tag read here would leave a text longer than the one that is left
        have hlength := congrArg (fun p => p.2.length) hspan
        simp at hlength
        omega
      · rename_i hgoes
        cases hinner : spanRaw name (cs ++ '<' :: '/' :: (name.toList ++ ['>'])) with
        | mk inner after =>
            rw [hinner] at hspan
            obtain ⟨rfl, rfl⟩ := Prod.mk.inj hspan
            obtain ⟨rfl, hrest⟩ := ih hinner
            rw [if_neg hgoes, hrest]
            exact ⟨rfl, rfl⟩

/-! ## Scripts -/

theorem atScriptWord_append (cs x y : List Char) :
    atScriptWord (cs ++ '<' :: x) = atScriptWord (cs ++ '<' :: y) := by
  have hangle : ¬Char.isAlpha '<' = true := by decide
  simp only [atScriptWord, List.span_eq_takeWhile_dropWhile, List.takeWhile_append,
    List.dropWhile_append, List.takeWhile_cons_of_neg hangle, List.dropWhile_cons_of_neg hangle]
  cases cs.dropWhile Char.isAlpha <;> rfl

/-- Where a script goes on to does not depend on what is behind the next tag. -/
theorem next_append (p : ScriptPlace) (c : Char) (cs x y : List Char) :
    p.next c (cs ++ '<' :: x) = p.next c (cs ++ '<' :: y) := by
  have hword : "!--".toList.isPrefixOf (cs ++ '<' :: x) =
      "!--".toList.isPrefixOf (cs ++ '<' :: y) := by
    have hangle : '<' ∉ "!--".toList := by decide
    rw [Bool.eq_iff_iff, List.isPrefixOf_iff_prefix, List.isPrefixOf_iff_prefix,
      prefix_append_cons_iff hangle, prefix_append_cons_iff hangle]
  unfold ScriptPlace.next
  split
  · rw [hword]
  · rfl
  · rfl
  · rfl
  · rw [atScriptWord_append cs x y]
  · rfl
  · rfl
  · rfl
  · cases cs with
    | nil => rfl
    | cons d cs =>
        rw [List.cons_append, List.cons_append]
        split
        · rename_i h
          obtain ⟨rfl, rfl⟩ := List.cons.inj h
          simp only [atScriptWord_append cs x y]
        · rename_i h
          split
          · rename_i h'
            obtain ⟨rfl, -⟩ := List.cons.inj h'
            exact absurd rfl (h _)
          · rfl
  · rfl

theorem endsAt_append (p : ScriptPlace) {cs : List Char} (hlength : 9 ≤ cs.length)
    (rest : List Char) : p.endsAt (cs ++ rest) = p.endsAt cs := by
  have hname : "script".length + 3 ≤ cs.length := hlength
  cases p with
  | nested d => rfl
  | code => exact atEndTagOf_append hname rest
  | comment d => exact atEndTagOf_append hname rest

theorem length_spanScript_le (p : ScriptPlace) (cs : List Char) :
    (spanScript p cs).2.length ≤ cs.length := by
  induction cs generalizing p with
  | nil => exact Nat.le_refl _
  | cons c cs ih =>
      rw [spanScript]
      split
      · exact Nat.le_refl _
      · exact Nat.le_succ_of_le (ih _)

/-- The end tag that is printed for a script, behind its first character. -/
def scriptEnd : List Char := ['/', 's', 'c', 'r', 'i', 'p', 't', '>']

theorem endsAt_scriptEnd (p : ScriptPlace) (cs rest : List Char) :
    p.endsAt (cs ++ '<' :: (scriptEnd ++ rest)) = p.endsAt (cs ++ '<' :: scriptEnd) := by
  have hsplit : cs ++ '<' :: (scriptEnd ++ rest) = cs ++ '<' :: scriptEnd ++ rest := by simp
  rw [hsplit]
  exact endsAt_append p (by simp [scriptEnd]) rest

/-- A script that ends before its end tag ends there whatever follows. -/
theorem spanScript_append {p : ScriptPlace} {cs text : List Char}
    (hspan : spanScript p (cs ++ '<' :: scriptEnd) = (text, '<' :: scriptEnd))
    (rest : List Char) :
    text = cs ∧
      spanScript p (cs ++ '<' :: (scriptEnd ++ rest)) = (cs, '<' :: (scriptEnd ++ rest)) := by
  induction cs generalizing p text with
  | nil =>
      rw [List.nil_append, spanScript] at hspan
      split at hspan
      · rename_i hends
        have hends' : p.endsAt ('<' :: (scriptEnd ++ rest)) = true :=
          (endsAt_scriptEnd p [] rest).trans hends
        rw [List.nil_append, spanScript, if_pos hends']
        exact ⟨(Prod.mk.inj hspan).1.symm, rfl⟩
      · -- what is left after going on is shorter than the end tag
        have hlength := length_spanScript_le (p.next '<' scriptEnd) scriptEnd
        have hafter := congrArg (fun r => r.2.length) hspan
        simp at hlength hafter
        omega
  | cons c cs ih =>
      have hlocal := endsAt_scriptEnd p (c :: cs) rest
      rw [List.cons_append, List.cons_append] at hlocal
      rw [List.cons_append, spanScript] at hspan
      rw [List.cons_append, spanScript, hlocal]
      split at hspan
      · have hlength := congrArg (fun p => p.2.length) hspan
        simp at hlength
        omega
      · rename_i hgoes
        cases hinner : spanScript (p.next c (cs ++ '<' :: scriptEnd)) (cs ++ '<' :: scriptEnd) with
        | mk inner after =>
            rw [hinner] at hspan
            obtain ⟨rfl, rfl⟩ := Prod.mk.inj hspan
            obtain ⟨rfl, hrest⟩ := ih hinner
            rw [if_neg hgoes, next_append p c inner (scriptEnd ++ rest) scriptEnd, hrest]
            exact ⟨rfl, rfl⟩

/-- The reading is that of an element of the name which holds text only. -/
def Reading.IsOf (name : String) : Reading → Prop
  | .markup => False
  | .escapable n => n = name
  | .raw n => n = name
  | .script => name = "script"
  | .plain => False

theorem textOrEndTag?_eq_text {decode : List Char → List Char} {spanned : List Char × List Char}
    {cs rest : List Char} (h : textOrEndTag? decode spanned = some (.text cs, rest)) :
    ∃ text, text ≠ [] ∧ decode text = cs ∧ spanned = (text, rest) := by
  unfold textOrEndTag? at h
  split at h
  · rw [endTag?, Option.map_eq_some_iff] at h
    obtain ⟨t, -, h⟩ := h
    cases h
  · rename_i text _ hne
    cases h
    exact ⟨text, hne, rfl, rfl⟩

theorem textOrEndTag?_of_ne_nil {decode : List Char → List Char} {text rest : List Char}
    (h : text ≠ []) : textOrEndTag? decode (text, rest) = some (.text (decode text), rest) := by
  obtain ⟨c, cs, rfl⟩ := List.exists_cons_of_ne_nil h
  rfl

theorem toList_script : "script".toList = ['s', 'c', 'r', 'i', 'p', 't'] := by decide

/-- **Contents that are read up to their end tag are read so whatever follows the tag.** -/
theorem nextToken?_contents {reading : Reading} {name : String} (hreading : reading.IsOf name)
    (hname : readName name = name) {printed cs : List Char}
    (h : nextToken? reading false (printed ++ '<' :: '/' :: (name.toList ++ ['>'])) =
      some (.text cs, '<' :: '/' :: (name.toList ++ ['>']))) (foreign : Bool) (rest : List Char) :
    nextToken? reading foreign (printed ++ '<' :: '/' :: (name.toList ++ '>' :: rest)) =
      some (.text cs, '<' :: '/' :: (name.toList ++ '>' :: rest)) := by
  cases reading with
  | markup => exact hreading.elim
  | plain => exact hreading.elim
  | raw n =>
      cases hreading
      obtain ⟨text, hne, rfl, hspan⟩ := textOrEndTag?_eq_text h
      obtain ⟨rfl, hrest⟩ := spanRaw_append hname hspan rest
      rw [nextToken?, hrest, textOrEndTag?_of_ne_nil hne]
  | escapable n =>
      cases hreading
      obtain ⟨text, hne, rfl, hspan⟩ := textOrEndTag?_eq_text h
      obtain ⟨rfl, hrest⟩ := spanRaw_append hname hspan rest
      rw [nextToken?, hrest, textOrEndTag?_of_ne_nil hne]
  | script =>
      cases hreading
      rw [toList_script] at h ⊢
      obtain ⟨text, hne, rfl, hspan⟩ := textOrEndTag?_eq_text h
      obtain ⟨rfl, hrest⟩ := spanScript_append hspan rest
      exact (congrArg (textOrEndTag? withoutZeros) hrest).trans (textOrEndTag?_of_ne_nil hne)

/-- The end tag ends the contents. -/
theorem nextToken?_contents_end {reading : Reading} {name : String} (hreading : reading.IsOf name)
    (hname : readName name = name) (hends : rereadsName name = true) (foreign : Bool)
    (rest : List Char) :
    nextToken? reading foreign ('<' :: '/' :: (name.toList ++ '>' :: rest)) =
      some (.endTag name, rest) := by
  have hend := endTag?_append hends rest
  rw [hname] at hend
  have hat := atEndTagOf_closing hname rest
  cases reading with
  | markup => exact hreading.elim
  | plain => exact hreading.elim
  | raw n =>
      cases hreading
      rw [nextToken?, spanRaw, if_pos hat]
      exact hend
  | escapable n =>
      cases hreading
      rw [nextToken?, spanRaw, if_pos hat]
      exact hend
  | script =>
      cases hreading
      have hends : ScriptPlace.code.endsAt ('<' :: '/' :: ("script".toList ++ '>' :: rest)) =
          true := hat
      rw [nextToken?, spanScript, if_pos hends]
      exact hend

end CustomElements.Markup
