import CustomElements.Proofs.Reader.Contents
import CustomElements.Proofs.Reader.Runs

/-!
# Printed text is read as one text

A text is printed with escapes, each of which is a token of its own, and a token of text is cut at
the borders of white space. The pieces are put together again: what is added at the end of a text is
part of it.
-/

namespace CustomElements.Markup

open Builder (TagAttributes isBetweenTags)

namespace Builder

/-! ## Pieces -/

theorem flatten_pieces (cs : List Char) : (pieces cs).flatten = cs := by
  induction cs with
  | nil => rfl
  | cons c rest ih =>
      rw [pieces]
      split
      case h_1 d piece more heq =>
        rw [heq] at ih
        split <;> simp [← ih]
      case h_2 => simp [ih]

theorem ne_nil_of_mem_pieces {cs p : List Char} (hp : p ∈ pieces cs) : p ≠ [] := by
  induction cs generalizing p with
  | nil => cases hp
  | cons c rest ih =>
      rw [pieces] at hp
      split at hp
      case h_1 d piece more heq =>
        rw [heq] at ih
        split at hp
        · rcases List.mem_cons.mp hp with rfl | hp
          · exact List.cons_ne_nil _ _
          · exact ih (List.mem_cons_of_mem _ hp)
        · rcases List.mem_cons.mp hp with rfl | hp
          · exact List.cons_ne_nil _ _
          · exact ih hp
      case h_2 =>
        rcases List.mem_cons.mp hp with rfl | hp
        · exact List.cons_ne_nil _ _
        · exact ih hp

/-- White space is one piece. -/
theorem pieces_eq_singleton {cs : List Char} (hne : cs ≠ [])
    (hcs : ∀ c ∈ cs, isBetweenTags c = true) : pieces cs = [cs] := by
  induction cs with
  | nil => exact absurd rfl hne
  | cons c rest ih =>
      rw [List.forall_mem_cons] at hcs
      cases rest with
      | nil => rfl
      | cons d rest =>
          have hd := (List.forall_mem_cons.mp hcs.2).1
          rw [pieces, ih (List.cons_ne_nil _ _) hcs.2]
          simp only [hcs.1, hd, beq_self_eq_true, if_true]

/-- The reader with text at the end of the innermost open element. -/
def withText (b : Builder) (cs : List Char) : Builder :=
  { b with grove := b.grove.appendText b.current cs }

variable {b : Builder}

theorem withText_withText (hcurrent : b.current < b.grove.cells.size) (cs ds : List Char) :
    (b.withText cs).withText ds = b.withText (cs ++ ds) := by
  rw [withText, withText, withText]
  exact congrArg (fun g => { b with grove := g }) (Grove.appendText_appendText hcurrent cs ds)

/-- A condition under which pieces of the text are put in their place, and which lasts meanwhile. -/
structure TakesPieces (P : Builder → Prop) (cs : List Char) : Prop where
  current : ∀ b, P b → b.current < b.grove.cells.size
  lasts : ∀ b p, P b → P (b.withText p)
  deals : ∀ b p, P b → p ≠ [] → (∀ c ∈ p, c ∈ cs) → b.Deals (.text p) (b.withText p)

variable {P : Builder → Prop} {cs : List Char}

theorem TakesPieces.mono (hP : TakesPieces P cs) {ds : List Char} (hds : ∀ c ∈ ds, c ∈ cs) :
    TakesPieces P ds :=
  ⟨hP.current, hP.lasts, fun b p hb hne hp => hP.deals b p hb hne fun c hc => hds c (hp c hc)⟩

theorem foldl_texts (hP : TakesPieces P cs) {ps : List (List Char)} (hne : ps ≠ [])
    (hps : ∀ p ∈ ps, p ≠ [] ∧ ∀ c ∈ p, c ∈ cs) (hb : P b) :
    (ps.map Token.text).foldl (fun b t => applyWith b.applyFuel b t) b = b.withText ps.flatten := by
  induction ps generalizing b with
  | nil => exact absurd rfl hne
  | cons p ps ih =>
      rw [List.forall_mem_cons] at hps
      have hfirst : applyWith b.applyFuel b (.text p) = b.withText p :=
        applyWith_of_deals (hP.deals b p hb hps.1.1 hps.1.2) _
      rw [List.map_cons, List.foldl_cons, hfirst]
      cases ps with
      | nil => simp
      | cons q ps =>
          rw [ih (List.cons_ne_nil _ _) hps.2 (hP.lasts b p hb),
            withText_withText (hP.current b hb), ← List.flatten_cons]

/-- **The pieces of a text are put together again.** -/
theorem foldl_splitText (hP : TakesPieces P cs) (hne : cs ≠ []) (hb : P b) :
    (splitText (.text cs)).foldl (fun b t => applyWith b.applyFuel b t) b = b.withText cs := by
  have hflatten := flatten_pieces cs
  have hpieces : pieces cs ≠ [] := fun hnil => hne (by rw [← hflatten, hnil]; rfl)
  have hall : ∀ p ∈ pieces cs, p ≠ [] ∧ ∀ c ∈ p, c ∈ cs := fun p hp =>
    ⟨ne_nil_of_mem_pieces hp, fun c hc => hflatten ▸ List.mem_flatten.mpr ⟨p, hp, hc⟩⟩
  rw [splitText, foldl_texts hP hpieces hall hb, hflatten]

theorem apply_text {faulty : Bool} (hP : TakesPieces P cs) (hne : cs ≠ []) (hb : P b)
    (hskip : b.skipNewline = false) : b.apply faulty (.text cs) = b.withText cs := by
  rw [apply_of_skip hskip, foldl_splitText hP hne hb]

/-! ## Where text is put at once -/

variable {s : Surroundings}

/-- Whatever has grown, the surroundings are the same if no open element is changed. -/
theorem StandsIn.regrown (h : b.StandsIn s) {g : Grove} (mode : Mode)
    (hnames : ∀ id ∈ b.stack, g.name id = b.name id) (hsize : b.grove.cells.size ≤ g.cells.size) :
    (b.regrown g mode).StandsIn s :=
  ⟨(List.map_congr_left hnames).trans h.names, h.nonempty,
    fun id hid => Nat.lt_of_lt_of_le (h.valid id hid) hsize, h.formatting, h.settled, h.form,
    h.mode, h.noTemplate, h.fostering, h.reading, h.skipNewline, h.tableText⟩

theorem StandsIn.withText (h : b.StandsIn s) (cs : List Char) : (b.withText cs).StandsIn s :=
  h.regrown b.returnMode (fun id hid => Grove.name_appendText h.current_lt cs (h.valid id hid))
    (Grove.size_le_appendText cs)

end Builder

/-- The rules of the mode put text in its place at once. -/
inductive Surroundings.PutsText (s : Surroundings) (cs : List Char) : Prop where
  | foreign : s.readsTextForeign = true → PutsText s cs
  | flow : s.readsTextForeign = false → s.flows = true → PutsText s cs
  | list : s.readsTextForeign = false → s.mode = .select ∨ s.mode = .selectInTable → PutsText s cs
  | columns : s.readsTextForeign = false → s.mode = .columnGroup →
      (∀ c ∈ cs, isBetweenTags c = true) → PutsText s cs

theorem Surroundings.PutsText.mono {s : Surroundings} {cs ds : List Char} (h : s.PutsText cs)
    (hds : ∀ c ∈ ds, c ∈ cs) : s.PutsText ds := by
  cases h with
  | foreign hforeign => exact .foreign hforeign
  | flow hforeign hflow => exact .flow hforeign hflow
  | list hforeign hmode => exact .list hforeign hmode
  | columns hforeign hmode hcs => exact .columns hforeign hmode fun c hc => hcs c (hds c hc)

namespace Builder.StandsIn

variable {s : Surroundings} {b : Builder} {cs : List Char}

theorem isForeign_text (h : b.StandsIn s) (cs : List Char) :
    b.isForeign (.text cs) = s.readsTextForeign := by
  rw [isForeign, h.currentName_eq, Surroundings.readsTextForeign]
  cases hlanguage : s.current.language == Language.html <;> simp [hlanguage, bne]

theorem putText_eq_withText (h : b.StandsIn s) (hne : cs ≠ []) : b.putText cs = b.withText cs :=
  putText_eq h.fostering hne

theorem foldl_bodyChar (h : b.StandsIn s) (hne : cs ≠ []) (hzero : '\x00' ∉ cs) :
    cs.foldl bodyChar b = b.withText cs := by
  have hchar : ∀ {b : Builder} {c : Char}, b.StandsIn s → c ≠ '\x00' →
      b.bodyChar c = b.withText [c] := fun {b c} h hc => by
    rw [bodyChar, if_neg (by simpa using hc), h.reopenFormatting_eq,
      h.putText_eq_withText (List.cons_ne_nil _ _)]
  induction cs generalizing b with
  | nil => exact absurd rfl hne
  | cons c rest ih =>
      rw [List.mem_cons, not_or] at hzero
      rw [List.foldl_cons, hchar h (Ne.symm hzero.1)]
      cases rest with
      | nil => rfl
      | cons d rest =>
          rw [ih (h.withText _) (List.cons_ne_nil _ _) hzero.2, withText_withText h.current_lt]
          rfl

theorem deals_text (h : b.StandsIn s) (hne : cs ≠ []) (hzero : '\x00' ∉ cs)
    (hputs : s.PutsText cs) : b.Deals (.text cs) (b.withText cs) := by
  rw [Deals, h.isForeign_text]
  cases hputs with
  | foreign hforeign =>
      have hsame : withoutZeros cs = cs := by
        rw [withoutZeros]
        conv_rhs => rw [← List.map_id cs]
        refine List.map_congr_left fun c hc => if_neg ?_
        rw [beq_iff_eq]
        rintro rfl
        exact hzero hc
      rw [hforeign, if_pos rfl, ← h.putText_eq_withText hne, inForeign, hsame]
  | flow hforeign hflow =>
      rw [hforeign, if_neg Bool.false_ne_true, ← h.foldl_bodyChar hne hzero, inMode, h.mode]
      rw [Surroundings.flows_iff] at hflow
      rcases hflow with hm | hm | hm <;> (rw [hm]; rfl)
  | list hforeign hmode =>
      have hsame : cs.filter (· != '\x00') = cs := List.filter_eq_self.mpr fun c hc => by
        rw [bne_iff_ne]
        rintro rfl
        exact hzero hc
      have hselect : b.inSelect (.text cs) = done (b.withText cs) := by
        rw [← h.putText_eq_withText hne, inSelect, hsame]
      rw [hforeign, if_neg Bool.false_ne_true, ← hselect, inMode, h.mode]
      rcases hmode with hm | hm
      · rw [hm]
      · rw [hm]
        rfl
  | columns hforeign hmode hcs =>
      rw [hforeign, if_neg Bool.false_ne_true, ← h.putText_eq_withText hne, inMode, h.mode, hmode]
      simp only [inColumnGroup, List.all_eq_true.mpr hcs, if_true]

theorem takesPieces (hzero : '\x00' ∉ cs) (hputs : s.PutsText cs) :
    TakesPieces (StandsIn s) cs :=
  ⟨fun _ h => h.current_lt, fun _ p h => h.withText p, fun _ _ h hne hp =>
    h.deals_text hne (fun hmem => hzero (hp _ hmem)) (hputs.mono hp)⟩

end Builder.StandsIn

/-! ## The tokens of a printed text -/

theorem escapeTextChar_ne_nil (c : Char) : escapeTextChar c ≠ [] := by
  unfold escapeTextChar
  split_ifs <;> exact List.cons_ne_nil _ _

theorem escapeTextChar_of_not_isEscaped {c : Char} (hc : isEscaped c = false) :
    escapeTextChar c = [c] := by
  simp only [isEscaped, Bool.or_eq_false_iff, beq_eq_false_iff_ne, ne_eq] at hc
  rw [escapeTextChar, if_neg hc.1.1, if_neg hc.1.2, if_neg hc.2]

theorem flatMap_escapeTextChar {cs : List Char} (hcs : ∀ c ∈ cs, isEscaped c = false) :
    cs.flatMap escapeTextChar = cs := by
  induction cs with
  | nil => rfl
  | cons c cs ih =>
      rw [List.forall_mem_cons] at hcs
      rw [List.flatMap_cons, escapeTextChar_of_not_isEscaped hcs.1, ih hcs.2]
      rfl

theorem head?_escaped {c : Char} (hc : isEscaped c = true) {rest : List Char} {d : Char}
    (hd : d ∈ (escapeTextChar c ++ rest).head?) : d = '&' := by
  simp only [isEscaped, Bool.or_eq_true, beq_iff_eq] at hc
  rcases hc with (rfl | rfl) | rfl
  all_goals exact (Option.some.inj hd).symm

theorem length_flatMap_pos {cs : List Char} (hne : cs ≠ []) :
    0 < (cs.flatMap escapeTextChar).length := by
  obtain ⟨c, rest, rfl⟩ := List.exists_cons_of_ne_nil hne
  rw [List.flatMap_cons, List.length_append]
  have hpos := List.length_pos_iff.mpr (escapeTextChar_ne_nil c)
  omega

/-- The first token of a printed text is an escape, or goes up to the first one. -/
theorem exists_textToken {cs : List Char} (hne : cs ≠ []) (foreign : Bool) {rest : List Char}
    (hrest : ∀ c ∈ rest.head?, c = '<') : ∃ first more, cs = first ++ more ∧ first ≠ [] ∧
      markupToken? foreign (cs.flatMap escapeTextChar ++ rest) =
        some (.text first, more.flatMap escapeTextChar ++ rest) := by
  obtain ⟨c, tail, rfl⟩ := List.exists_cons_of_ne_nil hne
  cases hc : isEscaped c with
  | true =>
      refine ⟨[c], tail, rfl, List.cons_ne_nil _ _, ?_⟩
      rw [List.flatMap_cons, List.append_assoc, markupToken?_escaped hc]
  | false =>
      -- what is printed as it stands goes up to the first escape, or to the end of the text
      have hsplit := List.takeWhile_append_dropWhile (p := (!isEscaped ·)) (l := c :: tail)
      have hfirst : ∀ d ∈ (c :: tail).takeWhile (!isEscaped ·), isEscaped d = false := by
        intro d hd
        simpa using List.all_eq_true.mp List.all_takeWhile d hd
      have hfirstNe : (c :: tail).takeWhile (!isEscaped ·) ≠ [] := by
        rw [List.takeWhile_cons_of_pos (by simp [hc])]
        exact List.cons_ne_nil _ _
      refine ⟨(c :: tail).takeWhile (!isEscaped ·), (c :: tail).dropWhile (!isEscaped ·),
        hsplit.symm, hfirstNe, ?_⟩
      conv_lhs => rw [← hsplit, List.flatMap_append, flatMap_escapeTextChar hfirst,
        List.append_assoc]
      refine markupToken?_plain (fun d hd => ?_) hfirstNe foreign fun d hd => ?_
      · have hd := hfirst d hd
        simp only [isEscaped, Bool.or_eq_false_iff, beq_eq_false_iff_ne, ne_eq] at hd
        exact ⟨hd.1.2, hd.1.1⟩
      · cases hmore : (c :: tail).dropWhile (!isEscaped ·) with
        | nil =>
            rw [hmore] at hd
            exact .inl (hrest d hd)
        | cons e more =>
            have he : isEscaped e = true := by
              have hhead := List.head?_dropWhile_not (!isEscaped ·) (c :: tail)
              rw [hmore] at hhead
              simpa using hhead
            rw [hmore, List.flatMap_cons, List.append_assoc] at hd
            exact .inr (head?_escaped he hd)

theorem length_printed_lt {first more rest : List Char} (hne : first ≠ []) :
    (more.flatMap escapeTextChar ++ rest).length <
      ((first ++ more).flatMap escapeTextChar ++ rest).length := by
  have hpos := length_flatMap_pos hne
  rw [List.flatMap_append, List.length_append, List.length_append, List.length_append]
  omega

namespace Builder.StandsIn

variable {s : Surroundings} {b b' : Builder} {cs : List Char}

/-- **A printed text is read as the text.** -/
theorem reads_escaped (h : b.StandsIn s) (hne : cs ≠ []) (hzero : '\x00' ∉ cs)
    (hputs : s.PutsText cs) (hreading : b'.reading = b.reading)
    (hname : b'.currentName = b.currentName)
    (htext : ∀ faulty ds, ds.head? = cs.head? →
      b'.apply faulty (.text ds) = b.apply faulty (.text ds))
    {rest : List Char} (hrest : ∀ c ∈ rest.head?, c = '<') :
    Reads b' (cs.flatMap escapeTextChar ++ rest) (b.withText cs) rest := by
  induction hlength : cs.length using Nat.strongRecOn generalizing cs b b' with
  | ind n ih =>
    obtain ⟨first, more, rfl, hfirst, htoken⟩ :=
      exists_textToken hne (b'.currentName.language != .html) hrest
    have hP := takesPieces hzero hputs
    have hpiece : ∀ faulty, b'.apply faulty (.text first) = b.withText first := by
      intro faulty
      rw [htext faulty first (by rw [List.head?_append_of_ne_nil _ hfirst])]
      exact apply_text (hP.mono fun c hc => List.mem_append_left _ hc) hfirst h h.skipNewline
    have hrun : Reads b' ((first ++ more).flatMap escapeTextChar ++ rest) (b.withText first)
        (more.flatMap escapeTextChar ++ rest) := by
      rw [← hpiece]
      refine .single ?_ (length_printed_lt hfirst)
      rw [hreading, h.reading]
      exact htoken
    -- what is left of the text is added to the node that its beginning has become
    cases more with
    | nil =>
        rw [List.append_nil] at hrun ⊢
        exact hrun
    | cons c more =>
        have hin : ∀ d ∈ c :: more, d ∈ first ++ c :: more := fun d hd =>
          List.mem_append_right _ hd
        have hnext := ih (c :: more).length (by
            have hpos := List.length_pos_iff.mpr hfirst
            rw [← hlength, List.length_append]
            omega) (h.withText first) (List.cons_ne_nil _ _) (fun hmem => hzero (hin _ hmem))
          (hputs.mono hin) rfl rfl (fun _ _ _ => rfl) rfl
        rw [withText_withText h.current_lt] at hnext
        exact hrun.trans hnext

end Builder.StandsIn

/-! ## Text nodes -/

/-- What `takesText` asks for: text is put at once, or is white space between parts of a table. -/
structure Surroundings.TakesText (s : Surroundings) (cs : List Char) : Prop where
  nonempty : cs ≠ []
  noZero : '\x00' ∉ cs
  raw : rawTextNames.contains s.current.name = true → ∀ c ∈ cs, c ≠ '<' ∧ c ≠ '&'
  place : s.PutsText cs ∨ s.readsTextForeign = false ∧
    (s.mode = .table ∨ s.mode = .tableBody ∨ s.mode = .row) ∧ s.current.isTablePart = true ∧
    ∀ c ∈ cs, isBetweenTags c = true

theorem Surroundings.takesText_spec {s : Surroundings} {text : String}
    (h : s.takesText text = true) : s.TakesText text.toList := by
  simp only [takesText, Bool.and_eq_true, Bool.not_eq_true', List.isEmpty_eq_false_iff] at h
  obtain ⟨⟨⟨hne, hzero⟩, hraw⟩, hplace⟩ := h
  refine ⟨hne, ?_, fun hname => ?_, ?_⟩
  case refine_1 =>
    rw [← List.contains_iff_mem, hzero]
    exact Bool.false_ne_true
  case refine_2 =>
    rw [hname, Bool.true_and, Bool.or_eq_false_iff] at hraw
    refine fun c hc => ⟨?_, ?_⟩
    · rintro rfl
      rw [List.contains_iff_mem.mpr hc] at hraw
      cases hraw.1
    · rintro rfl
      rw [List.contains_iff_mem.mpr hc] at hraw
      cases hraw.2
  case refine_3 =>
    cases hforeign : s.readsTextForeign with
    | true => exact .inl (.foreign hforeign)
    | false =>
        rw [hforeign, if_neg Bool.false_ne_true] at hplace
        have hrows : s.mode = .table ∨ s.mode = .tableBody ∨ s.mode = .row →
            (s.current.isTablePart && text.toList.all isBetweenTags) = true →
            s.PutsText text.toList ∨ false = false ∧
              (s.mode = .table ∨ s.mode = .tableBody ∨ s.mode = .row) ∧
              s.current.isTablePart = true ∧ ∀ c ∈ text.toList, isBetweenTags c = true := by
          intro hmode hplace
          rw [Bool.and_eq_true, List.all_eq_true] at hplace
          exact .inr ⟨rfl, hmode, hplace⟩
        split at hplace
        case h_1 hm => exact .inl (.flow hforeign (flows_iff.mpr (.inl hm)))
        case h_2 hm => exact .inl (.flow hforeign (flows_iff.mpr (.inr (.inl hm))))
        case h_3 hm => exact .inl (.flow hforeign (flows_iff.mpr (.inr (.inr hm))))
        case h_4 hm => exact .inl (.list hforeign (.inl hm))
        case h_5 hm => exact .inl (.list hforeign (.inr hm))
        case h_6 hm => exact hrows (.inl hm) hplace
        case h_7 hm => exact hrows (.inr (.inl hm)) hplace
        case h_8 hm => exact hrows (.inr (.inr hm)) hplace
        case h_9 hm => exact .inl (.columns hforeign hm (List.all_eq_true.mp hplace))
        case h_10 => cases hplace

namespace Builder.StandsIn

variable {s : Surroundings} {b b' : Builder} {cs : List Char}

/-- White space directly in a table is held back. -/
theorem apply_between {faulty : Bool} (h : b.StandsIn s) (hne : cs ≠ []) (hzero : '\x00' ∉ cs)
    (hforeign : s.readsTextForeign = false)
    (hmode : s.mode = .table ∨ s.mode = .tableBody ∨ s.mode = .row)
    (hpart : s.current.isTablePart = true) (hcs : ∀ c ∈ cs, isBetweenTags c = true) :
    b.apply faulty (.text cs) = b.between cs := by
  have htable : b.inTable (.text cs) = retryIn { b with returnMode := b.mode } .tableText := by
    rw [← h.currentName_eq] at hpart
    simp only [inTable, hpart, if_true]
  have hfirst : b.inMode (.text cs) = retryIn { b with returnMode := b.mode } .tableText := by
    rw [← htable, inMode, h.mode]
    rcases hmode with hm | hm | hm
    · rw [hm]
    · rw [hm]
      rfl
    · rw [hm]
      rfl
  have hsecond : (retryIn { b with returnMode := b.mode } .tableText).builder.Deals (.text cs)
      (b.between cs) := by
    have hsame : cs.filter (· != '\x00') = cs := List.filter_eq_self.mpr fun c hc => by
      rw [bne_iff_ne]
      rintro rfl
      exact hzero hc
    have hnot : (retryIn { b with returnMode := b.mode } .tableText).builder.isForeign (.text cs) =
        false := (h.isForeign_text cs).trans hforeign
    have hrule : (retryIn { b with returnMode := b.mode } .tableText).builder.inMode (.text cs) =
        done { b with
          mode := .tableText
          returnMode := b.mode
          tableText := (cs.filter (· != '\x00')).reverse ++ b.tableText } := rfl
    rw [Deals, hnot, if_neg Bool.false_ne_true, hrule, hsame, h.tableText, List.append_nil]
    rfl
  have hpieces : splitText (.text cs) = [.text cs] := by
    rw [splitText, pieces_eq_singleton hne hcs]
    rfl
  -- two rounds are spent: the first only changes to the mode that holds text back
  obtain ⟨fuel, hfuel⟩ : ∃ n, b.applyFuel = n + 1 + 1 :=
    ⟨b.applyFuel - 2, by rw [applyFuel]; omega⟩
  rw [apply_of_skip h.skipNewline, hpieces, List.foldl_cons, List.foldl_nil, hfuel, applyWith,
    h.isForeign_text, hforeign]
  simp only [Bool.false_eq_true, if_false, hfirst]
  exact applyWith_of_deals hsecond fuel

theorem toList_render_text (raw : Bool) (text : String) :
    ((Node.text text).render raw).toList =
      if raw then text.toList else text.toList.flatMap escapeTextChar := by
  cases raw with
  | true => rfl
  | false => exact toList_escapeText text

/-- Text without escapes is one token. -/
theorem reads_plain (h : b.StandsIn s) (hreading : b'.reading = b.reading) (hne : cs ≠ [])
    (hcs : ∀ c ∈ cs, c ≠ '<' ∧ c ≠ '&') {rest : List Char} (hrest : ∀ c ∈ rest.head?, c = '<') :
    Reads b' (cs ++ rest) (b'.apply (beginsFaulty (cs ++ rest)) (.text cs)) rest := by
  refine .single ?_ ?_
  · rw [hreading, h.reading]
    exact markupToken?_plain hcs hne _ fun c hc => .inl (hrest c hc)
  · have hpos := List.length_pos_iff.mpr hne
    rw [List.length_append]
    omega

/--
**Text that may stand where it stands is read as one node**, or is held back up to the next tag.
-/
theorem reads_text (h : b.StandsIn s) {text : String} {more : List Node}
    (hb' : StandsFor (.text text :: more) b' b) (htakes : s.takesText text = true)
    (hlast : b.grove.endsInText b.current = false) (hmore : startsWithText more = false)
    {rest : List Char} (hrest : ∀ c ∈ rest.head?, c = '<') : ∃ mode b₁,
      Reads b' (((Node.text text).render (rawTextNames.contains s.current.name)).toList ++ rest)
        b₁ rest ∧
      StandsFor more b₁
        (b.regrown (b.grove.attach b.current (.text text.toList.reverse)) mode) := by
  obtain ⟨hne, hzero, hraw, hplace⟩ := Surroundings.takesText_spec htakes
  have htext : ∀ faulty ds, ds.head? = text.toList.head? →
      b'.apply faulty (.text ds) = b.apply faulty (.text ds) := by
    intro faulty ds hds
    refine hb'.text rfl faulty ds ?_
    rw [hds, startsWithNewline, beq_iff_eq]
    exact em _
  rw [← Grove.appendText_eq_attach hlast, toList_render_text]
  rcases hplace with hputs | ⟨hforeign, hmode, hpart, hspace⟩
  case inl =>
    refine ⟨b.returnMode, b.withText text.toList, ?_, (h.withText _).standsFor more⟩
    cases hname : rawTextNames.contains s.current.name with
    | true =>
        rw [if_pos rfl, ← apply_text (takesPieces hzero hputs) hne h h.skipNewline,
          ← htext _ _ rfl]
        exact h.reads_plain hb'.reading hne (hraw hname) hrest
    | false =>
        rw [if_neg Bool.false_ne_true]
        exact h.reads_escaped hne hzero hputs hb'.reading hb'.currentName htext hrest
  case inr =>
    -- white space has no escapes, so it is one token and is held back as a whole
    have hnot : ∀ c ∈ text.toList, isEscaped c = false := fun c hc => by
      have hc := hspace c hc
      simp only [isBetweenTags, isTagSpace, Bool.or_eq_true, beq_iff_eq] at hc
      rcases hc with (((rfl | rfl) | rfl) | rfl) | rfl <;> rfl
    have hplain : ∀ c ∈ text.toList, c ≠ '<' ∧ c ≠ '&' := fun c hc => by
      have hc := hnot c hc
      simp only [isEscaped, Bool.or_eq_false_iff, beq_eq_false_iff_ne, ne_eq] at hc
      exact ⟨hc.1.2, hc.1.1⟩
    have hlanguage : b.currentName.language = .html := by
      rw [h.currentName_eq]
      rw [ElementName.isTablePart, ElementName.isHtmlOf, Bool.and_eq_true, beq_iff_eq] at hpart
      exact hpart.1
    refine ⟨b.mode, b.between text.toList, ?_, standsFor_between h.skipNewline h.fostering
      h.tableText hlanguage h.current_lt hne (List.all_eq_true.mpr hspace) hmore⟩
    rw [flatMap_escapeTextChar hnot, ite_self,
      ← h.apply_between hne hzero hforeign hmode hpart hspace, ← htext _ _ rfl]
    exact h.reads_plain hb'.reading hne hplain hrest

end Builder.StandsIn

end CustomElements.Markup
