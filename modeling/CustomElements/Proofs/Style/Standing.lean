import CustomElements.Proofs.Style.Losses

/-!
# Pieces of source text

The parser keeps selectors, preambles, values and blocks as source text without white space at the
ends, and the printer sets a mark behind each of them, some with a blank before it. A piece `stands`
before its mark if it is cut off right there. The tokens of such a piece are the same whatever
follows the mark, so that the piece is read back wherever it is printed (`exists_piece`), and a
piece that was read back stands (`stands_of_ends`).
-/

namespace CustomElements.Style

open Token (isPlainName tokens textOf)

/-! ## Trimmed texts -/

/-- The text does not begin with white space. -/
def Solid (cs : List Char) : Prop := ∀ c ∈ cs.head?, Text.isBlank c = false

/-- The text has no white space at its ends. -/
def Trimmed (cs : List Char) : Prop := Solid cs ∧ Solid cs.reverse

theorem solid_dropWhile (cs : List Char) : Solid (cs.dropWhile Text.isBlank) := by
  intro c hc
  have := List.head?_dropWhile_not Text.isBlank cs
  rw [Option.mem_def.mp hc] at this
  exact this

theorem solid_of_initial {cs ds : List Char} (h : cs <+: ds) (hds : Solid ds) : Solid cs := by
  obtain ⟨rest, rfl⟩ := h
  intro c hc
  refine hds c ?_
  cases cs with
  | nil => cases hc
  | cons d cs => exact hc

theorem trimmed_trim (cs : List Char) : Trimmed (Text.trim cs) := by
  refine ⟨solid_of_initial ?_ (solid_dropWhile cs), ?_⟩
  · rw [Text.trim, Text.trimEnd, ← List.reverse_suffix, List.reverse_reverse]
    exact List.dropWhile_suffix _
  · rw [Text.trim, Text.trimEnd, List.reverse_reverse]
    exact solid_dropWhile _

theorem dropWhile_blank {w cs : List Char} (hw : Blank w) (hcs : Solid cs) :
    (w ++ cs).dropWhile Text.isBlank = cs := by
  rw [List.dropWhile_append_of_pos hw]
  cases cs with
  | nil => rfl
  | cons c cs => rw [List.dropWhile_cons, hcs c rfl]; rfl

theorem takeWhile_blank {w cs : List Char} (hw : Blank w) (hcs : Solid cs) :
    (w ++ cs).takeWhile Text.isBlank = w := by
  rw [List.takeWhile_append_of_pos hw]
  cases cs with
  | nil => simp
  | cons c cs => rw [List.takeWhile_cons, hcs c rfl]; simp

theorem trim_between {before cs after : List Char} (hb : Blank before) (ha : Blank after)
    (hcs : Trimmed cs) : Text.trim (before ++ (cs ++ after)) = cs := by
  cases cs with
  | nil =>
      have hall : Blank (before ++ after) := fun c hc =>
        (List.mem_append.mp hc).elim (hb c) (ha c)
      have hnil : (before ++ after).dropWhile Text.isBlank = [] := by
        rw [List.dropWhile_eq_nil_iff]
        exact hall
      rw [List.nil_append, Text.trim, Text.trimStart, hnil]
      rfl
  | cons c cs =>
      have hsolid : Solid (c :: cs ++ after) := fun d hd => hcs.1 d hd
      rw [Text.trim, Text.trimStart, dropWhile_blank hb hsolid, Text.trimEnd, List.reverse_append,
        dropWhile_blank (fun d hd => ha d (List.mem_reverse.mp hd)) hcs.2, List.reverse_reverse]

/-- White space in front of solid text can be told from it. -/
theorem blank_append_inj {w w' cs cs' : List Char} (hw : Blank w) (hw' : Blank w') (hcs : Solid cs)
    (hcs' : Solid cs') (h : w ++ cs = w' ++ cs') : w = w' ∧ cs = cs' := by
  have hw := takeWhile_blank hw hcs
  rw [h, takeWhile_blank hw' hcs'] at hw
  rw [hw] at h
  exact ⟨hw.symm, List.append_cancel_left h⟩

/-- Where a text that is trimmed ends, if white space and solid text stand around it. -/
theorem trim_align {cs rest w w' rest' : List Char} (hw : Blank w) (hw' : Blank w')
    (hrest : Solid rest) (hrest' : Solid rest')
    (h : cs ++ rest = w ++ (Text.trim cs ++ (w' ++ rest'))) :
    cs = w ++ (Text.trim cs ++ w') ∧ rest = rest' := by
  obtain ⟨before, after, hbefore, hafter, hcs⟩ := exists_trim cs
  have htrimmed := trimmed_trim cs
  generalize Text.trim cs = s at h hcs htrimmed ⊢
  subst hcs
  cases s with
  | nil =>
      -- all of the text is white space
      have hall : Blank (before ++ after) := fun c hc =>
        (List.mem_append.mp hc).elim (hbefore c) (hafter c)
      have hall' : Blank (w ++ w') := fun c hc => (List.mem_append.mp hc).elim (hw c) (hw' c)
      rw [List.nil_append, List.nil_append, ← List.append_assoc w] at h
      exact blank_append_inj hall hall' hrest hrest' h
  | cons c s =>
      have hsolid : ∀ ds, Solid (c :: s ++ ds) := fun ds d hd => htrimmed.1 d hd
      rw [List.append_assoc, List.append_assoc (c :: s)] at h
      obtain ⟨rfl, hbehind⟩ := blank_append_inj hbefore hw (hsolid _) (hsolid _) h
      obtain ⟨rfl, rfl⟩ :=
        blank_append_inj hafter hw' hrest hrest' (List.append_cancel_left hbehind)
      exact ⟨rfl, rfl⟩

/-! ## Texts that stand before a mark -/

/-- The text, with `tail` and the mark behind it, is cut off right before the mark. -/
def stands (stop : Token.Kind → Bool) (s : String) (tail : List Char) (m : Mark) : Bool :=
  (cut stop (tokens (s.toList ++ (tail ++ [m.char])))).2 == [m.token]

/-- Only marks are accepted. -/
def OnlyMarks (stop : Token.Kind → Bool) : Prop := ∀ k, stop k = true → ∃ m : Mark, k = m.kind

theorem textOf_append (ts us : List Token) : textOf (ts ++ us) = textOf ts ++ textOf us :=
  List.flatMap_append

section Stands

variable {stop : Token.Kind → Bool} {s : String} {tail l : List Char} {m : Mark}

theorem exists_of_stands (h : stands stop s tail m = true) :
    ∃ ts, Passes stop [] ts ∧ textOf ts = s.toList ++ tail ∧
      ∀ r, tokens (s.toList ++ (tail ++ m.char :: r)) = ts ++ m.token :: tokens r := by
  rw [stands, beq_iff_eq] at h
  rcases hcut : cut stop (tokens (s.toList ++ (tail ++ [m.char]))) with ⟨ts, us⟩
  rw [hcut] at h
  cases h
  have htokens : tokens (s.toList ++ tail ++ [m.char]) = ts ++ [m.token] := by
    rw [List.append_assoc, ← cut_append stop (tokens _), hcut]
  have htext := congrArg textOf htokens
  rw [Token.textOf_tokens, textOf_append] at htext
  replace htext := List.append_cancel_right htext
  refine ⟨ts, (Passes.of_cutWithin hcut).1, htext.symm, fun r => ?_⟩
  rw [← List.append_assoc]
  exact Token.tokens_resume m htokens htext.symm r

theorem stands_of_tokens {r : List Char} {ts us : List Token}
    (htokens : tokens (s.toList ++ (tail ++ m.char :: r)) = ts ++ us)
    (htext : textOf ts = s.toList ++ tail) (hends : Ends stop ts us) :
    stands stop s tail m = true := by
  rw [← List.append_assoc] at htokens
  have hrest : textOf us = m.char :: r := by
    have := congrArg textOf htokens
    rw [Token.textOf_tokens, textOf_append, htext] at this
    exact (List.append_cancel_left this).symm
  have hus : us = m.token :: tokens r := by
    rw [Token.eq_tokens_of_append htokens, hrest, Token.tokens_mark]
  rw [Ends, hus] at hends
  obtain ⟨hpasses, hstop⟩ := Passes.of_cutWithin hends
  rw [stands, beq_iff_eq, ← List.append_assoc, Token.tokens_resume m htokens htext [],
    hpasses.cut_cons hstop]
  rfl

theorem isBlank_char (m : Mark) : Text.isBlank m.char = false := by
  cases m <;> rfl

theorem OnlyMarks.blank (h : OnlyMarks stop) : stop .blank = false := by
  refine Bool.eq_false_iff.mpr fun hstop => ?_
  obtain ⟨m, hm⟩ := h _ hstop
  cases m <;> cases hm

theorem isBlank_of_isSpace {c : Char} (h : Token.isSpace c = true) : Text.isBlank c = true := by
  simp only [Token.isSpace, Token.isNewline, Bool.or_eq_true, beq_iff_eq] at h
  rcases h with (rfl | rfl) | (rfl | rfl) | rfl <;> rfl

/-- The token of a single blank. -/
def blankToken : Token := ⟨.blank, [' ']⟩

theorem OnlyMarks.passes_blank (h : OnlyMarks stop) : Passes stop [] [blankToken] :=
  ⟨h.blank, rfl⟩

theorem tokens_blankToken {cs : List Char} (hcs : cs.head?.any Token.isSpace = false) :
    tokens (' ' :: cs) = blankToken :: tokens cs :=
  Token.tokens_blank (w := [' ']) (fun c hc => by rw [List.mem_singleton.mp hc]; rfl)
    (List.cons_ne_nil _ _) hcs

theorem tokens_closeCurly (r : List Char) :
    tokens ('\x7d' :: r) = Mark.closeCurly.token :: tokens r :=
  Token.tokens_mark .closeCurly r

theorem tokens_blank_closeCurly (r : List Char) :
    tokens (' ' :: '\x7d' :: r) = blankToken :: Mark.closeCurly.token :: tokens r := by
  rw [tokens_blankToken (by rfl), tokens_closeCurly]

theorem Solid.head_any {cs : List Char} (h : Solid cs) : cs.head?.any Token.isSpace = false := by
  cases cs with
  | nil => rfl
  | cons c cs =>
      refine Bool.eq_false_iff.mpr fun hspace => ?_
      have hc := h c rfl
      rw [isBlank_of_isSpace hspace] at hc
      exact absurd hc (by decide)

theorem Trimmed.solid_append (hs : Trimmed s.toList) (hne : s ≠ "") (cs : List Char) :
    Solid (s.toList ++ cs) := by
  cases hcs : s.toList with
  | nil => exact absurd (String.toList_eq_nil_iff.mp hcs) hne
  | cons c cs =>
      intro d hd
      exact hs.1 d (by rw [hcs]; exact hd)

/-- A text that stands before a mark is read as the piece that it was. -/
theorem exists_piece (tail : List Char) (h : stands stop s tail m = true) (hmarks : OnlyMarks stop)
    (htail : Blank tail) (hs : Trimmed s.toList) (hl : l = [] ∨ l = [' '] ∧ s ≠ "") :
    ∃ ts, Passes stop [] ts ∧ trimmedText ts = s ∧
      ∀ r, tokens (l ++ (s.toList ++ (tail ++ m.char :: r))) = ts ++ m.token :: tokens r := by
  obtain ⟨ts, hpasses, htext, htokens⟩ := exists_of_stands h
  have htrim : ∀ before, Blank before → Text.trim (before ++ textOf ts) = s.toList := by
    intro before hbefore
    rw [htext, trim_between hbefore htail hs]
  rcases hl with rfl | ⟨rfl, hne⟩
  · refine ⟨ts, hpasses, ?_, htokens⟩
    rw [trimmedText, ← List.nil_append (textOf ts), htrim [] blank_nil, String.ofList_toList]
  · have hblank : Blank [' '] := fun c hc => by rw [List.mem_singleton.mp hc]; rfl
    refine ⟨blankToken :: ts, hmarks.passes_blank.append hpasses, ?_, fun r => ?_⟩
    · rw [trimmedText]
      change String.ofList (Text.trim ([' '] ++ textOf ts)) = s
      rw [htrim _ hblank, String.ofList_toList]
    · rw [List.singleton_append, tokens_blankToken (hs.solid_append hne _).head_any, htokens]
      rfl

/-- A piece that is read back as it was stands before its mark. -/
theorem stands_of_ends (tail : List Char) {r : List Char} {ts us : List Token}
    (htokens : tokens (l ++ (s.toList ++ (tail ++ m.char :: r))) = ts ++ us)
    (hs : trimmedText ts = s) (hl : l = [] ∨ l = [' '] ∧ s ≠ "") (htail : Blank tail)
    (hends : Ends stop ts us) (hmarks : OnlyMarks stop) :
    stands stop s tail m = true ∧ us = m.token :: tokens r := by
  have hsolid : Solid (textOf us) := by
    cases us with
    | nil => exact fun _ hc => by cases hc
    | cons u us =>
        obtain ⟨m', hm'⟩ := hmarks _ (Passes.of_cutWithin hends).2
        have hu : u.Sound := Token.sound_of_mem_tokens
          (by rw [htokens]; exact List.mem_append_right _ (.head _))
        intro c hc
        rw [textOf, List.flatMap_cons, hu.mark m' hm'] at hc
        cases hc
        exact isBlank_char m'
  have hblank : Blank l := by
    rcases hl with rfl | ⟨rfl, -⟩
    · exact blank_nil
    · intro c hc
      rw [List.mem_singleton.mp hc]
      rfl
  have hs' : s.toList = Text.trim (textOf ts) := by rw [← hs, trimmedText, String.toList_ofList]
  have htext := congrArg textOf htokens
  rw [Token.textOf_tokens, textOf_append, hs'] at htext
  -- the tokens and the printed text agree as texts, and trimming finds the piece in both
  obtain ⟨hts, hus⟩ := trim_align hblank htail hsolid
    (fun c hc => by cases hc; exact isBlank_char m) htext.symm
  have hus' : us = m.token :: tokens r := by
    rw [Token.eq_tokens_of_append htokens, hus, Token.tokens_mark]
  refine ⟨?_, hus'⟩
  rw [← hs'] at hts
  rcases hl with rfl | ⟨rfl, hne⟩
  · exact stands_of_tokens htokens hts hends
  · have htrimmed : Trimmed s.toList := hs' ▸ trimmed_trim _
    rw [List.singleton_append, tokens_blankToken (htrimmed.solid_append hne _).head_any] at htokens
    cases ts with
    | nil => cases hts
    | cons t ts =>
        rw [List.cons_append, List.cons.injEq] at htokens
        obtain ⟨rfl, htokens⟩ := htokens
        rw [textOf, List.flatMap_cons, List.singleton_append] at hts
        exact stands_of_tokens htokens (List.cons.inj hts).2
          (Ends.drop [blankToken] hends hmarks.passes_blank)

end Stands

end CustomElements.Style
