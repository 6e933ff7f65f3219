import CustomElements.Proofs.Reader.Leaves

/-!
# Runs of a reader

A run takes one token after the other. Between two tokens a reader may still hold something back:
the line feed that may follow a tag, or the white space that was found directly in a table.
`StandsFor` says that it will go on as if it did not.
-/

namespace CustomElements.Markup

open Builder (TagAttributes)

namespace Builder

/-- The reader takes tokens from the text until the rest is left. -/
inductive Reads : Builder → List Char → Builder → List Char → Prop where
  | refl {b : Builder} {cs : List Char} : Reads b cs b cs
  | step {b c : Builder} {cs after rest : List Char} {t : Token} :
      nextToken? b.reading (b.currentName.language != .html) cs = some (t, after) →
      after.length < cs.length → Reads (b.apply (beginsFaulty cs) t) after c rest →
      Reads b cs c rest

namespace Reads

variable {b c d : Builder} {cs ds rest : List Char}

theorem trans (hbc : Reads b cs c ds) (hcd : Reads c ds d rest) : Reads b cs d rest := by
  induction hbc with
  | refl => exact hcd
  | step htoken hlength _ ih => exact .step htoken hlength (ih hcd)

theorem single {t : Token}
    (htoken : nextToken? b.reading (b.currentName.language != .html) cs = some (t, rest))
    (hlength : rest.length < cs.length) : Reads b cs (b.apply (beginsFaulty cs) t) rest :=
  .step htoken hlength .refl

/-- **A run that uses up the text is what the reader does.** -/
theorem readAll_eq (h : Reads b cs c []) (hreading : c.reading = .markup) {fuel : Nat}
    (hfuel : cs.length < fuel) : b.readAll fuel cs = c := by
  generalize hend : ([] : List Char) = rest at h
  induction h generalizing fuel with
  | refl =>
      subst hend
      obtain ⟨fuel, rfl⟩ : ∃ n, fuel = n + 1 := ⟨fuel - 1, by omega⟩
      rw [readAll, hreading]
      rfl
  | step htoken hlength _ ih =>
      obtain ⟨fuel, rfl⟩ : ∃ n, fuel = n + 1 := ⟨fuel - 1, by omega⟩
      rw [readAll, htoken]
      exact ih hreading (by omega) hend

end Reads

/-! ## One token -/

theorem dropNewline_false (t : Token) : dropNewline false t = t := by
  unfold dropNewline
  split <;> rfl

variable {b b' c : Builder} {faulty : Bool} {t : Token}

theorem applyWith_of_deals (h : b.Deals t c) (fuel : Nat) : applyWith (fuel + 1) b t = c := by
  rw [Deals] at h
  simp only [applyWith, h]
  rfl

theorem apply_of_skip (hskip : b.skipNewline = false) :
    b.apply faulty t = (splitText t).foldl (fun b t => applyWith b.applyFuel b t) b := by
  have hsame : { b with skipNewline := false } = b := by rw [← hskip]
  rw [apply, hskip, Bool.false_and, dropNewline_false, hsame]

theorem apply_tag (ht : ∀ cs, t ≠ .text cs) (b : Builder) :
    b.apply faulty t = applyWith b.applyFuel { b with skipNewline := false } t := by
  cases t with
  | text cs => exact absurd rfl (ht cs)
  | startTag => rfl
  | endTag => rfl
  | comment => rfl
  | ignored => rfl

theorem apply_of_deals (ht : ∀ cs, t ≠ .text cs) (hskip : b.skipNewline = false)
    (h : b.Deals t c) : b.apply faulty t = c := by
  have hsame : { b with skipNewline := false } = b := by rw [← hskip]
  rw [apply_tag ht, hsame]
  exact applyWith_of_deals h _

/-! ## What is held back -/

/--
The reader will do to what follows as the other one, which holds nothing back. The nodes are those
that follow: what is held back may change what a text does, but not what a tag does.
-/
structure StandsFor (more : List Node) (b' b : Builder) : Prop where
  reading : b'.reading = b.reading
  currentName : b'.currentName = b.currentName
  tag : ∀ faulty t c, (∀ cs, t ≠ .text cs) → b.Deals t c → b'.apply faulty t = c
  text : startsWithText more = true → ∀ faulty cs,
    (startsWithNewline more = true ∨ cs.head? ≠ some '\n') →
      b'.apply faulty (.text cs) = b.apply faulty (.text cs)
  finish : b'.finish.grove = b.grove

variable {s : Surroundings}

theorem StandsIn.mode_ne_tableText (h : b.StandsIn s) : b.mode ≠ .tableText := by
  rw [h.mode]
  exact (modeOf_ne h.noTemplate).2.1

theorem standsFor_self (hskip : b.skipNewline = false) (hmode : b.mode ≠ .tableText)
    (more : List Node) : StandsFor more b b :=
  ⟨rfl, rfl, fun _ _ _ ht hdeals => apply_of_deals ht hskip hdeals, fun _ _ _ _ => rfl,
    by rw [finish, if_neg hmode]⟩

theorem StandsIn.standsFor (h : b.StandsIn s) (more : List Node) : StandsFor more b b :=
  standsFor_self h.skipNewline h.mode_ne_tableText more

/-- A line feed that is not there is not dropped. -/
theorem standsFor_line (hskip : b.skipNewline = false) (hmode : b.mode ≠ .tableText)
    {more : List Node} (hmore : startsWithNewline more = false) :
    StandsFor more { b with skipNewline := true } b := by
  have hsame : { b with skipNewline := false } = b := by rw [← hskip]
  refine ⟨rfl, rfl, fun faulty t c ht hdeals => ?_, fun _ faulty cs hcs => ?_, ?_⟩
  case refine_1 =>
    rw [apply_tag ht]
    show applyWith b.applyFuel { b with skipNewline := false } t = c
    rw [hsame]
    exact applyWith_of_deals hdeals _
  case refine_2 =>
    have hdrop : ∀ skip, dropNewline skip (.text cs) = .text cs := by
      rcases hcs with hcs | hcs
      · rw [hmore] at hcs
        cases hcs
      · intro skip
        unfold dropNewline
        split
        · rename_i heq
          cases heq
          exact absurd rfl hcs
        · rfl
    rw [apply, hdrop, apply, hdrop]
  case refine_3 => rw [finish, if_neg hmode]

/-- The start of an element may let the reader drop a line feed that is not there. -/
theorem standsFor_skipping (hskip : b.skipNewline = false) (hmode : b.mode ≠ .tableText)
    {more : List Node} {skips : Bool} (hmore : (skips && startsWithNewline more) = false) :
    StandsFor more { b with skipNewline := skips } b := by
  cases skips with
  | true => exact standsFor_line hskip hmode hmore
  | false =>
      have hsame : { b with skipNewline := false } = b := by rw [← hskip]
      rw [hsame]
      exact standsFor_self hskip hmode more

/-- The reader with white space that was found directly in a table. -/
def between (b : Builder) (cs : List Char) : Builder :=
  { b with mode := .tableText, returnMode := b.mode, tableText := cs.reverse }

theorem putText_eq (hfostering : b.fostering = false) {cs : List Char} (hne : cs ≠ []) :
    b.putText cs = { b with grove := b.grove.appendText b.current cs } := by
  have hplace : b.placeFor b.current = .lastChild b.current := by
    rw [placeFor, hfostering]
    rfl
  rw [putText, hplace, if_neg (by simpa using hne)]

theorem flushTableText_between (hfostering : b.fostering = false) (htableText : b.tableText = [])
    {cs : List Char} (hne : cs ≠ []) (hcs : cs.all isBetweenTags = true) :
    (b.between cs).flushTableText = b.regrown (b.grove.appendText b.current cs) b.mode := by
  have hrule : (b.between cs).flushTableText =
      if cs.reverse.reverse.all isBetweenTags then
        ({ b with returnMode := b.mode, tableText := [] } : Builder).putText cs.reverse.reverse
      else ({ b with returnMode := b.mode, tableText := [] } : Builder).fostered
        (.text cs.reverse.reverse) := rfl
  rw [hrule, List.reverse_reverse, if_pos hcs, ← htableText,
    putText_eq (b := { b with returnMode := b.mode }) hfostering hne]
  rfl

/-- White space between the parts of a table is put where it was found before the next tag. -/
theorem standsFor_between {cs : List Char} (hskip : b.skipNewline = false)
    (hfostering : b.fostering = false) (htableText : b.tableText = [])
    (hlanguage : b.currentName.language = .html) (hcurrent : b.current < b.grove.cells.size)
    (hne : cs ≠ []) (hcs : cs.all isBetweenTags = true) {more : List Node}
    (hmore : startsWithText more = false) :
    StandsFor more (b.between cs) (b.regrown (b.grove.appendText b.current cs) b.mode) := by
  have hflush := flushTableText_between hfostering htableText hne hcs
  refine ⟨rfl, ?_, fun faulty t c ht hdeals => ?_, fun htext => ?_, ?_⟩
  case refine_1 =>
    exact (Grove.name_appendText hcurrent cs hcurrent).symm
  case refine_2 =>
    -- one rule puts the white space in its place, and the next one deals with the tag
    have hforeign : (b.between cs).isForeign t = false := by
      have hname : (b.between cs).currentName.language = .html := hlanguage
      simp only [isForeign, hname, beq_self_eq_true, if_true]
    have hmodeText : (b.between cs).inMode t = ⟨(b.between cs).flushTableText, true⟩ := by
      cases t with
      | text cs => exact absurd rfl (ht cs)
      | startTag => rfl
      | endTag => rfl
      | comment => rfl
      | ignored => rfl
    have hsame : { b.between cs with skipNewline := false } = b.between cs := by rw [← hskip]; rfl
    obtain ⟨fuel, hfuel⟩ : ∃ n, (b.between cs).applyFuel = n + 1 + 1 :=
      ⟨(b.between cs).applyFuel - 2, by rw [applyFuel]; omega⟩
    rw [apply_tag ht, hsame, hfuel, applyWith, hforeign]
    simp only [Bool.false_eq_true, if_false, hmodeText, if_true, hflush]
    exact applyWith_of_deals hdeals fuel
  case refine_3 =>
    rw [hmore] at htext
    cases htext
  case refine_4 =>
    have hfinish : (b.between cs).finish = (b.between cs).flushTableText := rfl
    rw [hfinish, hflush]

end Builder

end CustomElements.Markup
