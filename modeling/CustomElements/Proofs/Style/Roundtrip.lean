import CustomElements.Proofs.Style.Rereading

/-!
# When a scoped sheet is read back from its text

The printer sets names without escapes and joins pieces of source text with marks and blanks of its
own. A sheet that survives this (`Sheet.survives`) is read back as it was printed: the text of each
rule is cut into tokens of its own whatever follows (`Rule.Written`), and those of a body one after
the other (`WrittenBody`). With `survives_of_parse` this decides when the text of a scoped sheet
stands for it (`parse_render_scoped`).

Not every sheet that was read survives. A property whose name was written with an escape is printed
without it, and what is read then need not be a name.
-/

namespace CustomElements.Style

open Token (isPlainName tokens textOf)

/-! ## Where reading starts -/

section Reads

variable {ts : List Token} {rules : List Rule}

/-- A token without a meaning in front changes nothing. -/
theorem Reads.gap_cons {first : Bool} {t : Token} (ht : t.isGap = true) :
    Reads first (t :: ts) rules ↔ Reads first ts rules := by
  have hdrop : (t :: ts).dropWhile Token.isGap = ts.dropWhile Token.isGap := by
    rw [List.dropWhile_cons, ht, if_pos rfl]
  constructor <;> intro h <;> cases h with
  | nil hgap => exact .nil (by simpa only [hdrop] using hgap)
  | charset hgap ht hname hrest => exact .charset (by simpa only [hdrop] using hgap) ht hname hrest
  | statement hgap ht hname hcut hafter hrest =>
      exact .statement (by simpa only [hdrop] using hgap) ht hname hcut hafter hrest
  | verbatim hgap ht hname hcut hu hblock hgroup hrest =>
      exact .verbatim (by simpa only [hdrop] using hgap) ht hname hcut hu hblock hgroup hrest
  | group hgap ht hname hcut hu hblock hgroup hinner hrest =>
      exact .group (by simpa only [hdrop] using hgap) ht hname hcut hu hblock hgroup hinner hrest
  | style hgap ht hcut hblock htexts hrest =>
      exact .style (by simpa only [hdrop] using hgap) ht hcut hblock htexts hrest

/-- Where no `@charset` comes first it does not matter whether the rules are the first. -/
theorem Reads.first (h : Reads false ts rules) (hcharset : beginsWithCharset rules = false) :
    Reads true ts rules := by
  have hname : ∀ {name : List Char}, isCharset (String.ofList name).toList = false →
      (true && isCharset name) = false := fun h => by rwa [String.toList_ofList] at h
  cases h with
  | nil hgap => exact .nil hgap
  | statement hgap ht _ hcut hafter hrest =>
      exact .statement hgap ht (hname hcharset) hcut hafter hrest
  | verbatim hgap ht _ hcut hu hblock hgroup hrest =>
      exact .verbatim hgap ht (hname hcharset) hcut hu hblock hgroup hrest
  | group hgap ht _ hcut hu hblock hgroup hinner hrest =>
      exact .group hgap ht (hname hcharset) hcut hu hblock hgroup hinner hrest
  | style hgap ht hcut hblock htexts hrest => exact .style hgap ht hcut hblock htexts hrest

end Reads

/-! ## What is read is trimmed -/

theorem trimmed_trimmedText (ts : List Token) : Trimmed (trimmedText ts).toList := by
  rw [trimmedText, String.toList_ofList]
  exact trimmed_trim _

theorem trimmed_of_selectorTexts {parts : List (List Token)} {offset : Nat} {texts : List String}
    (h : selectorTexts offset parts = .ok texts) : ∀ s ∈ texts, Trimmed s.toList ∧ s ≠ "" := by
  induction parts generalizing offset texts with
  | nil =>
      cases h
      exact fun _ hs => absurd hs List.not_mem_nil
  | cons part parts ih =>
      obtain ⟨hne, others, hothers, rfl⟩ := selectorTexts_cons h
      exact List.forall_mem_cons.mpr ⟨⟨trimmed_trimmedText _, hne⟩, ih hothers⟩

theorem trimmed_scopedSelector {s : String} (id : String) (hs : Trimmed s.toList) (hne : s ≠ "") :
    Trimmed (scopedSelector id s).toList ∧ scopedSelector id s ≠ "" := by
  have htext : (scopedSelector id s).toList = '.' :: (id.toList ++ '-' :: s.toList) := by
    simp [scopedSelector]
  refine ⟨⟨fun c hc => ?_, ?_⟩, fun h => ?_⟩
  · rw [htext] at hc
    cases hc
    rfl
  · rw [htext]
    have hreverse : ('.' :: (id.toList ++ '-' :: s.toList)).reverse =
        s.toList.reverse ++ ('.' :: (id.toList ++ ['-'])).reverse := by simp
    rw [hreverse]
    cases hrev : s.toList.reverse with
    | nil => exact absurd (String.toList_eq_nil_iff.mp (List.reverse_eq_nil_iff.mp hrev)) hne
    | cons c cs =>
        intro d hd
        exact hs.2 d (by rw [hrev]; exact hd)
  · rw [h] at htext
    cases htext

theorem trimmed_of_declarations (fuel : Nat) (ts : List Token) :
    ∀ d ∈ declarations fuel ts, Trimmed d.value.toList ∧ d.value ≠ "" := by
  induction fuel generalizing ts with
  | zero => exact fun _ hd => absurd hd List.not_mem_nil
  | succ fuel ih =>
      cases ts with
      | nil => exact fun _ hd => absurd hd List.not_mem_nil
      | cons t rest =>
          by_cases ht : ∃ name, t.kind = .ident name
          · obtain ⟨name, ht⟩ := ht
            rw [declarations_ident fuel ht]
            refine List.forall_mem_append.mpr ⟨fun d hd => ?_, ih _⟩
            obtain ⟨-, value, -, -, hvalue, rfl⟩ := declaration?_eq_some (Option.mem_toList.mp hd)
            exact ⟨trimmed_trimmedText value, hvalue⟩
          · obtain ⟨us, -, hus⟩ := declarations_other fuel (fun name hname => ht ⟨name, hname⟩) rest
            rw [hus]
            exact ih us

/-! ## Rules that are read back -/

/-- The tokens `ts` are what the text of the rule is cut into, and the rule is what is read from
them, in a body and whatever follows. -/
structure Rule.Written (nested : Bool) (r : Rule) (ts : List Token) : Prop where
  passes : Passes (endsBody nested) [] ts
  reads : ∀ {us : List Token} {rules : List Rule}, Reads false us rules →
    Reads false (ts ++ us) (r :: rules)
  tokens_append : ∀ rest, tokens (r.render.toList ++ rest) = ts ++ tokens rest
  start : ∀ rest, (r.render.toList ++ rest).head?.any Token.isSpace = false

/-- The token of an at-keyword that is written as it is. -/
def atToken (name : List Char) : Token := ⟨.atKeyword name, '@' :: name⟩

section Written

variable {nested : Bool} {name preamble : String}

/-- The start of an at-rule, up to the mark behind its preamble. -/
theorem exists_head (tail : List Char) {m : Mark} (hname : isPlainName name.toList = true)
    (hstands : stands (endsHead nested) preamble tail m = true) (hp : Trimmed preamble.toList)
    (htail : tail = [' '] ∨ tail = [] ∧ m = .semicolon) :
    ∃ ts, Passes (endsHead nested) [] ts ∧ trimmedText ts = preamble ∧
      ∀ r, tokens ('@' :: (name.toList ++ (lead preamble ++
        (preamble.toList ++ (tail ++ m.char :: r))))) =
          atToken name.toList :: (ts ++ m.token :: tokens r) := by
  obtain ⟨ts, hpasses, htext, htokens⟩ := exists_piece tail hstands (onlyMarks_endsHead nested)
    (blank_tail htail) hp ((lead_eq preamble).imp_left And.left)
  refine ⟨ts, hpasses, htext, fun r => ?_⟩
  obtain ⟨d, cs, hd, hcs⟩ := exists_behind_name preamble r htail
  have hstop : Token.isNameChar d = false ∧ d ≠ '\\' := by
    rcases hd with rfl | rfl <;> exact ⟨rfl, by decide⟩
  rw [hcs, Token.tokens_atKeyword hname hstop.1 hstop.2, ← hcs, htokens]
  rfl

/-- A block that is kept as it is. -/
theorem exists_keptBlock {b : String}
    (h : stands (· == .closeCurly) b [' '] .closeCurly = true) (hb : Trimmed b.toList) :
    ∃ ts, Passes (· == .closeCurly) [] ts ∧ trimmedText ts = b ∧
      ∀ r, tokens (inBraces b ++ '\x7d' :: r) = ts ++ Mark.closeCurly.token :: tokens r := by
  by_cases hempty : b = ""
  · subst hempty
    exact ⟨[], rfl, rfl, fun r => Token.tokens_mark .closeCurly r⟩
  · obtain ⟨ts, hpasses, htext, htokens⟩ := exists_piece [' '] h onlyMarks_endsBlock
      blank_singleton hb (.inr ⟨rfl, hempty⟩)
    refine ⟨ts, hpasses, htext, fun r => ?_⟩
    rw [inBraces, if_neg hempty, ← htokens]
    simp [Mark.char]

/-- The tokens of a rule that ends in a block. -/
theorem passes_block {ts block : List Token} (hhead : Passes (endsBody nested) [] ts)
    (hblock : Passes (· == .closeCurly) [] block) :
    Passes (endsBody nested) []
      (ts ++ (Mark.openCurly.token :: block ++ [Mark.closeCurly.token])) :=
  hhead.append (hblock.block rfl (by cases nested <;> rfl) rfl)

theorem written_statement (hp : Trimmed preamble.toList)
    (h : (Rule.verbatim name preamble none).survives nested = true) :
    ∃ ts, (Rule.verbatim name preamble none).Written nested ts := by
  rw [Rule.survives, Bool.and_eq_true] at h
  obtain ⟨ts, hpasses, htext, htokens⟩ := exists_head [] h.1 h.2 hp (.inr ⟨rfl, rfl⟩)
  have hcut : Passes endsPreamble [] ts := hpasses.mono fun k hk => by
    rw [endsHead, hk, Bool.or_true]
  have hhead : Passes (endsBody nested) [] (atToken name.toList :: ts) :=
    (passes_atKeyword nested rfl).append (hpasses.mono fun k hk => by rw [endsHead, hk]; rfl)
  refine ⟨atToken name.toList :: ts ++ [Mark.semicolon.token],
    hhead.marks_append (by cases nested <;> rfl) (.inl rfl) rfl, fun hrest => ?_, fun rest => ?_,
    fun rest => ?_⟩
  · have hread : Reads false (atToken name.toList :: (ts ++ Mark.semicolon.token :: _)) _ :=
      .statement rfl rfl rfl (hcut.cut_cons rfl _) (fun u hu h => by cases hu; cases h) hrest
    rw [String.ofList_toList, htext] at hread
    simpa using hread
  · rw [toList_statement]
    simpa [Mark.char] using htokens rest
  · rw [toList_statement]
    rfl

theorem written_verbatim {block : String} (hp : Trimmed preamble.toList)
    (hb : Trimmed block.toList) (hgroup : isGrouping name.toList = false)
    (h : (Rule.verbatim name preamble (some block)).survives nested = true) :
    ∃ ts, (Rule.verbatim name preamble (some block)).Written nested ts := by
  rw [Rule.survives, Bool.and_eq_true, Bool.and_eq_true] at h
  obtain ⟨⟨hname, hstands⟩, hblock⟩ := h
  obtain ⟨ts, hpasses, htext, htokens⟩ := exists_head [' '] hname hstands hp (.inl rfl)
  obtain ⟨bs, hbpasses, hbtext, hbtokens⟩ := exists_keptBlock hblock hb
  have hcut : Passes endsPreamble [] ts := hpasses.mono fun k hk => by
    rw [endsHead, hk, Bool.or_true]
  have hhead : Passes (endsBody nested) [] (atToken name.toList :: ts) :=
    (passes_atKeyword nested rfl).append (hpasses.mono fun k hk => by rw [endsHead, hk]; rfl)
  refine ⟨_, passes_block hhead hbpasses, fun {us} _ hrest => ?_, fun rest => ?_, fun rest => ?_⟩
  · have hread : Reads false (atToken name.toList :: (ts ++ Mark.openCurly.token ::
        (bs ++ Mark.closeCurly.token :: us))) _ :=
      .verbatim rfl rfl rfl (hcut.cut_cons rfl _) rfl (hbpasses.cut_cons rfl _)
        hgroup hrest
    rw [String.ofList_toList, htext, hbtext] at hread
    simpa using hread
  · rw [toList_verbatim]
    simpa [Mark.char, hbtokens] using htokens (inBraces block ++ '\x7d' :: rest)
  · rw [toList_verbatim]
    rfl

/-- The tokens `ts` are what the text of the rules is cut into, with the separator in front of each
of them, and the rules are what is read from them where nothing with a meaning follows. -/
structure WrittenBody (nested : Bool) (rules : List Rule) (ts : List Token) : Prop where
  passes : Passes (endsBody nested) [] ts
  reads : ∀ {us : List Token}, us.dropWhile Token.isGap = [] → Reads false (ts ++ us) rules
  tokens_append : ∀ rest, tokens (trail (if nested then [' '] else ['\n'])
    (rules.map Rule.render) ++ rest) = ts ++ tokens rest
  start : (bodyText nested rules).head?.any Token.isSpace = false

theorem writtenBody_nil (nested : Bool) : WrittenBody nested [] [] :=
  ⟨rfl, fun hus => .nil hus, fun _ => rfl, by cases nested <;> rfl⟩

theorem Rule.Written.body_cons {r : Rule} {rules : List Rule} {ts us : List Token}
    (hr : r.Written nested ts) (hrules : WrittenBody nested rules us) :
    ∃ ts, WrittenBody nested (r :: rules) ts := by
  obtain ⟨sep, hsep, hspaces, hne⟩ : ∃ sep : List Char,
      (if nested then [' '] else ['\n']) = sep ∧ Spaces sep ∧ sep ≠ [] := by
    refine ⟨_, rfl, ?_, ?_⟩ <;> cases nested
    · exact spaces_cons rfl spaces_nil
    · exact spaces_cons rfl spaces_nil
    · exact List.cons_ne_nil _ _
    · exact List.cons_ne_nil _ _
  refine ⟨⟨.blank, sep⟩ :: (ts ++ us), ⟨by cases nested <;> rfl, hr.passes.append hrules.passes⟩,
    fun hus => ?_, fun rest => ?_, by rw [bodyText_cons]; exact hr.start _⟩
  · rw [List.cons_append, List.append_assoc, Reads.gap_cons rfl]
    exact hr.reads (hrules.reads hus)
  · rw [hsep, List.map_cons, trail, List.flatMap_cons, ← trail, List.append_assoc,
      List.append_assoc, Token.tokens_blank hspaces hne (hr.start _), hr.tokens_append, ← hsep,
      hrules.tokens_append]
    simp

/-- A block that holds rules. -/
theorem exists_rulesBlock {rules : List Rule} {ts : List Token} (h : WrittenBody true rules ts)
    (hcharset : beginsWithCharset rules = false) :
    ∃ bs, Passes (· == .closeCurly) [] bs ∧ Reads true bs rules ∧
      ∀ r, tokens (' ' :: (bodyText true rules ++ ' ' :: '\x7d' :: r)) =
        bs ++ Mark.closeCurly.token :: tokens r := by
  cases rules with
  | nil =>
      have hspaces : Spaces [' ', ' '] := spaces_cons rfl (spaces_cons rfl spaces_nil)
      refine ⟨[⟨.blank, [' ', ' ']⟩], ⟨rfl, rfl⟩, .nil rfl, fun r => ?_⟩
      rw [List.singleton_append, ← tokens_closeCurly]
      exact Token.tokens_blank hspaces (List.cons_ne_nil _ _) (by rfl)
  | cons r rules =>
      refine ⟨ts ++ [blankToken], Passes.append h.passes ⟨rfl, rfl⟩, (h.reads rfl).first hcharset,
        fun rest => ?_⟩
      have htokens := h.tokens_append (' ' :: '\x7d' :: rest)
      rw [tokens_blank_closeCurly] at htokens
      rw [bodyText_cons, List.append_assoc, List.append_assoc, List.singleton_append, ← htokens]
      simp [trail]

theorem written_group {rules : List Rule} {bs : List Token} (hp : Trimmed preamble.toList)
    (hgroup : isGrouping name.toList = true)
    (h : (Rule.group name preamble rules).survives nested = true)
    (hrules : WrittenBody true rules bs) :
    ∃ ts, (Rule.group name preamble rules).Written nested ts := by
  rw [Rule.survives, Bool.and_eq_true, Bool.and_eq_true, Bool.and_eq_true, Bool.not_eq_true'] at h
  obtain ⟨⟨hname, hstands⟩, hcharset, -⟩ := h
  obtain ⟨ts, hpasses, htext, htokens⟩ := exists_head [' '] hname hstands hp (.inl rfl)
  obtain ⟨bs, hbpasses, hbreads, hbtokens⟩ := exists_rulesBlock hrules hcharset
  have hcut : Passes endsPreamble [] ts := hpasses.mono fun k hk => by
    rw [endsHead, hk, Bool.or_true]
  have hhead : Passes (endsBody nested) [] (atToken name.toList :: ts) :=
    (passes_atKeyword nested rfl).append (hpasses.mono fun k hk => by rw [endsHead, hk]; rfl)
  refine ⟨_, passes_block hhead hbpasses, fun {us} _ hrest => ?_, fun rest => ?_, fun rest => ?_⟩
  · have hread : Reads false (atToken name.toList :: (ts ++ Mark.openCurly.token ::
        (bs ++ Mark.closeCurly.token :: us))) _ :=
      .group rfl rfl rfl (hcut.cut_cons rfl _) rfl (hbpasses.cut_cons rfl _) hgroup hbreads hrest
    rw [String.ofList_toList, htext] at hread
    simpa using hread
  · rw [toList_group]
    have := htokens (' ' :: (bodyText true rules ++ ' ' :: '\x7d' :: rest))
    rw [hbtokens] at this
    simpa [Mark.char, bodyText] using this
  · rw [toList_group]
    rfl

/-- A block that holds declarations. -/
theorem exists_declarationsBlock {ds : List Declaration} (h : ds.all Declaration.survives = true)
    (hshape : ∀ d ∈ ds, Trimmed d.value.toList ∧ d.value ≠ "") :
    ∃ bs, Passes (· == .closeCurly) [] bs ∧ declarations bs.length bs = ds ∧
      ∀ r, tokens (declarationsText ds ++ '\x7d' :: r) =
        bs ++ Mark.closeCurly.token :: tokens r := by
  cases ds with
  | nil => exact ⟨[], rfl, rfl, tokens_closeCurly⟩
  | cons d ds =>
      obtain ⟨bs, hpasses, hread, htokens⟩ := exists_declarations h hshape
      have hblank : ∀ fuel, declarations fuel [blankToken] = [] := by
        intro fuel
        cases fuel with
        | zero => rfl
        | succ fuel => cases fuel <;> rfl
      refine ⟨bs ++ [blankToken], hpasses.append ⟨rfl, rfl⟩, hread _ _ (Nat.le_refl _) hblank,
        fun r => ?_⟩
      have := htokens (' ' :: '\x7d' :: r)
      rw [tokens_blank_closeCurly] at this
      rw [declarationsText, List.append_assoc, List.append_assoc, List.singleton_append]
      exact this

theorem written_style {texts : List String} {ds : List Declaration} (hne : texts ≠ [])
    (hshape : ∀ s ∈ texts, Trimmed s.toList ∧ s ≠ "")
    (hdots : ∀ s ∈ texts, ∃ cs, s.toList = '.' :: cs)
    (hdshape : ∀ d ∈ ds, Trimmed d.value.toList ∧ d.value ≠ "")
    (h : (Rule.style texts ds).survives nested = true) :
    ∃ ts, (Rule.style texts ds).Written nested ts := by
  rw [Rule.survives, Bool.and_eq_true] at h
  obtain ⟨ts, hpasses, htexts, htokens⟩ := exists_selectors h.1 hne hshape hdots (.inl rfl)
  obtain ⟨bs, hbpasses, hbread, hbtokens⟩ := exists_declarationsBlock h.2 hdshape
  obtain ⟨cs, hcs⟩ := exists_dot hne hdots
  have hcut : Passes (· == .openCurly) [] ts := hpasses.mono fun k hk => by
    rw [endsSelectors, hk, Bool.or_true]
  have hhead : Passes (endsBody nested) [] ts := hpasses.mono fun k hk => by
    rw [endsSelectors, hk]
    rfl
  -- the dot of the first selector is a token that begins a style rule
  obtain ⟨t, rest, rfl, ht⟩ : ∃ t rest, ts = t :: rest ∧ t.kind = .other := by
    have hfirst : ∀ t ∈ (ts ++ Mark.openCurly.token :: tokens []).head?, t.kind = .other := by
      rw [← htokens [], List.nil_append, hcs]
      exact first_dot _
    cases ts with
    | nil => cases hfirst _ rfl
    | cons t rest => exact ⟨t, rest, rfl, hfirst t rfl⟩
  refine ⟨_, passes_block hhead hbpasses, fun {us} _ hrest => ?_, fun rest => ?_, fun rest => ?_⟩
  · have hgap : t.isGap = false := by
      rw [Token.isGap, Token.isFiller, ht]
      rfl
    have hread : Reads false (t :: rest ++ Mark.openCurly.token ::
        (bs ++ Mark.closeCurly.token :: us)) _ :=
      .style (by rw [List.cons_append, List.dropWhile_cons, hgap]; rfl)
        (fun name hname => by rw [ht] at hname; cases hname)
        (hcut.cut_cons rfl _) (hbpasses.cut_cons rfl _) (htexts _ 0 (Nat.le_refl _)) hrest
    rw [hbread] at hread
    simpa using hread
  · rw [toList_style]
    have := htokens (declarationsText ds ++ '\x7d' :: rest)
    rw [hbtokens] at this
    simpa using this
  · rw [toList_style, hcs]
    rfl

end Written

/-- Scoped rules that survive are read back from their text, wherever they stand. -/
theorem exists_writtenBody {first : Bool} {ts : List Token} {originals : List Rule}
    (h : Reads first ts originals) (id : String) (nested : Bool)
    (hsurvive : Rule.surviveList nested (Rule.scopedList id originals) = true) :
    ∃ ts, WrittenBody nested (Rule.scopedList id originals) ts := by
  -- along what was read; scoping keeps the shape of each rule and survival is given rule by rule
  induction h generalizing nested with
  | nil hgap => exact ⟨[], writtenBody_nil nested⟩
  | charset hgap ht hname hrest ih => exact ih nested hsurvive
  | statement hgap ht hname hcut hafter hrest ih =>
      rw [Rule.scopedList, Rule.surviveList, Bool.and_eq_true] at hsurvive
      obtain ⟨_, hrules⟩ := ih nested hsurvive.2
      obtain ⟨_, hr⟩ := written_statement (trimmed_trimmedText _) hsurvive.1
      exact hr.body_cons hrules
  | verbatim hgap ht hname hcut hu hblock hgroup hrest ih =>
      rw [Rule.scopedList, Rule.surviveList, Bool.and_eq_true] at hsurvive
      obtain ⟨_, hrules⟩ := ih nested hsurvive.2
      obtain ⟨_, hr⟩ := written_verbatim (trimmed_trimmedText _) (trimmed_trimmedText _)
        (by rwa [String.toList_ofList]) hsurvive.1
      exact hr.body_cons hrules
  | group hgap ht hname hcut hu hblock hgroup hinner hrest ihinner ih =>
      rw [Rule.scopedList, Rule.surviveList, Bool.and_eq_true] at hsurvive
      obtain ⟨_, hrules⟩ := ih nested hsurvive.2
      have hinside := hsurvive.1
      rw [Rule.scoped, Rule.survives, Bool.and_eq_true, Bool.and_eq_true, Bool.and_eq_true]
        at hinside
      obtain ⟨_, hbody⟩ := ihinner true hinside.2.2
      obtain ⟨_, hr⟩ := written_group (trimmed_trimmedText _) (by rwa [String.toList_ofList])
        hsurvive.1 hbody
      exact hr.body_cons hrules
  | @style _ _ _ _ _ block _ _ _ texts _ hgap ht hcut hblock htexts hrest ih =>
      rw [Rule.scopedList, Rule.surviveList, Bool.and_eq_true] at hsurvive
      obtain ⟨_, hrules⟩ := ih nested hsurvive.2
      have hshape := trimmed_of_selectorTexts htexts
      obtain ⟨_, hr⟩ := written_style (by simpa using selectorTexts_ne_nil htexts)
        (List.forall_mem_map.mpr fun s hs =>
          trimmed_scopedSelector id (hshape s hs).1 (hshape s hs).2)
        (List.forall_mem_map.mpr fun s _ => exists_scopedSelector id s)
        (trimmed_of_declarations _ _) hsurvive.1
      exact hr.body_cons hrules

/-- A sheet of scoped rules that survive is read from its text. -/
theorem parse_of_survives {css : String} {sheet : Sheet} {id : String}
    (h : Sheet.parse css = .ok sheet) (hsurvive : (sheet.scoped id).survives = true) :
    Sheet.parse (sheet.scoped id).render = .ok (sheet.scoped id) := by
  rw [Sheet.survives, Bool.and_eq_true, Bool.not_eq_true'] at hsurvive
  obtain ⟨ts, hwritten⟩ : ∃ ts, WrittenBody false (sheet.scoped id).rules ts :=
    exists_writtenBody (parse_eq_ok.mp h) id false hsurvive.2
  rw [parse_eq_ok, toList_render]
  refine Reads.first ?_ hsurvive.1
  have hreads : Reads false (ts ++ []) (sheet.scoped id).rules := hwritten.reads rfl
  obtain ⟨l, hl, hlead⟩ := exists_lead false (sheet.scoped id).rules []
  rw [← Token.tokens_nil, ← hwritten.tokens_append, hlead, List.append_nil] at hreads
  cases l with
  | nil => exact hreads
  | cons c l =>
      rw [Token.tokens_blank hl (List.cons_ne_nil _ _) hwritten.start] at hreads
      exact (Reads.gap_cons rfl).mp hreads

/--
**The text of a scoped sheet is read back as that sheet exactly if the sheet survives printing**:
every name is written as it is, every piece of source text is cut off right where the printer ends
it, and no body begins with a `@charset`.
-/
theorem parse_render_scoped {css : String} {sheet : Sheet} (id : String)
    (h : Sheet.parse css = .ok sheet) :
    Sheet.parse (sheet.scoped id).render = .ok (sheet.scoped id) ↔
      (sheet.scoped id).survives = true :=
  ⟨survives_of_parse, parse_of_survives h⟩

/-- Rules of each kind, and one in another. -/
def printSheet : Sheet :=
  ⟨[.verbatim "import" "'base.css'" none, .verbatim "font-face" "" (some "src: url(a.woff)"),
    .group "media" "print" [.style ["a", "b > i"] [⟨"top", "1px"⟩, ⟨"color", "red"⟩]]]⟩

theorem parse_render_printSheet :
    Sheet.parse ("@import 'base.css'; @font-face \x7bsrc: url(a.woff)\x7d " ++
      "@media print \x7b a,b > i \x7b top:1px; color:red \x7d \x7d") = .ok printSheet ∧
    Sheet.parse (printSheet.scoped "card").render = .ok (printSheet.scoped "card") := by
  have hparse : Sheet.parse ("@import 'base.css'; @font-face \x7bsrc: url(a.woff)\x7d " ++
      "@media print \x7b a,b > i \x7b top:1px; color:red \x7d \x7d") = .ok printSheet := by
    decide +kernel
  exact ⟨hparse, (parse_render_scoped "card" hparse).mpr (by decide +kernel)⟩

/-- A rule with a property whose name begins with a digit, which takes an escape to write. -/
def digitSheet : Sheet := ⟨[.style ["a"] [⟨"1x", "1"⟩]]⟩

/-- The escape is not written again, and the declaration is lost. -/
theorem parse_render_digitSheet :
    Sheet.parse "a \x7b \\31 x: 1 \x7d" = .ok digitSheet ∧
    (digitSheet.scoped "card").render = ".card-a \x7b 1x: 1; \x7d" ∧
    Sheet.parse (digitSheet.scoped "card").render = .ok ⟨[.style [".card-a"] []]⟩ ∧
    Sheet.parse (digitSheet.scoped "card").render ≠ .ok (digitSheet.scoped "card") := by
  have hread : Sheet.parse (digitSheet.scoped "card").render = .ok ⟨[.style [".card-a"] []]⟩ := by
    decide +kernel
  refine ⟨by decide +kernel, by decide, hread, ?_⟩
  rw [hread]
  decide

end CustomElements.Style
