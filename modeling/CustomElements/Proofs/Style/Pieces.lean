import CustomElements.Proofs.Style.Standing

/-!
# Sheets that survive printing

A sheet survives if its names are written as they are, its pieces of source text stand before the
marks that the printer sets, and no body begins with a `@charset`. All of it can be decided on the
rules one by one. Here are the parts that are lists: the selectors of a style rule and its
declarations are read back from their text if they survive (`exists_selectors`,
`exists_declarations`), and survive if they were read back (`selectorsSurvive_of_ends`,
`declarationsSurvive_of_ends`).
-/

namespace CustomElements.Style

open Token (isPlainName tokens textOf)

/-! ## What survives printing -/

/-- What ends the body that rules are in. -/
def endsBody (nested : Bool) (k : Token.Kind) : Bool := nested && k == .closeCurly

/-- What ends the preamble of an at-rule in a body. -/
def endsHead (nested : Bool) (k : Token.Kind) : Bool := endsBody nested k || endsPreamble k

/-- What ends the selectors of a style rule in a body. -/
def endsSelectors (nested : Bool) (k : Token.Kind) : Bool := endsBody nested k || k == .openCurly

/-- What ends one of the selectors. -/
def endsSelector (nested : Bool) (k : Token.Kind) : Bool := endsSelectors nested k || k == .comma

/-- What ends the value of a declaration. -/
def endsValue (k : Token.Kind) : Bool := k == .closeCurly || k == .semicolon

/-- The name is written as it is, and the value is cut off at the semicolon behind it. -/
def Declaration.survives (d : Declaration) : Bool :=
  isPlainName d.name.toList && stands endsValue d.value [] .semicolon

/-- Each selector is cut off at what the printer sets behind it, the last one at the block. -/
def selectorsSurvive (nested : Bool) : List String → Bool
  | [] => true
  | [s] => stands (endsSelector nested) s [' '] .openCurly
  | s :: rest => stands (endsSelector nested) s [] .comma && selectorsSurvive nested rest

/-- The first rule is an at-rule that says nothing in that place. -/
def beginsWithCharset : List Rule → Bool
  | .verbatim name _ _ :: _ => isCharset name.toList
  | .group name _ _ :: _ => isCharset name.toList
  | _ => false

mutual

/-- The names in the rule are written as they are, and its pieces of source text are cut off where
the printer ends them. -/
def Rule.survives (nested : Bool) : Rule → Bool
  | .style texts ds => selectorsSurvive nested texts && ds.all Declaration.survives
  | .group name preamble rules =>
    isPlainName name.toList && stands (endsHead nested) preamble [' '] .openCurly &&
      (!beginsWithCharset rules && Rule.surviveList true rules)
  | .verbatim name preamble none =>
    isPlainName name.toList && stands (endsHead nested) preamble [] .semicolon
  | .verbatim name preamble (some block) =>
    isPlainName name.toList && stands (endsHead nested) preamble [' '] .openCurly &&
      stands (· == .closeCurly) block [' '] .closeCurly

/-- All of the rules survive in a body. -/
def Rule.surviveList (nested : Bool) : List Rule → Bool
  | [] => true
  | r :: rules => r.survives nested && Rule.surviveList nested rules

end

/-- The rules survive, and the first one is not left out. -/
def Sheet.survives (s : Sheet) : Bool :=
  !beginsWithCharset s.rules && Rule.surviveList false s.rules

theorem onlyMarks_endsHead (nested : Bool) : OnlyMarks (endsHead nested) := by
  intro k hk
  simp only [endsHead, endsBody, endsPreamble, Bool.or_eq_true, Bool.and_eq_true, beq_iff_eq] at hk
  rcases hk with ⟨-, rfl⟩ | rfl | rfl
  exacts [⟨.closeCurly, rfl⟩, ⟨.semicolon, rfl⟩, ⟨.openCurly, rfl⟩]

theorem onlyMarks_endsSelector (nested : Bool) : OnlyMarks (endsSelector nested) := by
  intro k hk
  simp only [endsSelector, endsSelectors, endsBody, Bool.or_eq_true, Bool.and_eq_true,
    beq_iff_eq] at hk
  rcases hk with (⟨-, rfl⟩ | rfl) | rfl
  exacts [⟨.closeCurly, rfl⟩, ⟨.openCurly, rfl⟩, ⟨.comma, rfl⟩]

theorem onlyMarks_endsValue : OnlyMarks endsValue := by
  intro k hk
  simp only [endsValue, Bool.or_eq_true, beq_iff_eq] at hk
  rcases hk with rfl | rfl
  exacts [⟨.closeCurly, rfl⟩, ⟨.semicolon, rfl⟩]

theorem onlyMarks_endsBlock : OnlyMarks (· == .closeCurly) := by
  intro k hk
  exact ⟨.closeCurly, beq_iff_eq.mp hk⟩

theorem blank_singleton : Blank [' '] := by
  intro c hc
  rw [List.mem_singleton.mp hc]
  rfl

/-! ## Selectors -/

section Selectors

variable {nested : Bool} {texts : List String} {l : List Char}

theorem selectorsSurvive_cons_cons (s t : String) (rest : List String) :
    selectorsSurvive nested (s :: t :: rest) =
      (stands (endsSelector nested) s [] .comma && selectorsSurvive nested (t :: rest)) :=
  rfl

theorem toList_intercalate_cons_cons (s t : String) (rest : List String) :
    (", ".intercalate (s :: t :: rest)).toList =
      s.toList ++ ',' :: ' ' :: (", ".intercalate (t :: rest)).toList := by
  rw [String.intercalate_cons_cons, String.toList_append, String.toList_append]
  simp

theorem Passes.marks_append {stop : Token.Kind → Bool} {ts us : List Token} {m : Mark}
    (h : Passes stop [] ts) (hm : stop m.kind = false) (hflat : m = .semicolon ∨ m = .comma)
    (hus : Passes stop [] us) : Passes stop [] (ts ++ m.token :: us) := by
  refine h.append ⟨hm, ?_⟩
  rcases hflat with rfl | rfl <;> exact hus

theorem first_dot (cs : List Char) : ∀ t ∈ (tokens ('.' :: cs)).head?, t.kind = .other := by
  intro t ht
  rw [Token.tokens_cons] at ht
  cases ht
  have hident : Token.startsIdent ('.' :: cs) = false := rfl
  change (if Token.startsNumber ('.' :: cs) then (.other, _) else
    if Token.startsIdent ('.' :: cs) then _ else (.other, 1) : Token.Kind × Nat).1 = .other
  rw [hident]
  split <;> rfl

/-- What begins with a dot has no comment in front of it. -/
theorem selectorText_eq {cs : List Char} {part us : List Token}
    (htokens : tokens (l ++ '.' :: cs) = part ++ us) (hl : l = [] ∨ l = [' ']) :
    selectorText part = trimmedText part := by
  have hkept : ∀ {ts}, tokens ('.' :: cs) = ts ++ us → ts.dropWhile Token.isFiller = ts := by
    intro ts h
    cases ts with
    | nil => rfl
    | cons t ts =>
        have ht : t.isFiller = false := by
          rw [Token.isFiller, first_dot cs t (by rw [h]; rfl)]
          rfl
        rw [List.dropWhile_cons, ht]
        rfl
  rcases hl with rfl | rfl
  · rw [selectorText, hkept htokens]
  · rw [List.singleton_append, tokens_blankToken (by rfl)] at htokens
    cases part with
    | nil => rfl
    | cons t part =>
        rw [List.cons_append, List.cons.injEq] at htokens
        obtain ⟨rfl, htokens⟩ := htokens
        have hdrop : (blankToken :: part).dropWhile Token.isFiller = part := hkept htokens
        rw [selectorText, hdrop]
        rfl

/-- Selectors that begin with dots are a text that does. -/
theorem exists_dot (hne : texts ≠ []) (hdots : ∀ s ∈ texts, ∃ cs, s.toList = '.' :: cs) :
    ∃ cs, (", ".intercalate texts).toList = '.' :: cs := by
  obtain ⟨s, others, rfl⟩ := List.exists_cons_of_ne_nil hne
  obtain ⟨cs, hcs⟩ := hdots s (.head _)
  exact ⟨_, by rw [toList_intercalate_cons, hcs]; rfl⟩

theorem selectorTexts_ne_nil {fuel offset : Nat} {ts : List Token}
    (h : selectorTexts offset (commaParts fuel ts) = .ok texts) : texts ≠ [] := by
  obtain ⟨part, parts, hparts⟩ : ∃ part parts, commaParts fuel ts = part :: parts := by
    cases fuel with
    | zero => exact ⟨ts, [], rfl⟩
    | succ fuel =>
        rw [commaParts]
        split
        · exact ⟨_, _, rfl⟩
        · exact ⟨_, _, rfl⟩
  rw [hparts] at h
  obtain ⟨-, others, -, rfl⟩ := selectorTexts_cons h
  exact List.cons_ne_nil _ _

theorem selectorsSurvive_of_ends {fuel offset : Nat} {ts us : List Token} {r : List Char}
    (htokens : tokens (l ++ ((", ".intercalate texts).toList ++ ' ' :: '\x7b' :: r)) = ts ++ us)
    (hfuel : ts.length ≤ fuel) (htexts : selectorTexts offset (commaParts fuel ts) = .ok texts)
    (hdots : ∀ s ∈ texts, ∃ cs, s.toList = '.' :: cs) (hends : Ends (endsSelectors nested) ts us)
    (hl : l = [] ∨ l = [' ']) :
    selectorsSurvive nested texts = true ∧ us = Mark.openCurly.token :: tokens r := by
  induction fuel generalizing ts texts l with
  | zero =>
      rw [List.length_eq_zero_iff.mp (Nat.le_zero.mp hfuel)] at htexts
      exact absurd rfl (selectorTexts_cons htexts).1
  | succ fuel ih =>
      have hdot : ∀ {part after}, ts = part ++ after → trimmedText part = selectorText part := by
        rintro part after rfl
        obtain ⟨cs, hcs⟩ := exists_dot (selectorTexts_ne_nil htexts) hdots
        rw [hcs, List.append_assoc] at htokens
        exact (selectorText_eq htokens hl).symm
      rw [commaParts] at htexts
      rcases hcut : cut (· == .comma) ts with ⟨part, - | ⟨comma, rest⟩⟩
      · rw [hcut] at htexts
        obtain ⟨hne, others, hothers, rfl⟩ := selectorTexts_cons htexts
        cases hothers
        have hts : part = ts := by
          have := cut_append (· == .comma) ts
          rw [hcut, List.append_nil] at this
          exact this
        subst hts
        exact stands_of_ends [' '] htokens (hdot (List.append_nil _).symm)
          (hl.imp_right fun hl => ⟨hl, hne⟩) blank_singleton (hends.refine hcut)
          (onlyMarks_endsSelector nested)
      · rw [hcut] at htexts
        -- the first part stands up to its comma; what is behind the comma is a list again
        have hpart : Ends (endsSelector nested) part (comma :: rest ++ us) := hends.refine hcut
        obtain ⟨hne, others, hothers, rfl⟩ := selectorTexts_cons htexts
        obtain ⟨second, others, rfl⟩ := List.exists_cons_of_ne_nil (selectorTexts_ne_nil hothers)
        have hts : ts = part ++ comma :: rest := by rw [← cut_append (· == .comma) ts, hcut]
        have hlen := length_cut hcut
        rw [List.length_cons] at hlen
        have htokens' : tokens (l ++ ((selectorText part).toList ++ ([] ++ Mark.comma.char ::
            ([' '] ++ ((", ".intercalate (second :: others)).toList ++ ' ' :: '\x7b' :: r))))) =
              part ++ (comma :: rest ++ us) := by
          rw [toList_intercalate_cons_cons, hts] at htokens
          simpa [Mark.char] using htokens
        obtain ⟨hstands, hus⟩ := stands_of_ends [] htokens' (hdot hts)
          (hl.imp_right fun hl => ⟨hl, hne⟩) blank_nil hpart (onlyMarks_endsSelector nested)
        rw [List.cons_append, List.cons.injEq] at hus
        obtain ⟨rfl, hus⟩ := hus
        have hpasses : Passes (endsSelectors nested) [] (part ++ [Mark.comma.token]) := by
          have hpasses : Passes (endsSelectors nested) [] part :=
            (Passes.of_cutWithin hpart).1.mono fun k hk => by rw [endsSelector, hk]; rfl
          exact hpasses.marks_append (by cases nested <;> rfl) (.inr rfl) rfl
        have hends' : Ends (endsSelectors nested) rest us := by
          refine Ends.drop (part ++ [Mark.comma.token]) ?_ hpasses
          rw [List.append_assoc, List.singleton_append, ← hts]
          exact hends
        obtain ⟨hsurvive, hrest⟩ := ih hus.symm (by omega) hothers
          (fun s hs => hdots s (.tail _ hs)) hends' (.inr rfl)
        exact ⟨by rw [selectorsSurvive_cons_cons, hstands, hsurvive]; rfl, hrest⟩

theorem exists_selectors (h : selectorsSurvive nested texts = true) (hne : texts ≠ [])
    (hshape : ∀ s ∈ texts, Trimmed s.toList ∧ s ≠ "")
    (hdots : ∀ s ∈ texts, ∃ cs, s.toList = '.' :: cs) (hl : l = [] ∨ l = [' ']) :
    ∃ ts, Passes (endsSelectors nested) [] ts ∧
      (∀ fuel offset, ts.length ≤ fuel → selectorTexts offset (commaParts fuel ts) = .ok texts) ∧
      ∀ r, tokens (l ++ ((", ".intercalate texts).toList ++ ' ' :: '\x7b' :: r)) =
        ts ++ Mark.openCurly.token :: tokens r := by
  induction texts generalizing l with
  | nil => exact absurd rfl hne
  | cons s rest ih =>
      obtain ⟨hs, hsne⟩ := hshape s (.head _)
      obtain ⟨cs, hcs⟩ := hdots s (.head _)
      cases rest with
      | nil =>
          obtain ⟨ts, hpasses, htext, htokens⟩ := exists_piece [' '] h
            (onlyMarks_endsSelector nested) blank_singleton hs (hl.imp_right fun hl => ⟨hl, hsne⟩)
          have htext : selectorText ts = s := by
            have hdot := htokens []
            rw [hcs] at hdot
            exact (selectorText_eq hdot hl).trans htext
          have hselectors : Passes (endsSelectors nested) [] ts :=
            hpasses.mono fun k hk => by rw [endsSelector, hk]; rfl
          refine ⟨ts, hselectors, fun fuel offset _ => ?_, htokens⟩
          have hcut : cut (· == .comma) ts = (ts, []) := by
            have hcomma : Passes (· == .comma) [] ts := hpasses.mono fun k hk => by
              rw [endsSelector, hk, Bool.or_true]
            have := hcomma.cut []
            rw [List.append_nil] at this
            simpa [cut, cutWithin] using this
          have hparts : commaParts fuel ts = [ts] := by
            cases fuel with
            | zero => rfl
            | succ fuel => rw [commaParts, hcut]
          rw [hparts, selectorTexts, htext]
          simp only [if_neg hsne, selectorTexts]
      | cons t rest =>
          rw [selectorsSurvive_cons_cons, Bool.and_eq_true] at h
          obtain ⟨part, hpart, htext, hptokens⟩ := exists_piece (l := l) [] h.1
            (onlyMarks_endsSelector nested) blank_nil hs (hl.imp_right fun hl => ⟨hl, hsne⟩)
          have htext : selectorText part = s := by
            have hdot := hptokens []
            rw [hcs] at hdot
            exact (selectorText_eq hdot hl).trans htext
          obtain ⟨ts, hpasses, htexts, htokens⟩ := ih h.2 (List.cons_ne_nil _ _)
            (fun s hs => hshape s (.tail _ hs)) (fun s hs => hdots s (.tail _ hs)) (.inr rfl)
          -- the comma that ends this selector is none of the marks that end the whole preamble
          refine ⟨part ++ Mark.comma.token :: ts, ?_, fun fuel offset hfuel => ?_, fun r => ?_⟩
          · have hpart' : Passes (endsSelectors nested) [] part :=
              hpart.mono fun k hk => by rw [endsSelector, hk]; rfl
            exact hpart'.marks_append (by cases nested <;> rfl) (.inr rfl) hpasses
          · have hcomma : Passes (· == .comma) [] part := hpart.mono fun k hk => by
              rw [endsSelector, hk, Bool.or_true]
            have hcut := hcomma.cut_cons (u := Mark.comma.token) rfl ts
            rw [List.length_append, List.length_cons] at hfuel
            obtain ⟨fuel, rfl⟩ := Nat.exists_eq_add_of_le' (show 1 ≤ fuel by omega)
            rw [commaParts, hcut]
            simp only
            rw [selectorTexts, htext]
            simp only [if_neg hsne, htexts fuel _ (show ts.length ≤ fuel by omega)]
          · rw [List.append_assoc, List.cons_append, ← htokens, toList_intercalate_cons_cons]
            simpa [Mark.char] using hptokens _

end Selectors

/-! ## Declarations -/

section Declarations

theorem sound_of_append {cs : List Char} {ts us : List Token} (h : tokens cs = ts ++ us) :
    ∀ t ∈ ts, t.Sound :=
  fun _ ht => Token.sound_of_mem_tokens (h ▸ List.mem_append_left us ht)

/-- The token of a colon. -/
def colonToken : Token := ⟨.colon, [':']⟩

theorem declaration?_colon (name : List Char) (value : List Token) :
    declaration? name (colonToken :: value) =
      if trimmedText value ≠ "" then some ⟨String.ofList name, trimmedText value⟩ else none := by
  have hdrop : (colonToken :: value).dropWhile Token.isFiller = colonToken :: value := rfl
  simp only [declaration?, hdrop]
  simp [colonToken]

theorem cut_colon {ts value after : List Token} (hcut : cut (· == .semicolon) ts = (value, after)) :
    cut (· == .semicolon) (colonToken :: ts) = (colonToken :: value, after) := by
  have hcolon : Passes (· == .semicolon) [] [colonToken] := ⟨rfl, rfl⟩
  have := hcolon.cut ts
  rw [hcut] at this
  exact this

/-- A single dash is no name: what is read from it is lost. -/
theorem declarationsWeight_dash (fuel : Nat) (ts : List Token) (hsound : ∀ t ∈ ts, t.Sound) :
    declarationsWeight (declarations fuel (⟨.other, ['-']⟩ :: ts)) ≤ tokensWeight ts := by
  cases fuel with
  | zero => exact Nat.zero_le _
  | succ fuel =>
      have hother : ∀ name, Token.Kind.other ≠ .ident name := fun _ h => Token.Kind.noConfusion h
      obtain ⟨us, hsuffix, hus⟩ := declarations_other fuel (t := ⟨.other, ['-']⟩) hother ts
      rw [hus]
      exact ((weight_declarations fuel us fun u hu => hsound u (hsuffix.subset hu)).1).trans
        (tokensWeight_suffix hsuffix)

theorem tokens_dash (r : List Char) :
    tokens ('-' :: ':' :: r) = ⟨.other, ['-']⟩ :: tokens (':' :: r) := by
  rw [Token.tokens_cons]
  rfl

theorem trail_cons (d : Declaration) (ds : List Declaration) (r : List Char) :
    trail [' '] ((d :: ds).map Declaration.render) ++ r =
      ' ' :: (d.name.toList ++ ':' :: ([' '] ++ (d.value.toList ++ ([] ++ Mark.semicolon.char ::
        (trail [' '] (ds.map Declaration.render) ++ r))))) := by
  simp [trail, Declaration.toList_render, Mark.char]

theorem head_plainName {name : List Char} (h : isPlainName name = true ∨ name = ['-'])
    (rest : List Char) : (name ++ rest).head?.any Token.isSpace = false := by
  rcases h with h | rfl
  · cases name with
    | nil => exact absurd h (by decide)
    | cons c name =>
        refine Bool.eq_false_iff.mpr fun hspace => ?_
        have hname := (Token.mem_plainName h (.head _)).1
        have hspace' : Token.isSpace c = true := hspace
        simp only [Token.isSpace, Token.isNewline, Bool.or_eq_true, beq_iff_eq] at hspace'
        rcases hspace' with (rfl | rfl) | (rfl | rfl) | rfl <;> exact absurd hname (by decide)
  · rfl

/-- The token of a name that is written as it is. -/
def nameToken (name : List Char) : Token := ⟨.ident name, name⟩

theorem tokens_declaration {name : List Char} (hname : isPlainName name = true) (r : List Char) :
    tokens (' ' :: (name ++ ':' :: r)) =
      blankToken :: nameToken name :: colonToken :: tokens r := by
  rw [tokens_blankToken (head_plainName (.inl hname) _), Token.tokens_ident hname]
  rfl

theorem passes_declaration (name : List Char) :
    Passes (· == .closeCurly) [] [blankToken, nameToken name, colonToken] :=
  ⟨rfl, ⟨rfl, ⟨rfl, rfl⟩⟩⟩

/-- The tokens up to the colon belong to the body. -/
theorem exists_declaration {name r : List Char} {ts us : List Token}
    (hname : isPlainName name = true) (htokens : tokens (' ' :: (name ++ ':' :: r)) = ts ++ us)
    (hends : Ends (· == .closeCurly) ts us) :
    ∃ ts', ts = blankToken :: nameToken name :: colonToken :: ts' ∧ tokens r = ts' ++ us ∧
      Ends (· == .closeCurly) ts' us := by
  rw [tokens_declaration hname] at htokens
  exact hends.exists_append _ htokens (passes_declaration name)

theorem declarations_blank (fuel : Nat) (ts : List Token) :
    declarations (fuel + 1) (blankToken :: ts) = declarations fuel ts :=
  rfl

theorem declarations_nameToken (fuel : Nat) (name : List Char) (rest : List Token) :
    declarations (fuel + 1) (nameToken name :: rest) =
      (declaration? name (cut (· == .semicolon) rest).1).toList ++
        declarations fuel (cut (· == .semicolon) rest).2.tail :=
  declarations_ident fuel rfl rest

/-- What goes by the name of a single dash is not read as a declaration, so something is lost. -/
theorem declarationsWeight_lt_of_dash {fuel : Nat} {ts us : List Token} {r : List Char}
    (htokens : tokens (' ' :: '-' :: ':' :: r) = ts ++ us) (hfuel : ts.length ≤ fuel)
    (hends : Ends (· == .closeCurly) ts us) :
    declarationsWeight (declarations fuel ts) < tokensWeight ts := by
  have hsound := sound_of_append htokens
  rw [tokens_blankToken (by rfl), tokens_dash] at htokens
  obtain ⟨ts, rfl, -, -⟩ := hends.exists_append
    [blankToken, ⟨.other, ['-']⟩] htokens ⟨rfl, ⟨rfl, rfl⟩⟩
  simp only [List.cons_append, List.nil_append, List.length_cons] at hsound hfuel ⊢
  obtain ⟨fuel, rfl⟩ := Nat.exists_eq_add_of_le' (show 1 ≤ fuel by omega)
  have hle := declarationsWeight_dash fuel ts fun t ht => hsound t (.tail _ (.tail _ ht))
  have hone : Style.weight ['-'] = 1 := rfl
  rw [declarations_blank, tokensWeight_cons, tokensWeight_cons, hone]
  omega

/-- If nothing is lost, a declaration has the value that stands before the semicolon. -/
theorem value_of_lossless {fuel : Nat} {d : Declaration} {ds : List Declaration}
    {ts value after : List Token} (hcut : cut (· == .semicolon) ts = (value, after))
    (hsound : ∀ t ∈ after, t.Sound)
    (hds : declarations (fuel + 2) (blankToken :: nameToken d.name.toList :: colonToken :: ts) =
      d :: ds)
    (hlossless : tokensWeight (blankToken :: nameToken d.name.toList :: colonToken :: ts) ≤
      declarationsWeight (d :: ds)) :
    trimmedText value = d.value ∧ d.value ≠ "" ∧ declarations fuel after.tail = ds ∧
      tokensWeight after ≤ declarationsWeight ds := by
  have hts : ts = value ++ after := by rw [← cut_append (· == .semicolon) ts, hcut]
  have hblank : Style.weight [' '] = 0 := rfl
  have hcolon : Style.weight [':'] = 1 := rfl
  rw [tokensWeight_cons, tokensWeight_cons, tokensWeight_cons, hts, tokensWeight_append,
    declarationsWeight_cons, Declaration.weight_eq] at hlossless
  simp only [blankToken, nameToken, colonToken, hblank, hcolon] at hlossless
  rw [declarations_blank, declarations_nameToken, cut_colon hcut] at hds
  simp only [declaration?_colon] at hds
  by_cases hvalue : trimmedText value = ""
  · -- a declaration without a value would be lost
    have hle := (weight_declarations fuel after.tail fun t ht =>
      hsound t (List.mem_of_mem_tail ht)).1
    have htail := tokensWeight_suffix (List.tail_suffix after)
    rw [if_neg (not_not.mpr hvalue), Option.toList_none, List.nil_append] at hds
    rw [hds, declarationsWeight_cons, Declaration.weight_eq] at hle
    omega
  · rw [if_pos hvalue, Option.toList_some, List.singleton_append, List.cons.injEq] at hds
    obtain ⟨hd, hds⟩ := hds
    have hvalue' : trimmedText value = d.value := by rw [← hd]
    have hweight := weight_trimmedText value
    rw [hvalue'] at hweight
    exact ⟨hvalue', hvalue' ▸ hvalue, hds, by omega⟩

theorem declarationsSurvive_of_ends {fuel : Nat} {ds : List Declaration} {ts us : List Token}
    {r : List Char}
    (htokens : tokens (trail [' '] (ds.map Declaration.render) ++ ' ' :: '\x7d' :: r) = ts ++ us)
    (hfuel : ts.length ≤ fuel) (hds : declarations fuel ts = ds)
    (hends : Ends (· == .closeCurly) ts us)
    (hlossless : tokensWeight ts ≤ declarationsWeight ds) :
    ds.all Declaration.survives = true ∧ us = Mark.closeCurly.token :: tokens r := by
  induction ds generalizing fuel ts with
  | nil =>
      rw [List.map_nil, trail, List.flatMap_nil, List.nil_append, tokens_blank_closeCurly]
        at htokens
      exact ⟨rfl, (hends.eq_of_passes [blankToken] htokens ⟨rfl, rfl⟩ rfl).2⟩
  | cons d ds ih =>
      have hsound := sound_of_append htokens
      rw [trail_cons] at htokens
      have hname : isPlainName d.name.toList = true := by
        refine ((weight_declarations fuel ts hsound).2 (by rw [hds]; exact hlossless) d
          (by rw [hds]; exact .head _)).resolve_right fun hdash => ?_
        rw [hdash] at htokens
        have hlost := declarationsWeight_lt_of_dash htokens hfuel hends
        rw [hds] at hlost
        omega
      obtain ⟨ts, rfl, hrest, hends⟩ := exists_declaration hname htokens hends
      rcases hcut : cut (· == .semicolon) ts with ⟨value, after⟩
      have hpart : Ends endsValue value (after ++ us) := hends.refine hcut
      obtain rfl : ts = value ++ after := by rw [← cut_append (· == .semicolon) ts, hcut]
      simp only [List.length_cons, List.length_append] at hfuel
      obtain ⟨fuel, rfl⟩ := Nat.exists_eq_add_of_le' (show 2 ≤ fuel by omega)
      obtain ⟨hvalue, hne, hds, hlossless⟩ := value_of_lossless hcut (fun t ht => hsound t
        (.tail _ (.tail _ (.tail _ (List.mem_append_right value ht))))) hds hlossless
      rw [List.append_assoc] at hrest
      obtain ⟨hstands, hus⟩ := stands_of_ends [] hrest hvalue (.inr ⟨rfl, hne⟩) blank_nil hpart
        onlyMarks_endsValue
      -- the body goes on behind the semicolon
      obtain ⟨after, rfl, hafter⟩ := hends.exists_after hus rfl
      have hpasses : Passes (· == .closeCurly) [] (value ++ [Mark.semicolon.token]) := by
        have hvalue : Passes (· == .closeCurly) [] value :=
          (Passes.of_cutWithin hpart).1.mono fun k hk => by rw [endsValue, hk]; rfl
        exact hvalue.marks_append rfl (.inl rfl) rfl
      have hends' : Ends (· == .closeCurly) after us :=
        Ends.drop (value ++ [Mark.semicolon.token]) (by simpa using hends) hpasses
      rw [tokensWeight_cons] at hlossless
      rw [List.length_cons] at hfuel
      obtain ⟨hall, hrest⟩ := ih hafter (by omega) hds hends' (by omega)
      refine ⟨?_, hrest⟩
      rw [List.all_cons, hall, Declaration.survives, hname, hstands]
      rfl

/-- Declarations that survive are read from their texts. -/
theorem exists_declarations {ds : List Declaration} (h : ds.all Declaration.survives = true)
    (hshape : ∀ d ∈ ds, Trimmed d.value.toList ∧ d.value ≠ "") :
    ∃ ts, Passes (· == .closeCurly) [] ts ∧
      (∀ fuel us, (ts ++ us).length ≤ fuel → (∀ fuel, declarations fuel us = []) →
        declarations fuel (ts ++ us) = ds) ∧
      ∀ r, tokens (trail [' '] (ds.map Declaration.render) ++ r) = ts ++ tokens r := by
  induction ds with
  | nil => exact ⟨[], rfl, fun fuel us _ hus => hus fuel, fun r => rfl⟩
  | cons d ds ih =>
      rw [List.all_cons, Bool.and_eq_true, Declaration.survives, Bool.and_eq_true] at h
      obtain ⟨⟨hname, hstands⟩, hall⟩ := h
      obtain ⟨hvalue, hne⟩ := hshape d (.head _)
      obtain ⟨value, hpasses, htext, hvtokens⟩ := exists_piece (l := [' ']) [] hstands
        onlyMarks_endsValue blank_nil hvalue (.inr ⟨rfl, hne⟩)
      obtain ⟨ts, htspasses, hread, htokens⟩ := ih hall fun d hd => hshape d (.tail _ hd)
      refine ⟨blankToken :: nameToken d.name.toList :: colonToken ::
        (value ++ Mark.semicolon.token :: ts), ?_, fun fuel us hfuel hus => ?_, fun r => ?_⟩
      · have hvpasses : Passes (· == .closeCurly) [] value :=
          hpasses.mono fun k hk => by rw [endsValue, hk]; rfl
        exact (passes_declaration d.name.toList).append
          (hvpasses.marks_append rfl (.inl rfl) htspasses)
      · simp only [List.cons_append, List.length_cons, List.length_append, List.append_assoc]
          at hfuel ⊢
        -- one round for the blank in front, one for the declaration
        obtain ⟨fuel, rfl⟩ := Nat.exists_eq_add_of_le' (show 2 ≤ fuel by omega)
        have hsemi : Passes (· == .semicolon) [] value :=
          hpasses.mono fun k hk => by rw [endsValue, hk, Bool.or_true]
        have hcut := hsemi.cut_cons (u := Mark.semicolon.token) rfl (ts ++ us)
        rw [declarations_blank, declarations_nameToken, cut_colon hcut]
        simp only [declaration?_colon, htext, List.tail_cons]
        rw [if_pos hne, hread fuel us (by rw [List.length_append]; omega) hus, String.ofList_toList]
        rfl
      · rw [trail_cons, tokens_declaration hname, hvtokens, htokens]
        simp

end Declarations

end CustomElements.Style
