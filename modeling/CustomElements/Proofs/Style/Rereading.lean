import CustomElements.Proofs.Style.Pieces

/-!
# What was read back survives

Suppose scoped rules are read from their own text. Reading loses weight only and nothing was lost
here, so each name was read from a token written as the name, each declaration and each rule was
read where the printer had put it, and each piece of source text was cut off where the printer ended
it. `Reread` says so of the rules of a body, and is proved along `Reads`, rule by rule.
-/

namespace CustomElements.Style

open Token (isPlainName tokens textOf)

/-! ## Bodies -/

/-- The text of the rules of a body. -/
def bodyText (nested : Bool) (rules : List Rule) : List Char :=
  ((if nested then " " else "\n").intercalate (rules.map Rule.render)).toList

/-- What the printer writes behind the rules of a body: for a block a blank and its brace. -/
def IsEnd : (nested : Bool) → List Char → Prop
  | false, fin => fin = []
  | true, fin => ∃ r, fin = ' ' :: '\x7d' :: r

/-- The characters are white space between tokens. -/
def Spaces (l : List Char) : Prop := ∀ c ∈ l, Token.isSpace c = true

theorem spaces_nil : Spaces [] := fun _ hc => absurd hc List.not_mem_nil

theorem spaces_cons {c : Char} {l : List Char} (hc : Token.isSpace c = true) (hl : Spaces l) :
    Spaces (c :: l) :=
  List.forall_mem_cons.mpr ⟨hc, hl⟩

theorem bodyText_cons (nested : Bool) (r : Rule) (rules : List Rule) :
    bodyText nested (r :: rules) = r.render.toList ++
      trail (if nested then [' '] else ['\n']) (rules.map Rule.render) := by
  rw [bodyText, List.map_cons, toList_intercalate_cons]
  cases nested <;> rfl

theorem exists_lead (nested : Bool) (rules : List Rule) (fin : List Char) :
    ∃ l, Spaces l ∧ trail (if nested then [' '] else ['\n']) (rules.map Rule.render) ++ fin =
      l ++ (bodyText nested rules ++ fin) := by
  cases rules with
  | nil => exact ⟨[], spaces_nil, by cases nested <;> rfl⟩
  | cons r rules =>
      refine ⟨if nested then [' '] else ['\n'], ?_, ?_⟩
      · cases nested <;> exact spaces_cons rfl spaces_nil
      · rw [bodyText_cons, List.map_cons, trail, List.flatMap_cons, ← trail]
        simp only [List.append_assoc]

theorem onlyMarks_endsBody (nested : Bool) : OnlyMarks (endsBody nested) := by
  intro k hk
  simp only [endsBody, Bool.and_eq_true, beq_iff_eq] at hk
  exact ⟨.closeCurly, hk.2⟩

/-- Where a rule begins, behind the white space before it. -/
theorem skip_spaces {stop : Token.Kind → Bool} {l cs : List Char} {ts us rest : List Token}
    {t : Token} (hl : Spaces l) (htokens : tokens (l ++ cs) = ts ++ us) (hends : Ends stop ts us)
    (hmarks : OnlyMarks stop) (hgap : ts.dropWhile Token.isGap = t :: rest)
    (hspace : cs.head?.any Token.isSpace = false)
    (hfirst : ∀ t ∈ (tokens cs).head?, t.isGap = false) :
    tokens cs = t :: rest ++ us ∧ Ends stop (t :: rest) us := by
  -- nothing that means nothing stands at the start of `cs`
  have hstart : ∀ {ts}, tokens cs = ts ++ us → ts.dropWhile Token.isGap = t :: rest →
      ts = t :: rest := by
    intro ts h hdrop
    cases ts with
    | nil => cases hdrop
    | cons u ts =>
        have hu : u.isGap = false := hfirst u (by rw [h]; rfl)
        rw [List.dropWhile_cons, hu] at hdrop
        exact hdrop
  cases l with
  | nil =>
      rw [List.nil_append] at htokens
      obtain rfl := hstart htokens hgap
      exact ⟨htokens, hends⟩
  | cons c l =>
      rw [Token.tokens_blank hl (List.cons_ne_nil _ _) hspace] at htokens
      obtain ⟨ts, rfl, hrest, hends⟩ := hends.exists_append [⟨.blank, c :: l⟩] htokens
        ⟨hmarks.blank, rfl⟩
      obtain rfl := hstart hrest hgap
      exact ⟨hrest, hends⟩

theorem exists_scopedSelector (id s : String) : ∃ cs, (scopedSelector id s).toList = '.' :: cs :=
  ⟨id.toList ++ '-' :: s.toList, by simp [scopedSelector]⟩

theorem first_at (cs : List Char) :
    ∀ t ∈ (tokens ('@' :: cs)).head?, t.kind = .other ∨ ∃ name, t.kind = .atKeyword name := by
  intro t ht
  rw [Token.tokens_cons] at ht
  cases ht
  change (if Token.startsIdent cs then (.atKeyword _, _) else (.other, 1) : Token.Kind × Nat).1 =
    .other ∨ ∃ name, (if Token.startsIdent cs then (.atKeyword _, _) else (.other, 1) :
      Token.Kind × Nat).1 = .atKeyword name
  split
  · exact .inr ⟨_, rfl⟩
  · exact .inl rfl

/-- What is behind a block that was opened in a body. -/
theorem Ends.block {stop : Token.Kind → Bool} {before inside block after us : List Token}
    {u : Token} (hends : Ends stop (before ++ u :: inside) us) (hbefore : Passes stop [] before)
    (hu : u.kind = .openCurly) (hstop : stop .openCurly = false)
    (hblock : cutBlock inside = (block, after)) :
    inside = block ++ after ∧ Ends (· == .closeCurly) block (after ++ us) ∧
      ∀ {c : Token} {rest : List Token}, after ++ us = c :: rest → c.kind = .closeCurly →
        ∃ after', after = c :: after' ∧ rest = after' ++ us ∧ Ends stop after' us := by
  have hinside : inside = block ++ after := by
    rw [← cut_append (· == .closeCurly) inside, show cut _ inside = _ from hblock]
  -- behind the opening brace the body ends as before, once the block has been closed
  have hopened : cutWithin stop ([] ++ [.closeCurly]) (inside ++ us) = (inside, us) := by
    have h := Ends.drop before hends hbefore
    rw [Ends, List.cons_append, cut, cutWithin_cons, hu, hstop] at h
    simp only [List.isEmpty_nil, Bool.and_false, Bool.false_eq_true, if_false, Prod.mk.injEq,
      List.cons.injEq, true_and] at h
    exact Prod.ext h.1 h.2
  obtain ⟨hcut, hend⟩ := cutBlock_within hopened
  rw [show cutWithin (· == .closeCurly) [] inside = (block, after) from hblock] at hcut hend
  have hblockEnds : Ends (· == .closeCurly) block (after ++ us) := by
    rw [Ends, ← List.append_assoc, ← hinside]
    exact hcut
  refine ⟨hinside, hblockEnds, fun {c rest} hrest hc => ?_⟩
  cases after with
  | nil =>
      rw [hend rfl] at hrest
      cases hrest
  | cons a after =>
      rw [List.cons_append, List.cons.injEq] at hrest
      obtain ⟨rfl, hrest⟩ := hrest
      refine ⟨after, rfl, hrest.symm, ?_⟩
      have hpasses := (Passes.of_cutWithin hblockEnds).1.block hu hstop hc
      refine Ends.drop (before ++ (u :: block ++ [a])) ?_ (hbefore.append hpasses)
      rw [hinside] at hends
      simpa using hends

/-- An at-keyword that loses nothing is written as it is. -/
theorem plain_of_atKeyword {name cs : List Char} {d : Char} {t : Token} {rest : List Token}
    (htokens : tokens ('@' :: (name ++ d :: cs)) = t :: rest) (ht : t.kind = .atKeyword name)
    (hlossless : weight t.text ≤ weight name + 1) (hd : d = ' ' ∨ d = ';') :
    isPlainName name = true ∧ tokens (d :: cs) = rest := by
  have hsound : t.Sound := Token.sound_of_mem_tokens (htokens ▸ List.mem_cons_self)
  have hname : Token.isNameChar d = false := by rcases hd with rfl | rfl <;> rfl
  have hback : d ≠ '\\' := by rcases hd with rfl | rfl <;> decide
  rcases (hsound.atKeyword name ht).2 hlossless with hplain | rfl
  · rw [Token.tokens_atKeyword hplain hname hback, List.cons.injEq] at htokens
    exact ⟨hplain, htokens.2⟩
  · -- a dash alone does not make an at-keyword
    exfalso
    have hident : Token.startsIdent ('-' :: d :: cs) = false := by
      rcases hd with rfl | rfl <;> rfl
    have hscan : Token.scan ('@' :: '-' :: d :: cs) = (.other, 1) := by
      change (if Token.startsIdent ('-' :: d :: cs) then _ else _) = _
      rw [hident]
      rfl
    have hkind : t.kind = .other := by
      rw [List.singleton_append, Token.tokens_cons, List.cons.injEq] at htokens
      rw [← htokens.1, Token.next, hscan]
    rw [hkind] at ht
    cases ht

/-! ## Reading back what was read -/

/-- The block of an at-rule that is kept as it is. -/
theorem keptBlock_of_ends {b : String} {block us : List Token} {r : List Char}
    (htokens : tokens (inBraces b ++ '\x7d' :: r) = block ++ us) (hb : trimmedText block = b)
    (hends : Ends (· == .closeCurly) block us) :
    stands (· == .closeCurly) b [' '] .closeCurly = true ∧
      us = Mark.closeCurly.token :: tokens r := by
  by_cases hempty : b = ""
  · subst hempty
    rw [inBraces, if_pos rfl, List.nil_append, tokens_closeCurly] at htokens
    exact ⟨by decide, (hends.eq_of_passes [] htokens rfl rfl).2⟩
  · rw [inBraces, if_neg hempty] at htokens
    have htokens' : tokens ([' '] ++ (b.toList ++ ([' '] ++ Mark.closeCurly.char :: r))) =
        block ++ us := by
      rw [← htokens]
      simp [Mark.char]
    exact stands_of_ends [' '] htokens' hb (.inr ⟨rfl, hempty⟩) blank_singleton hends
      onlyMarks_endsBlock

/-- The block of a style rule. -/
theorem declarationsBlock_of_ends {ds : List Declaration} {block us : List Token} {r : List Char}
    (htokens : tokens (declarationsText ds ++ '\x7d' :: r) = block ++ us)
    (hds : declarations block.length block = ds) (hends : Ends (· == .closeCurly) block us)
    (hlossless : tokensWeight block ≤ declarationsWeight ds) :
    ds.all Declaration.survives = true ∧ us = Mark.closeCurly.token :: tokens r := by
  cases ds with
  | nil =>
      rw [declarationsText, List.nil_append, tokens_closeCurly] at htokens
      exact ⟨rfl, (hends.eq_of_passes [] htokens rfl rfl).2⟩
  | cons d ds =>
      rw [declarationsText, List.append_assoc] at htokens
      exact declarationsSurvive_of_ends htokens (Nat.le_refl _) hds hends hlossless

theorem lead_eq (p : String) : lead p = [] ∧ p = "" ∨ lead p = [' '] ∧ p ≠ "" := by
  rw [lead]
  split_ifs with h
  · exact .inl ⟨rfl, h⟩
  · exact .inr ⟨rfl, h⟩

theorem blank_tail {tail : List Char} {m : Mark}
    (htail : tail = [' '] ∨ tail = [] ∧ m = .semicolon) : Blank tail := by
  rcases htail with rfl | ⟨rfl, -⟩
  · exact blank_singleton
  · exact blank_nil

/-- The name of an at-rule is followed by a blank or by the semicolon. -/
theorem exists_behind_name (p : String) (r : List Char) {tail : List Char} {m : Mark}
    (htail : tail = [' '] ∨ tail = [] ∧ m = .semicolon) :
    ∃ d cs, (d = ' ' ∨ d = ';') ∧ lead p ++ (p.toList ++ (tail ++ m.char :: r)) = d :: cs := by
  rcases lead_eq p with ⟨hlead, rfl⟩ | ⟨hlead, -⟩ <;> rw [hlead]
  · rcases htail with rfl | ⟨rfl, rfl⟩
    · exact ⟨' ', _, .inl rfl, rfl⟩
    · exact ⟨';', _, .inr rfl, rfl⟩
  · exact ⟨' ', _, .inl rfl, rfl⟩

theorem passes_atKeyword (nested : Bool) {t : Token} {name : List Char}
    (ht : t.kind = .atKeyword name) : Passes (endsBody nested) [] [t] := by
  refine ⟨?_, ?_⟩
  · rw [ht]
    cases nested <;> rfl
  · rw [ht]
    rfl

section AtRule

variable {nested : Bool} {l r : List Char} {p : String} {name : List Char} {t : Token}
  {ts us rest preamble : List Token}

/-- The start of an at-rule, up to the mark behind its preamble. -/
theorem atRule_of_ends (tail : List Char) {m : Mark} {after : List Token} (hl : Spaces l)
    (htokens : tokens (l ++ '@' :: (name ++ (lead p ++ (p.toList ++ (tail ++ m.char :: r))))) =
      ts ++ us)
    (hends : Ends (endsBody nested) ts us) (hgap : ts.dropWhile Token.isGap = t :: rest)
    (ht : t.kind = .atKeyword name) (hlossless : weight t.text ≤ weight name + 1)
    (hcut : cut endsPreamble rest = (preamble, after)) (hp : trimmedText preamble = p)
    (htail : tail = [' '] ∨ tail = [] ∧ m = .semicolon) :
    isPlainName name = true ∧ stands (endsHead nested) p tail m = true ∧
      after ++ us = m.token :: tokens r ∧ Passes (endsBody nested) [] (t :: preamble) ∧
      Ends (endsBody nested) (t :: preamble ++ after) us := by
  obtain ⟨d, cs, hd, hcs⟩ := exists_behind_name p r htail
  rw [hcs] at htokens
  have hfirst : ∀ t ∈ (tokens ('@' :: (name ++ d :: cs))).head?, t.isGap = false := by
    intro t ht
    rcases first_at _ t ht with h | ⟨name, h⟩ <;> rw [Token.isGap, Token.isFiller, h] <;> rfl
  obtain ⟨hstart, hends⟩ := skip_spaces hl htokens hends (onlyMarks_endsBody nested) hgap rfl hfirst
  rw [List.cons_append] at hstart
  obtain ⟨hplain, hrestTokens⟩ := plain_of_atKeyword hstart ht hlossless hd
  have hrest : rest = preamble ++ after := by rw [← cut_append endsPreamble rest, hcut]
  have hhead := passes_atKeyword nested ht
  have hbehind : Ends (endsHead nested) preamble (after ++ us) :=
    (Ends.drop [t] hends hhead).refine hcut
  rw [← hcs, hrest, List.append_assoc] at hrestTokens
  obtain ⟨hstands, hafter⟩ := stands_of_ends tail hrestTokens hp
    ((lead_eq p).imp_left And.left) (blank_tail htail) hbehind (onlyMarks_endsHead nested)
  refine ⟨hplain, hstands, hafter, hhead.append ?_, ?_⟩
  · rw [hafter] at hbehind
    exact (Passes.of_cutWithin hbehind).1.mono fun k hk => by rw [endsHead, hk]; rfl
  · rw [List.cons_append, ← hrest]
    exact hends

/-- An at-rule with a block, up to what the block holds. -/
theorem atBlock_of_ends {u : Token} {inside block after : List Token} (hl : Spaces l)
    (htokens : tokens (l ++ '@' :: (name ++ (lead p ++ (p.toList ++ ' ' :: '\x7b' :: r)))) =
      ts ++ us)
    (hends : Ends (endsBody nested) ts us) (hgap : ts.dropWhile Token.isGap = t :: rest)
    (ht : t.kind = .atKeyword name) (hlossless : weight t.text ≤ weight name + 1)
    (hcut : cut endsPreamble rest = (preamble, u :: inside)) (hp : trimmedText preamble = p)
    (hu : u.kind = .openCurly) (hblock : cutBlock inside = (block, after)) :
    isPlainName name = true ∧ stands (endsHead nested) p [' '] .openCurly = true ∧
      tokens r = block ++ (after ++ us) ∧ Ends (· == .closeCurly) block (after ++ us) ∧
      ∀ {c : Token} {rest : List Token}, after ++ us = c :: rest → c.kind = .closeCurly →
        ∃ after', after = c :: after' ∧ rest = after' ++ us ∧ Ends (endsBody nested) after' us := by
  obtain ⟨hplain, hstands, hopen, hpasses, hends⟩ := atRule_of_ends [' '] (m := .openCurly) hl
    htokens hends hgap ht hlossless hcut hp (.inl rfl)
  obtain ⟨hinside, hblockEnds, hbehind⟩ :=
    hends.block hpasses hu (by cases nested <;> rfl) hblock
  rw [List.cons_append, List.cons.injEq, hinside, List.append_assoc] at hopen
  exact ⟨hplain, hstands, hopen.2.symm, hblockEnds, hbehind⟩

end AtRule

/-- Reading rules from their own text, without a loss, shows that they survive. -/
def Reread (nested first : Bool) (ts : List Token) (rules : List Rule) : Prop :=
  ∀ ⦃us : List Token⦄ ⦃l fin : List Char⦄, Spaces l → IsEnd nested fin →
    tokens (l ++ (bodyText nested rules ++ fin)) = ts ++ us → Ends (endsBody nested) ts us →
    tokensWeight ts ≤ rulesWeight rules →
    Rule.surviveList nested rules = true ∧ (first = true → beginsWithCharset rules = false) ∧
      us = tokens fin.tail

section Reread

variable {nested first : Bool} {ts rest preamble inside block after : List Token} {t u : Token}
  {name : List Char} {rules inner : List Rule}

theorem reread_nil : Reread nested first ts [] := by
  intro us l fin hl hfin htokens hends _
  refine ⟨rfl, fun _ => rfl, ?_⟩
  cases nested with
  | false =>
      cases hfin
      cases us with
      | nil => rfl
      | cons u us => exact absurd (Passes.of_cutWithin hends).2 (by simp [endsBody])
  | true =>
      obtain ⟨r, rfl⟩ := hfin
      have hspaces : Spaces (l ++ [' ']) :=
        List.forall_mem_append.mpr ⟨hl, spaces_cons rfl spaces_nil⟩
      have hblank : tokens (l ++ [' '] ++ '\x7d' :: r) =
          ⟨.blank, l ++ [' ']⟩ :: tokens ('\x7d' :: r) :=
        Token.tokens_blank hspaces (by simp) rfl
      rw [tokens_closeCurly, List.append_assoc] at hblank
      rw [List.tail_cons, tokens_closeCurly]
      exact (hends.eq_of_passes [_] (hblank.symm.trans htokens) ⟨rfl, rfl⟩ rfl).2

/-- A `@charset` that is left out is a loss. -/
theorem reread_charset (hgap : ts.dropWhile Token.isGap = t :: rest)
    (ht : t.kind = .atKeyword name) (hrest : Reads false (cutRule t rest).2 rules) :
    Reread nested first ts rules := by
  intro us l fin _ _ htokens _ hlossless
  have hparts := sound_gap hgap (sound_of_append htokens)
  have hsuffix := suffix_cutRule ht rest
  have hrules := rulesWeight_le hrest fun x hx => hparts x (.tail _ (hsuffix.subset hx))
  have hkeyword := ((hparts _ (.head _)).atKeyword _ ht).1
  have hle := tokensWeight_gap hgap
  have hbehind := tokensWeight_suffix hsuffix
  -- the keyword weighs something, and none of it is in the rules
  omega

theorem reread_statement (hgap : ts.dropWhile Token.isGap = t :: rest)
    (ht : t.kind = .atKeyword name) (hname : (first && isCharset name) = false)
    (hcut : cut endsPreamble rest = (preamble, after)) (hrest : Reads false after.tail rules)
    (ih : Reread nested false after.tail rules) :
    Reread nested first ts
      (.verbatim (String.ofList name) (trimmedText preamble) none :: rules) := by
  intro us l fin hl hfin htokens hends hlossless
  obtain ⟨hkeyword, hle, hsafter⟩ := atStatement_parts hgap ht hcut (sound_of_append htokens)
  have hrules := rulesWeight_le hrest hsafter
  rw [rulesWeight_cons, weight_statement, String.toList_ofList, weight_trimmedText] at hlossless
  obtain ⟨l', hl', hlead⟩ := exists_lead nested rules fin
  rw [bodyText_cons, toList_statement, String.toList_ofList, List.append_assoc, hlead] at htokens
  -- the other rules weigh no more than their tokens, so the at-rule loses none of its own weight
  obtain ⟨hplain, hstands, hafter, hpasses, hends⟩ := atRule_of_ends [] (m := .semicolon)
    (r := l' ++ (bodyText nested rules ++ fin)) hl
    (by rw [← htokens]; simp [Mark.char]) hends hgap ht (by omega) hcut rfl (.inr ⟨rfl, rfl⟩)
  obtain ⟨after, rfl, hus⟩ := hends.exists_after hafter (by cases nested <;> rfl)
  have hends' : Ends (endsBody nested) after us :=
    Ends.drop (t :: preamble ++ [Mark.semicolon.token]) (by simpa using hends)
      (hpasses.marks_append (by cases nested <;> rfl) (.inl rfl) rfl)
  rw [List.tail_cons] at hle hrules ih
  obtain ⟨hsurvive, -, htail⟩ := ih hl' hfin hus hends' (by omega)
  refine ⟨?_, fun hfirst => ?_, htail⟩
  · rw [Rule.surviveList, Rule.survives, String.toList_ofList, hplain, hstands, hsurvive]
    rfl
  · rw [hfirst, Bool.true_and] at hname
    rw [beginsWithCharset, String.toList_ofList, hname]

theorem reread_verbatim (hgap : ts.dropWhile Token.isGap = t :: rest)
    (ht : t.kind = .atKeyword name) (hname : (first && isCharset name) = false)
    (hcut : cut endsPreamble rest = (preamble, u :: inside)) (hu : u.kind = .openCurly)
    (hblock : cutBlock inside = (block, after)) (hrest : Reads false after.tail rules)
    (ih : Reread nested false after.tail rules) :
    Reread nested first ts (.verbatim (String.ofList name) (trimmedText preamble)
      (some (trimmedText block)) :: rules) := by
  intro us l fin hl hfin htokens hends hlossless
  obtain ⟨hkeyword, hle, -, hsafter⟩ :=
    atBlock_parts hgap ht hcut hu hblock (sound_of_append htokens)
  have hrules := rulesWeight_le hrest hsafter
  rw [rulesWeight_cons, weight_verbatim, String.toList_ofList, weight_trimmedText,
    weight_trimmedText] at hlossless
  obtain ⟨l', hl', hlead⟩ := exists_lead nested rules fin
  rw [bodyText_cons, toList_verbatim, String.toList_ofList, List.append_assoc, hlead] at htokens
  -- the name and the preamble stand by the head of the rule, the block by its own end
  obtain ⟨hplain, hstands, hinside, hblockEnds, hbehind⟩ := atBlock_of_ends
    (r := inBraces (trimmedText block) ++ '\x7d' :: (l' ++ (bodyText nested rules ++ fin))) hl
    (by rw [← htokens]; simp) hends hgap ht (by omega) hcut rfl hu hblock
  obtain ⟨hkept, hclose⟩ := keptBlock_of_ends hinside rfl hblockEnds
  obtain ⟨after, rfl, hus, hends'⟩ := hbehind hclose rfl
  rw [List.tail_cons] at hle hrules ih
  obtain ⟨hsurvive, -, htail⟩ := ih hl' hfin hus hends' (by omega)
  refine ⟨?_, fun hfirst => ?_, htail⟩
  · rw [Rule.surviveList, Rule.survives, String.toList_ofList, hplain, hstands, hkept, hsurvive]
    rfl
  · rw [hfirst, Bool.true_and] at hname
    rw [beginsWithCharset, String.toList_ofList, hname]

theorem reread_group (hgap : ts.dropWhile Token.isGap = t :: rest)
    (ht : t.kind = .atKeyword name) (hname : (first && isCharset name) = false)
    (hcut : cut endsPreamble rest = (preamble, u :: inside)) (hu : u.kind = .openCurly)
    (hblock : cutBlock inside = (block, after)) (hinner : Reads true block inner)
    (hrest : Reads false after.tail rules) (ihinner : Reread true true block inner)
    (ih : Reread nested false after.tail rules) :
    Reread nested first ts (.group (String.ofList name) (trimmedText preamble) inner :: rules) := by
  intro us l fin hl hfin htokens hends hlossless
  obtain ⟨hkeyword, hle, hsblock, hsafter⟩ :=
    atBlock_parts hgap ht hcut hu hblock (sound_of_append htokens)
  have hrules := rulesWeight_le hrest hsafter
  have hinnerRules := rulesWeight_le hinner hsblock
  rw [rulesWeight_cons, weight_group, String.toList_ofList, weight_trimmedText] at hlossless
  obtain ⟨l', hl', hlead⟩ := exists_lead nested rules fin
  rw [bodyText_cons, toList_group, String.toList_ofList, List.append_assoc, hlead] at htokens
  obtain ⟨hplain, hstands, hinside, hblockEnds, hbehind⟩ := atBlock_of_ends
    (r := [' '] ++ (bodyText true inner ++
      ' ' :: '\x7d' :: (l' ++ (bodyText nested rules ++ fin)))) hl
    (by rw [← htokens]; simp [bodyText]) hends hgap ht (by omega) hcut rfl hu hblock
  -- the block ends where its rules have been read back, and that is where the body goes on
  obtain ⟨hinnerSurvive, hcharset, hclose⟩ :=
    ihinner (spaces_cons rfl spaces_nil) ⟨_, rfl⟩ hinside hblockEnds (by omega)
  rw [List.tail_cons, tokens_closeCurly] at hclose
  obtain ⟨after, rfl, hus, hends'⟩ := hbehind hclose rfl
  rw [List.tail_cons] at hle hrules ih
  obtain ⟨hsurvive, -, htail⟩ := ih hl' hfin hus hends' (by omega)
  refine ⟨?_, fun hfirst => ?_, htail⟩
  · rw [Rule.surviveList, Rule.survives, String.toList_ofList, hplain, hstands, hcharset rfl,
      hinnerSurvive, hsurvive]
    rfl
  · rw [hfirst, Bool.true_and] at hname
    rw [beginsWithCharset, String.toList_ofList, hname]

theorem reread_style {texts : List String} (hgap : ts.dropWhile Token.isGap = t :: rest)
    (hcut : cut (· == .openCurly) (t :: rest) = (preamble, u :: inside))
    (hblock : cutBlock inside = (block, after)) (htexts : selectors 0 preamble = .ok texts)
    (hdots : ∀ s ∈ texts, ∃ cs, s.toList = '.' :: cs) (hrest : Reads false after.tail rules)
    (ih : Reread nested false after.tail rules) :
    Reread nested first ts (.style texts (declarations block.length block) :: rules) := by
  intro us l fin hl hfin htokens hends hlossless
  obtain ⟨hle, hspreamble, hsblock, hsafter⟩ :=
    style_parts hgap hcut hblock (sound_of_append htokens)
  have hrules := rulesWeight_le hrest hsafter
  have hdeclarations := (weight_declarations block.length block hsblock).1
  obtain ⟨hne, hselectors⟩ := weight_commaParts hspreamble (Nat.le_refl _) htexts
  rw [rulesWeight_cons, weight_style] at hlossless
  obtain ⟨l', hl', hlead⟩ := exists_lead nested rules fin
  rw [bodyText_cons, toList_style, List.append_assoc, hlead] at htokens
  -- a scoped selector begins with a dot, so it is no gap between rules
  obtain ⟨cs, hcs⟩ := exists_dot hne hdots
  have hfirst : ∀ r, ∀ t ∈ (tokens ((", ".intercalate texts).toList ++ r)).head?,
      t.isGap = false := by
    intro r t ht
    rw [hcs] at ht
    rw [Token.isGap, Token.isFiller, first_dot _ t ht]
    rfl
  obtain ⟨hstart, hends⟩ := skip_spaces hl (by simpa using htokens) hends
    (onlyMarks_endsBody nested) hgap (by rw [hcs]; rfl) (hfirst _)
  have hhead : t :: rest = preamble ++ u :: inside := by
    rw [← cut_append (· == .openCurly) (t :: rest), hcut]
  have hbehind : Ends (endsSelectors nested) preamble (u :: inside ++ us) := hends.refine hcut
  have hpasses : Passes (endsBody nested) [] preamble :=
    (Passes.of_cutWithin hbehind).1.mono fun k hk => by rw [endsSelectors, hk]; rfl
  have hu : u.kind = .openCurly := by simpa using (Passes.of_cutWithin hcut).2
  rw [hhead] at hstart hends
  rw [List.append_assoc] at hstart
  obtain ⟨hselect, hopen⟩ := selectorsSurvive_of_ends (l := []) hstart (Nat.le_refl _) htexts
    hdots hbehind (.inl rfl)
  obtain ⟨hinside, hblockEnds, hclosing⟩ :=
    hends.block hpasses hu (by cases nested <;> rfl) hblock
  rw [List.cons_append, List.cons.injEq, hinside, List.append_assoc] at hopen
  obtain ⟨hall, hclose⟩ := declarationsBlock_of_ends hopen.2.symm rfl hblockEnds (by omega)
  obtain ⟨after, rfl, hus, hends'⟩ := hclosing hclose rfl
  rw [List.tail_cons] at hle hrules ih
  obtain ⟨hsurvive, -, htail⟩ := ih hl' hfin hus hends' (by omega)
  refine ⟨?_, fun _ => rfl, htail⟩
  rw [Rule.surviveList, Rule.survives, hselect, hall, hsurvive]
  rfl

end Reread

/-- Scoped rules that are read from their own text survive. -/
theorem reread_of_reads {first : Bool} {ts : List Token} {rules : List Rule}
    (h : Reads first ts rules) (nested : Bool) (id : String) (originals : List Rule)
    (hscoped : rules = Rule.scopedList id originals) : Reread nested first ts rules := by
  have hcons : ∀ {r : Rule} {rules originals : List Rule},
      r :: rules = Rule.scopedList id originals → ∃ original others,
        r = Rule.scoped id original ∧ rules = Rule.scopedList id others := by
    intro r rules originals h
    cases originals with
    | nil => cases h
    | cons original others => exact ⟨original, others, List.cons.inj h⟩
  -- rule by rule; the originals tell that every selector is a scoped one
  induction h generalizing nested originals with
  | nil hgap => exact reread_nil
  | charset hgap ht hname hrest ih => exact reread_charset hgap ht hrest
  | statement hgap ht hname hcut hafter hrest ih =>
      obtain ⟨-, others, -, hrules⟩ := hcons hscoped
      exact reread_statement hgap ht hname hcut hrest (ih nested others hrules)
  | verbatim hgap ht hname hcut hu hblock hgroup hrest ih =>
      obtain ⟨-, others, -, hrules⟩ := hcons hscoped
      exact reread_verbatim hgap ht hname hcut hu hblock hrest (ih nested others hrules)
  | group hgap ht hname hcut hu hblock hgroup hinner hrest ihinner ih =>
      obtain ⟨original, others, hr, hrules⟩ := hcons hscoped
      cases original with
      | style => cases hr
      | verbatim => cases hr
      | group _ _ inner =>
          exact reread_group hgap ht hname hcut hu hblock hinner hrest
            (ihinner true inner (Rule.group.inj hr).2.2) (ih nested others hrules)
  | style hgap ht hcut hblock htexts hrest ih =>
      obtain ⟨original, others, hr, hrules⟩ := hcons hscoped
      cases original with
      | group => cases hr
      | verbatim => cases hr
      | style texts _ =>
          refine reread_style hgap hcut hblock htexts ?_ hrest (ih nested others hrules)
          rw [(Rule.style.inj hr).1]
          exact List.forall_mem_map.mpr fun s _ => exists_scopedSelector id s

theorem toList_render (sheet : Sheet) : sheet.render.toList = bodyText false sheet.rules := by
  rw [Sheet.render, Rule.renderList_eq_map]
  rfl

theorem weight_bodyText (nested : Bool) (rules : List Rule) :
    weight (bodyText nested rules) = rulesWeight rules := by
  cases nested <;> exact weight_intercalate (by rfl) _

/-- Nothing ends a sheet but its end. -/
theorem ends_sheet (ts : List Token) : Ends (endsBody false) ts [] := by
  have hnever : ∀ pending, cutWithin (endsBody false) pending ts = (ts, []) := by
    induction ts with
    | nil => exact fun _ => rfl
    | cons t ts ih =>
        intro pending
        rw [cutWithin_cons, ih, endsBody, Bool.false_and, Bool.and_false, if_neg Bool.false_ne_true]
  rw [Ends, List.append_nil]
  exact hnever []

/-- A scoped sheet that is read back from its text survives. -/
theorem survives_of_parse {sheet : Sheet} {id : String}
    (h : Sheet.parse (sheet.scoped id).render = .ok (sheet.scoped id)) :
    (sheet.scoped id).survives = true := by
  have htokens : tokens ([] ++ (bodyText false (sheet.scoped id).rules ++ [])) =
      tokens (sheet.scoped id).render.toList ++ [] := by
    rw [toList_render, List.nil_append, List.append_nil, List.append_nil]
  have hlossless : tokensWeight (tokens (sheet.scoped id).render.toList) ≤
      rulesWeight (sheet.scoped id).rules := by
    rw [tokensWeight, Token.textOf_tokens, toList_render, weight_bodyText]
  obtain ⟨hsurvive, hcharset, -⟩ := reread_of_reads (parse_eq_ok.mp h) false id sheet.rules rfl
    spaces_nil rfl htokens (ends_sheet _) hlossless
  rw [Sheet.survives, hcharset rfl, hsurvive]
  rfl

end CustomElements.Style
