import CustomElements.Proofs.Style.Cutting

/-!
# What the parser reads

The parser carries fuel and, for its messages, the number of characters before the place it is at.
Neither has a part in which rules it reads. The relation `Reads` says what is read without them, one
constructor for each kind of rule, and the parser computes it (`parse_eq_ok`): its one step is
opened once, in `rulesWith_cons`, from which the equation of each kind of rule follows.
-/

namespace CustomElements.Style

/-- The name of the at-rule that says nothing where no rule has been read yet. -/
def isCharset (name : List Char) : Bool :=
  name.map Char.toLower == ['c', 'h', 'a', 'r', 's', 'e', 't']

/-- What ends the preamble of an at-rule. -/
def endsPreamble (k : Token.Kind) : Bool := k == .semicolon || k == .openCurly

/--
Reading the tokens gives the rules. `first` tells that no rule has been read yet. Between rules
tokens without a meaning are passed over; `t` is the token that the next rule begins with and `rest`
what follows it.
-/
inductive Reads : (first : Bool) → List Token → List Rule → Prop
  /-- Nothing is left but tokens without a meaning. -/
  | nil {first : Bool} {ts : List Token} (hgap : ts.dropWhile Token.isGap = []) : Reads first ts []
  /-- A `@charset` before all rules is left out. -/
  | charset {ts rest : List Token} {t : Token} {name : List Char} {rules : List Rule}
      (hgap : ts.dropWhile Token.isGap = t :: rest) (ht : t.kind = .atKeyword name)
      (hname : isCharset name = true) (hrest : Reads false (cutRule t rest).2 rules) :
      Reads true ts rules
  /-- An at-rule without a block. -/
  | statement {first : Bool} {ts rest preamble after : List Token} {t : Token} {name : List Char}
      {rules : List Rule} (hgap : ts.dropWhile Token.isGap = t :: rest)
      (ht : t.kind = .atKeyword name) (hname : (first && isCharset name) = false)
      (hcut : cut endsPreamble rest = (preamble, after))
      (hafter : ∀ u ∈ after.head?, u.kind ≠ .openCurly) (hrest : Reads false after.tail rules) :
      Reads first ts (.verbatim (String.ofList name) (trimmedText preamble) none :: rules)
  /-- An at-rule with a block that is kept as it is. -/
  | verbatim {first : Bool} {ts rest preamble inside block after : List Token} {t u : Token}
      {name : List Char} {rules : List Rule} (hgap : ts.dropWhile Token.isGap = t :: rest)
      (ht : t.kind = .atKeyword name) (hname : (first && isCharset name) = false)
      (hcut : cut endsPreamble rest = (preamble, u :: inside)) (hu : u.kind = .openCurly)
      (hblock : cutBlock inside = (block, after)) (hgroup : isGrouping name = false)
      (hrest : Reads false after.tail rules) :
      Reads first ts
        (.verbatim (String.ofList name) (trimmedText preamble) (some (trimmedText block)) :: rules)
  /-- An at-rule whose block holds rules. -/
  | group {first : Bool} {ts rest preamble inside block after : List Token} {t u : Token}
      {name : List Char} {inner rules : List Rule} (hgap : ts.dropWhile Token.isGap = t :: rest)
      (ht : t.kind = .atKeyword name) (hname : (first && isCharset name) = false)
      (hcut : cut endsPreamble rest = (preamble, u :: inside)) (hu : u.kind = .openCurly)
      (hblock : cutBlock inside = (block, after)) (hgroup : isGrouping name = true)
      (hinner : Reads true block inner) (hrest : Reads false after.tail rules) :
      Reads first ts (.group (String.ofList name) (trimmedText preamble) inner :: rules)
  /-- A style rule. -/
  | style {first : Bool} {ts rest preamble inside block after : List Token} {t u : Token}
      {texts : List String} {rules : List Rule} (hgap : ts.dropWhile Token.isGap = t :: rest)
      (ht : ∀ name, t.kind ≠ .atKeyword name)
      (hcut : cut (· == .openCurly) (t :: rest) = (preamble, u :: inside))
      (hblock : cutBlock inside = (block, after)) (htexts : selectors 0 preamble = .ok texts)
      (hrest : Reads false after.tail rules) :
      Reads first ts (.style texts (declarations block.length block) :: rules)

section CutRule

variable {t u : Token} {name : List Char} {rest preamble inside block after : List Token}

theorem cutRule_statement (ht : t.kind = .atKeyword name)
    (hcut : cut endsPreamble rest = (preamble, after))
    (hafter : ∀ u ∈ after.head?, u.kind ≠ .openCurly) :
    cutRule t rest = (⟨some name, preamble, none, after.take 1, []⟩, after.tail) := by
  have hcut' : cut (fun k => k == .semicolon || k == .openCurly) rest = (preamble, after) := hcut
  simp only [cutRule, ht, hcut']
  cases after with
  | nil => rfl
  | cons u after => simp only [if_neg (hafter u rfl)]; rfl

theorem cutRule_block (ht : t.kind = .atKeyword name)
    (hcut : cut endsPreamble rest = (preamble, u :: inside)) (hu : u.kind = .openCurly)
    (hblock : cutBlock inside = (block, after)) :
    cutRule t rest = (⟨some name, preamble, some block, [u], after.take 1⟩, after.tail) := by
  have hcut' : cut (fun k => k == .semicolon || k == .openCurly) rest = (preamble, u :: inside) :=
    hcut
  simp only [cutRule, ht, hcut', if_pos hu, hblock, List.drop_one]

theorem cutRule_style (ht : ∀ name, t.kind ≠ .atKeyword name)
    (hcut : cut (· == .openCurly) (t :: rest) = (preamble, u :: inside))
    (hblock : cutBlock inside = (block, after)) :
    cutRule t rest = (⟨none, preamble, some block, [u], after.take 1⟩, after.tail) := by
  have hu : u.kind = .openCurly := by simpa using (Passes.of_cutWithin hcut).2
  unfold cutRule
  split
  · rename_i name hname
    exact absurd hname (ht name)
  · simp only [hcut, if_pos hu, hblock, List.drop_one]

theorem cutRule_endless (ht : ∀ name, t.kind ≠ .atKeyword name)
    (hcut : cut (· == .openCurly) (t :: rest) = (preamble, [])) :
    cutRule t rest = (⟨none, preamble, none, [], []⟩, []) := by
  unfold cutRule
  split
  · rename_i name hname
    exact absurd hname (ht name)
  · simp only [hcut]

variable (fuel : Nat) {first : Bool} {ts : List Token}

theorem rulesWith_nil (offset : Nat) (hgap : ts.dropWhile Token.isGap = []) :
    rulesWith (fuel + 1) first offset ts = .ok [] := by
  rw [rulesWith, hgap]

/-- One step of the parser at a token that is no gap. The places that it counts, and what it puts
into the fault of a block, are left open. -/
theorem rulesWith_cons (first : Bool) (offset : Nat)
    (hgap : ts.dropWhile Token.isGap = t :: rest) :
    ∃ (start inner place : Nat) (fault : Fault → Fault), rulesWith (fuel + 1) first offset ts =
      let raw := (cutRule t rest).1
      let onward := rulesWith fuel false place (cutRule t rest).2
      match raw.name? with
      | some name =>
        if first && isCharset name then onward
        else
          let preamble := trimmedText raw.preamble
          match raw.block with
          | none => onward.map (.verbatim (String.ofList name) preamble none :: ·)
          | some block =>
            if isGrouping name then
              match rulesWith fuel true inner block with
              | .ok rules => onward.map (.group (String.ofList name) preamble rules :: ·)
              | .error e => .error (fault e)
            else
              onward.map (.verbatim (String.ofList name) preamble (some (trimmedText block)) :: ·)
      | none =>
        match raw.block, selectors start raw.preamble with
        | none, _ => .error (fault ⟨.endOfInput, inner, []⟩)
        | some _, .error faulty =>
          .error ⟨.emptySelector, faulty, nearText (raw.preamble ++ raw.opening)⟩
        | some block, .ok texts =>
          onward.map (.style texts (declarations block.length block) :: ·) := by
  rw [rulesWith, hgap]
  -- the parser changes no more of a fault than what it is near
  exact ⟨_, _, _, fun e => { e with near := _ }, rfl⟩

theorem rulesWith_charset (offset : Nat) (hgap : ts.dropWhile Token.isGap = t :: rest)
    (ht : t.kind = .atKeyword name) (hname : isCharset name = true) :
    ∃ place, rulesWith (fuel + 1) true offset ts =
      rulesWith fuel false place (cutRule t rest).2 := by
  have hraw : (cutRule t rest).1.name? = some name := by
    simp only [cutRule, ht]
    split
    · rfl
    · split <;> rfl
  obtain ⟨_, _, place, _, hstep⟩ := rulesWith_cons fuel true offset hgap
  refine ⟨place, ?_⟩
  rw [hstep]
  simp only [hraw, hname, Bool.true_and, if_true]

theorem rulesWith_statement (offset : Nat) (hgap : ts.dropWhile Token.isGap = t :: rest)
    (ht : t.kind = .atKeyword name) (hname : (first && isCharset name) = false)
    (hcut : cut endsPreamble rest = (preamble, after))
    (hafter : ∀ u ∈ after.head?, u.kind ≠ .openCurly) :
    ∃ place, rulesWith (fuel + 1) first offset ts = (rulesWith fuel false place after.tail).map
      (.verbatim (String.ofList name) (trimmedText preamble) none :: ·) := by
  obtain ⟨_, _, place, _, hstep⟩ := rulesWith_cons fuel first offset hgap
  refine ⟨place, ?_⟩
  rw [hstep]
  simp only [cutRule_statement ht hcut hafter, hname, Bool.false_eq_true, if_false]

theorem rulesWith_verbatim (offset : Nat) (hgap : ts.dropWhile Token.isGap = t :: rest)
    (ht : t.kind = .atKeyword name) (hname : (first && isCharset name) = false)
    (hcut : cut endsPreamble rest = (preamble, u :: inside)) (hu : u.kind = .openCurly)
    (hblock : cutBlock inside = (block, after)) (hgroup : isGrouping name = false) :
    ∃ place, rulesWith (fuel + 1) first offset ts = (rulesWith fuel false place after.tail).map
      (.verbatim (String.ofList name) (trimmedText preamble) (some (trimmedText block)) :: ·) := by
  obtain ⟨_, _, place, _, hstep⟩ := rulesWith_cons fuel first offset hgap
  refine ⟨place, ?_⟩
  rw [hstep]
  simp only [cutRule_block ht hcut hu hblock, hname, hgroup, Bool.false_eq_true, if_false]

theorem rulesWith_group (offset : Nat) (hgap : ts.dropWhile Token.isGap = t :: rest)
    (ht : t.kind = .atKeyword name) (hname : (first && isCharset name) = false)
    (hcut : cut endsPreamble rest = (preamble, u :: inside)) (hu : u.kind = .openCurly)
    (hblock : cutBlock inside = (block, after)) (hgroup : isGrouping name = true) :
    ∃ (start place : Nat) (fault : _ → Fault), rulesWith (fuel + 1) first offset ts =
      match rulesWith fuel true start block with
      | .ok inner => (rulesWith fuel false place after.tail).map
          (.group (String.ofList name) (trimmedText preamble) inner :: ·)
      | .error e => .error (fault e) := by
  obtain ⟨_, inner, place, fault, hstep⟩ := rulesWith_cons fuel first offset hgap
  refine ⟨inner, place, fault, ?_⟩
  rw [hstep]
  simp only [cutRule_block ht hcut hu hblock, hname, hgroup, Bool.false_eq_true, if_false, if_true]

theorem rulesWith_style (first : Bool) (offset : Nat) (hgap : ts.dropWhile Token.isGap = t :: rest)
    (ht : ∀ name, t.kind ≠ .atKeyword name)
    (hcut : cut (· == .openCurly) (t :: rest) = (preamble, u :: inside))
    (hblock : cutBlock inside = (block, after)) :
    ∃ start place, rulesWith (fuel + 1) first offset ts =
      match selectors start preamble with
      | .ok texts => (rulesWith fuel false place after.tail).map
          (.style texts (declarations block.length block) :: ·)
      | .error faulty => .error ⟨.emptySelector, faulty, nearText (preamble ++ [u])⟩ := by
  obtain ⟨start, _, place, _, hstep⟩ := rulesWith_cons fuel first offset hgap
  refine ⟨start, place, ?_⟩
  rw [hstep]
  simp only [cutRule_style ht hcut hblock]
  cases selectors start preamble <;> rfl

theorem rulesWith_endless (first : Bool) (offset : Nat)
    (hgap : ts.dropWhile Token.isGap = t :: rest) (ht : ∀ name, t.kind ≠ .atKeyword name)
    (hcut : cut (· == .openCurly) (t :: rest) = (preamble, [])) :
    ∃ fault, rulesWith (fuel + 1) first offset ts = .error fault := by
  obtain ⟨_, inner, _, fault, hstep⟩ := rulesWith_cons fuel first offset hgap
  refine ⟨fault ⟨.endOfInput, inner, []⟩, ?_⟩
  rw [hstep]
  simp only [cutRule_endless ht hcut]

end CutRule

/-! ## How many tokens are left -/

theorem suffix_of_cut {stop : Token.Kind → Bool} {ts before after : List Token}
    (hcut : cut stop ts = (before, after)) : after <:+ ts := by
  have := cut_append stop ts
  rw [hcut] at this
  exact ⟨before, this⟩

theorem length_cut {stop : Token.Kind → Bool} {ts before after : List Token}
    (hcut : cut stop ts = (before, after)) : before.length + after.length = ts.length := by
  rw [← List.length_append, ← cut_append stop ts, hcut]

theorem length_cutBlock {inside block after : List Token}
    (hblock : cutBlock inside = (block, after)) :
    block.length ≤ inside.length ∧ after.tail.length ≤ inside.length := by
  have := length_cut hblock
  rw [List.length_tail]
  omega

theorem length_dropWhile_cons {ts rest : List Token} {t : Token}
    (hgap : ts.dropWhile Token.isGap = t :: rest) : rest.length < ts.length := by
  have := (List.dropWhile_suffix (l := ts) Token.isGap).length_le
  rw [hgap, List.length_cons] at this
  exact this

theorem suffix_cutRule {t : Token} {name : List Char} (ht : t.kind = .atKeyword name)
    (rest : List Token) : (cutRule t rest).2 <:+ rest := by
  rcases hcut : cut endsPreamble rest with ⟨preamble, after⟩
  have hsuffix := suffix_of_cut hcut
  by_cases hafter : ∀ u ∈ after.head?, u.kind ≠ .openCurly
  · rw [cutRule_statement ht hcut hafter]
    exact (List.tail_suffix after).trans hsuffix
  · cases after with
    | nil => exact absurd nofun hafter
    | cons u inside =>
        have hu : u.kind = .openCurly := by simpa using hafter
        rw [cutRule_block ht hcut hu rfl]
        exact ((List.tail_suffix _).trans (suffix_of_cut rfl)).trans
          ((List.suffix_cons u inside).trans hsuffix)

theorem map_eq_ok {ε α β : Type} {f : α → β} {x : Except ε α} {b : β} :
    x.map f = .ok b ↔ ∃ a, x = .ok a ∧ b = f a := by
  cases x <;> simp [Except.map, eq_comm]

theorem selectorTexts_offset {parts : List (List Token)} {texts : List String} {offset : Nat}
    (h : selectorTexts offset parts = .ok texts) (offset' : Nat) :
    selectorTexts offset' parts = .ok texts := by
  induction parts generalizing texts offset offset' with
  | nil => exact h
  | cons part parts ih =>
      rw [selectorTexts] at h ⊢
      split_ifs at h ⊢
      split at h
      · rename_i others hothers
        rw [ih hothers]
        exact h
      · cases h

/-- What the parser comes upon at a token that is no gap: a `@charset` before all rules, a rule of
one of the kinds, or a style rule whose block does not begin. -/
inductive Onset (first : Bool) (t : Token) (rest : List Token) : Prop where
  | charset {name : List Char} (ht : t.kind = .atKeyword name) (hfirst : first = true)
      (hname : isCharset name = true)
  | statement {name : List Char} {preamble after : List Token} (ht : t.kind = .atKeyword name)
      (hname : (first && isCharset name) = false) (hcut : cut endsPreamble rest = (preamble, after))
      (hafter : ∀ u ∈ after.head?, u.kind ≠ .openCurly)
  | block {name : List Char} {preamble inside block after : List Token} {u : Token}
      (ht : t.kind = .atKeyword name) (hname : (first && isCharset name) = false)
      (hcut : cut endsPreamble rest = (preamble, u :: inside)) (hu : u.kind = .openCurly)
      (hblock : cutBlock inside = (block, after))
  | style {preamble inside block after : List Token} {u : Token}
      (ht : ∀ name, t.kind ≠ .atKeyword name)
      (hcut : cut (· == .openCurly) (t :: rest) = (preamble, u :: inside))
      (hblock : cutBlock inside = (block, after))
  | endless {preamble : List Token} (ht : ∀ name, t.kind ≠ .atKeyword name)
      (hcut : cut (· == .openCurly) (t :: rest) = (preamble, []))

theorem onset (first : Bool) (t : Token) (rest : List Token) : Onset first t rest := by
  by_cases ht : ∃ name, t.kind = .atKeyword name
  · obtain ⟨name, ht⟩ := ht
    cases hname : first && isCharset name with
    | true =>
        rw [Bool.and_eq_true] at hname
        exact .charset ht hname.1 hname.2
    | false =>
        rcases hcut : cut endsPreamble rest with ⟨preamble, after⟩
        by_cases hafter : ∀ u ∈ after.head?, u.kind ≠ .openCurly
        · exact .statement ht hname hcut hafter
        · cases after with
          | nil => exact absurd nofun hafter
          | cons u inside => exact .block ht hname hcut (by simpa using hafter) rfl
  · have ht' : ∀ name, t.kind ≠ .atKeyword name := fun name hname => ht ⟨name, hname⟩
    rcases hcut : cut (· == .openCurly) (t :: rest) with ⟨preamble, - | ⟨u, inside⟩⟩
    · exact .endless ht' hcut
    · exact .style ht' hcut rfl

theorem reads_of_rulesWith {fuel : Nat} {first : Bool} {offset : Nat} {ts : List Token}
    {rules : List Rule} (hfuel : ts.length < fuel)
    (h : rulesWith fuel first offset ts = .ok rules) : Reads first ts rules := by
  -- on the fuel: each rule takes tokens away, so what is behind it and what is in it have enough
  induction fuel generalizing first offset ts rules with
  | zero => omega
  | succ fuel ih =>
      cases hgap : ts.dropWhile Token.isGap with
      | nil =>
          rw [rulesWith_nil fuel offset hgap] at h
          cases h
          exact .nil hgap
      | cons t rest =>
          have hlen := length_dropWhile_cons hgap
          cases onset first t rest with
          | charset ht hfirst hname =>
              subst hfirst
              obtain ⟨place, hplace⟩ := rulesWith_charset fuel offset hgap ht hname
              rw [hplace] at h
              have := (suffix_cutRule ht rest).length_le
              exact .charset hgap ht hname (ih (by omega) h)
          | statement ht hname hcut hafter =>
              have hparts := length_cut hcut
              obtain ⟨place, hplace⟩ := rulesWith_statement fuel offset hgap ht hname hcut hafter
              rw [hplace, map_eq_ok] at h
              obtain ⟨rules, h, rfl⟩ := h
              refine .statement hgap ht hname hcut hafter (ih ?_ h)
              rw [List.length_tail]
              omega
          | @block name _ _ _ _ _ ht hname hcut hu hblock =>
              have hparts := length_cut hcut
              have hlens := length_cutBlock hblock
              rw [List.length_cons] at hparts
              cases hgroup : isGrouping name with
              | false =>
                  obtain ⟨place, hplace⟩ :=
                    rulesWith_verbatim fuel offset hgap ht hname hcut hu hblock hgroup
                  rw [hplace, map_eq_ok] at h
                  obtain ⟨rules, h, rfl⟩ := h
                  exact .verbatim hgap ht hname hcut hu hblock hgroup (ih (by omega) h)
              | true =>
                  obtain ⟨start, place, fault, hplace⟩ :=
                    rulesWith_group fuel offset hgap ht hname hcut hu hblock hgroup
                  rw [hplace] at h
                  split at h
                  · rename_i inner hinner
                    rw [map_eq_ok] at h
                    obtain ⟨rules, h, rfl⟩ := h
                    exact .group hgap ht hname hcut hu hblock hgroup (ih (by omega) hinner)
                      (ih (by omega) h)
                  · cases h
          | style ht hcut hblock =>
              have hparts := length_cut hcut
              have hlens := length_cutBlock hblock
              rw [List.length_cons, List.length_cons] at hparts
              obtain ⟨start, place, hplace⟩ := rulesWith_style fuel first offset hgap ht hcut hblock
              rw [hplace] at h
              split at h
              · rename_i texts htexts
                rw [map_eq_ok] at h
                obtain ⟨rules, h, rfl⟩ := h
                exact .style hgap ht hcut hblock (selectorTexts_offset htexts 0) (ih (by omega) h)
              · cases h
          | endless ht hcut =>
              obtain ⟨fault, hfault⟩ := rulesWith_endless fuel first offset hgap ht hcut
              rw [hfault] at h
              cases h

/-- **The relation is what the parser computes**, given fuel for each token. -/
theorem rulesWith_of_reads {first : Bool} {ts : List Token} {rules : List Rule}
    (h : Reads first ts rules) (fuel offset : Nat) (hfuel : ts.length < fuel) :
    rulesWith fuel first offset ts = .ok rules := by
  induction h generalizing fuel offset with
  | nil hgap =>
      obtain ⟨fuel, rfl⟩ := Nat.exists_eq_add_of_lt hfuel
      exact rulesWith_nil _ offset hgap
  | @charset _ rest _ _ _ hgap ht hname hrest ih =>
      obtain ⟨fuel, rfl⟩ := Nat.exists_eq_add_of_le' (Nat.one_le_of_lt hfuel)
      obtain ⟨place, hplace⟩ := rulesWith_charset fuel offset hgap ht hname
      have h1 := length_dropWhile_cons hgap
      have h2 := (suffix_cutRule ht rest).length_le
      rw [hplace]
      exact ih _ _ (Nat.lt_of_le_of_lt h2 (by omega))
  | statement hgap ht hname hcut hafter hrest ih =>
      obtain ⟨fuel, rfl⟩ := Nat.exists_eq_add_of_le' (Nat.one_le_of_lt hfuel)
      obtain ⟨place, hplace⟩ := rulesWith_statement fuel offset hgap ht hname hcut hafter
      have h1 := length_dropWhile_cons hgap
      have h2 := length_cut hcut
      rw [hplace, ih _ _ (by rw [List.length_tail]; omega)]
      rfl
  | verbatim hgap ht hname hcut hu hblock hgroup hrest ih =>
      obtain ⟨fuel, rfl⟩ := Nat.exists_eq_add_of_le' (Nat.one_le_of_lt hfuel)
      obtain ⟨place, hplace⟩ :=
        rulesWith_verbatim fuel offset hgap ht hname hcut hu hblock hgroup
      have h1 := length_dropWhile_cons hgap
      have h2 := length_cut hcut
      have h3 := length_cutBlock hblock
      rw [List.length_cons] at h2
      rw [hplace, ih _ _ (by omega)]
      rfl
  | group hgap ht hname hcut hu hblock hgroup hinner hrest ihinner ih =>
      obtain ⟨fuel, rfl⟩ := Nat.exists_eq_add_of_le' (Nat.one_le_of_lt hfuel)
      obtain ⟨start, place, fault, hplace⟩ :=
        rulesWith_group fuel offset hgap ht hname hcut hu hblock hgroup
      have h1 := length_dropWhile_cons hgap
      have h2 := length_cut hcut
      have h3 := length_cutBlock hblock
      rw [List.length_cons] at h2
      rw [hplace, ihinner _ _ (by omega)]
      simp only
      rw [ih _ _ (by omega)]
      rfl
  | @style first _ _ _ _ _ _ _ _ _ _ hgap ht hcut hblock htexts hrest ih =>
      obtain ⟨fuel, rfl⟩ := Nat.exists_eq_add_of_le' (Nat.one_le_of_lt hfuel)
      obtain ⟨start, place, hplace⟩ :=
        rulesWith_style fuel first offset hgap ht hcut hblock
      have h1 := length_dropWhile_cons hgap
      have h2 := length_cut hcut
      have h3 := length_cutBlock hblock
      rw [List.length_cons, List.length_cons] at h2
      rw [hplace, show selectors start _ = _ from selectorTexts_offset htexts start]
      simp only
      rw [ih _ _ (by omega)]
      rfl

theorem parse_eq_ok {css : String} {sheet : Sheet} :
    Sheet.parse css = .ok sheet ↔ Reads true (Token.tokens css.toList) sheet.rules := by
  rw [Sheet.parse]
  constructor
  · intro h
    split at h
    · rename_i rules hrules
      cases h
      exact reads_of_rulesWith (Nat.lt_succ_self _) hrules
    · cases h
  · intro h
    rw [rulesWith_of_reads h _ 0 (Nat.lt_succ_self _)]

end CustomElements.Style
