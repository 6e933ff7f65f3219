import CustomElements.Jinja.Parser

/-!
# Reading an output with a filter

The shortest template that changes a value writes a name, a bar and a filter between double braces.
What is written here about it goes along the way of every template. The scan finds five tokens, of
which the names end where the spaces begin (`scan_piped`). The descent passes through all levels of
operators, none of which sees an operator, and at the bottom finds the name and the filter
(`readExpr_of_unary`). So the program is one output of the filter applied to the name
(`parse_piped`), whatever the names are, except for the few words that an expression takes for
something else.
-/

namespace CustomElements.Jinja

/-- The template that writes what a filter makes of the value of a name. -/
def pipedSource (name filter : String) : String :=
  "\x7b\x7b " ++ name ++ " | " ++ filter ++ " \x7d\x7d"

/-- The characters are a letter or an underscore, then letters, digits and underscores. -/
def isIdentifier : List Char → Bool
  | [] => false
  | c :: rest => isNameStart c && rest.all isNamePart

/-- The words that do not stand for a name where an expression begins. -/
def expressionWords : List String := ["true", "True", "false", "False", "none", "None", "not"]

/-! ## Scanning -/

section Scan

variable {c : Char}

theorem isNamePart_of_isNameStart (h : isNameStart c = true) : isNamePart c = true := by
  simp only [isNameStart, isNamePart, Char.isAlphanum, Bool.or_eq_true] at h ⊢
  rcases h with h | h
  · exact .inl (.inl h)
  · exact .inr h

theorem isGap_of_isNameStart (h : isNameStart c = true) : isGap c = false := by
  cases hgap : isGap c with
  | false => rfl
  | true =>
      simp only [isGap, Bool.or_eq_true, beq_iff_eq] at hgap
      rcases hgap with (((rfl | rfl) | rfl) | rfl) | rfl <;> cases h

theorem takeSign_of_isNameStart (h : isNameStart c = true) (cs : List Char) :
    takeSign (c :: cs) = (none, c :: cs) := by
  have hminus : c ≠ '-' := by
    rintro rfl
    cases h
  have hplus : c ≠ '+' := by
    rintro rfl
    cases h
  simp [takeSign, hminus, hplus]

theorem closed?_of_isNameStart (h : isNameStart c = true) (cs : List Char) :
    (Place.output 0).closed? (c :: cs) = none := by
  have hc : ('}' == c) = false := by
    rw [beq_eq_false_iff_ne]
    rintro rfl
    cases h
  rw [Place.closed?, closing?, takeSign_of_isNameStart h]
  simp [List.isPrefixOf, hc]

/-- A name ends at the first character that belongs to no name. -/
theorem insideToken_name {name : List Char} (hname : isIdentifier name = true)
    (hc : isNamePart c = false) (cs : List Char) :
    insideToken (name ++ c :: cs) = .ok (.name (String.ofList name), c :: cs) := by
  cases name with
  | nil => cases hname
  | cons d rest =>
      simp only [isIdentifier, Bool.and_eq_true] at hname
      have hall : ∀ x ∈ d :: rest, isNamePart x = true := by
        intro x hx
        rcases List.mem_cons.mp hx with rfl | hx
        · exact isNamePart_of_isNameStart hname.1
        · exact List.all_eq_true.mp hname.2 x hx
      rw [List.cons_append, insideToken, if_pos hname.1, ← List.cons_append,
        List.takeWhile_append_of_pos hall, List.dropWhile_append_of_pos hall,
        List.takeWhile_cons_of_neg (by simp [hc]), List.dropWhile_cons_of_neg (by simp [hc]),
        List.append_nil]

theorem scanFrom_name {name : List Char} (hname : isIdentifier name = true)
    (hc : isNamePart c = false) (fuel : Nat) (cs : List Char) :
    scanFrom (fuel + 1) (.output 0) (' ' :: (name ++ c :: cs)) =
      (scanFrom fuel (.output 0) (c :: cs)).cons (.name (String.ofList name)) := by
  have htoken := insideToken_name hname hc cs
  cases name with
  | nil => cases hname
  | cons d rest =>
      have hd : isNameStart d = true := (Bool.and_eq_true_iff.mp hname).1
      have hgap : (' ' :: (d :: rest ++ c :: cs)).dropWhile isGap = d :: rest ++ c :: cs := by
        rw [List.dropWhile_cons_of_pos rfl, List.cons_append,
          List.dropWhile_cons_of_neg (by simp [isGap_of_isNameStart hd])]
      have hclosed : (Place.output 0).closed? (d :: rest ++ c :: cs) = none :=
        closed?_of_isNameStart hd _
      rw [scanFrom.eq_def]
      simp only [hgap, hclosed, htoken]
      rfl

theorem scanFrom_open (fuel : Nat) (cs : List Char) :
    scanFrom (fuel + 1) .text ('{' :: '{' :: ' ' :: cs) =
      (scanFrom fuel (.output 0) (' ' :: cs)).cons .openOutput := rfl

theorem scanFrom_bar (fuel : Nat) (cs : List Char) :
    scanFrom (fuel + 1) (.output 0) (' ' :: '|' :: cs) =
      (scanFrom fuel (.output 0) cs).cons (.symbol "|") := rfl

theorem scanFrom_close (fuel : Nat) :
    scanFrom (fuel + 2) (.output 0) [' ', '}', '}'] = ⟨[.closeOutput], none⟩ := rfl

/-- The tokens of an output of a name with a filter. -/
theorem scan_piped {name filter : String} (hname : isIdentifier name.toList = true)
    (hfilter : isIdentifier filter.toList = true) :
    scan (pipedSource name filter) =
      ⟨[.openOutput, .name name, .symbol "|", .name filter, .closeOutput], none⟩ := by
  have hchars : (pipedSource name filter).toList = '{' :: '{' :: ' ' ::
      (name.toList ++ ' ' :: '|' :: ' ' :: (filter.toList ++ [' ', '}', '}'])) := by
    simp [pipedSource]
  have hlast : dropLineEnd (pipedSource name filter).toList = (pipedSource name filter).toList := by
    simp [dropLineEnd, hchars, List.getLast?_cons, List.getLast?_append]
  -- every one of the six steps has a character of its own
  obtain ⟨fuel, hfuel⟩ : ∃ fuel, (pipedSource name filter).toList.length = fuel + 6 :=
    ⟨name.toList.length + filter.toList.length + 3, by simp [hchars]; omega⟩
  rw [scan, hlast, hfuel, hchars, scanFrom_open, scanFrom_name hname rfl, scanFrom_bar,
    scanFrom_name hfilter rfl, scanFrom_close]
  simp only [Scan.cons, String.ofList_toList]

end Scan

/-! ## Reading -/

/-- The second step begins where the first one ended. -/
theorem run_bind_ok {σ ε α β : Type} {x : StateT σ (Except ε) α} {f : α → StateT σ (Except ε) β}
    {s t : σ} {a : α} (h : x.run s = .ok (a, t)) : (x >>= f).run s = (f a).run t := by
  rw [StateT.run_bind, h]
  rfl

namespace Reading

/-- The reading with these tokens ahead of it. -/
def before (r : Reading) (tokens : List Token) : Reading := { r with tokens := tokens }

/-- The reading after a name has been met where an expression begins. -/
def heard (r : Reading) (name : String) : Reading :=
  if name == "caller" then { r with spokeOfCaller := true } else r

theorem fault_heard (r : Reading) (name : String) : (r.heard name).fault = r.fault := by
  rw [heard]
  split <;> rfl

theorem blocks_heard (r : Reading) (name : String) : (r.heard name).blocks = r.blocks := by
  rw [heard]
  split <;> rfl

end Reading

section Read

open Read

variable {r s : Reading} {t : Token} {rest : List Token} {p : Token → Bool} {e : Expr} {fuel : Nat}

theorem peek?_before : peek?.run (r.before (t :: rest)) = .ok (some t, r.before (t :: rest)) := rfl

theorem peek?_end (h : r.fault = none) : peek?.run (r.before []) = .ok (none, r.before []) := by
  obtain ⟨tokens, fault, blocks, names, insideMacro, spoke⟩ := r
  cases h
  rfl

theorem skip_before : skip.run (r.before (t :: rest)) = .ok ((), r.before rest) := rfl

theorem next_before : next.run (r.before (t :: rest)) = .ok (t, r.before rest) := rfl

theorem sees_before : (sees p).run (r.before (t :: rest)) = .ok (p t, r.before (t :: rest)) := rfl

theorem run_accept_of_false {α : Type} {yes no : Read α} (hp : p t = false) :
    (do if ← accept p then yes else no).run (r.before (t :: rest)) =
      no.run (r.before (t :: rest)) := by
  rw [accept, bind_assoc, run_bind_ok sees_before, hp]
  rfl

theorem run_accept_of_true {α : Type} {yes no : Read α} (hp : p t = true) :
    (do if ← accept p then yes else no).run (r.before (t :: rest)) = yes.run (r.before rest) := by
  rw [accept, bind_assoc, run_bind_ok sees_before, hp]
  rfl

theorem expect_before (hp : p t = true) :
    (expect p).run (r.before (t :: rest)) = .ok ((), r.before rest) := by
  rw [expect, run_accept_of_true hp]
  rfl

theorem readName_before (name : String) :
    readName.run (r.before (.name name :: rest)) = .ok (name, r.before rest) := rfl

/-! ### The operand -/

theorem ofWord_of_notMem {name : String} (h : name ∉ expressionWords) :
    Expr.ofWord name = .name name := by
  simp only [expressionWords, List.mem_cons, List.not_mem_nil, or_false, not_or] at h
  simp [Expr.ofWord, h]

theorem readPrimary_name (name : String) :
    (readPrimary (fuel + 1)).run (r.before (.name name :: rest)) =
      .ok (.ofWord name, (r.heard name).before rest) := by
  rw [readPrimary, run_bind_ok next_before, Reading.heard]
  by_cases h : (name == "caller") = true
  · simp only [h, if_true]
    rfl
  · simp only [h]
    rfl

theorem readSigned_name (name : String) :
    (readSigned (fuel + 2)).run (r.before (.name name :: rest)) =
      .ok (.ofWord name, (r.heard name).before rest) := by
  rw [readSigned, run_accept_of_false rfl]
  exact readPrimary_name name

theorem readParts_bar : (readParts (fuel + 1) e).run (r.before (.symbol "|" :: rest)) =
    .ok (e, r.before (.symbol "|" :: rest)) := by
  rw [readParts, run_accept_of_false rfl, run_accept_of_false rfl, run_accept_of_false rfl]
  rfl

theorem readOptionalArgs_close :
    (readOptionalArgs (fuel + 1)).run (r.before (.closeOutput :: rest)) =
      .ok ([], r.before (.closeOutput :: rest)) := by
  rw [readOptionalArgs, run_accept_of_false rfl]
  rfl

theorem readFilters_close : (readFilters (fuel + 1) e).run (r.before (.closeOutput :: rest)) =
    .ok (e, r.before (.closeOutput :: rest)) := by
  rw [readFilters, run_accept_of_false rfl, run_accept_of_false rfl]
  rfl

theorem readFilters_bar (filter : String) :
    (readFilters (fuel + 2) e).run
        (r.before (.symbol "|" :: .name filter :: .closeOutput :: rest)) =
      .ok (.filter filter e [], r.before (.closeOutput :: rest)) := by
  rw [readFilters, run_accept_of_true rfl, run_bind_ok (readName_before filter),
    run_bind_ok readOptionalArgs_close]
  exact readFilters_close

theorem readLevel_unary (name filter : String) :
    (readLevel (fuel + 3) .unary).run
        (r.before (.name name :: .symbol "|" :: .name filter :: .closeOutput :: rest)) =
      .ok (.filter filter (.ofWord name) [], (r.heard name).before (.closeOutput :: rest)) := by
  rw [readLevel, run_bind_ok (readSigned_name name), run_bind_ok readParts_bar]
  exact readFilters_bar filter

/-! ### The levels above it -/

theorem readOperators_close (level : Level) :
    (readOperators (fuel + 1) level e).run (r.before (.closeOutput :: rest)) =
      .ok (e, r.before (.closeOutput :: rest)) := by
  rw [readOperators, run_bind_ok peek?_before]
  cases level <;> rfl

/-- An operand that ends the output is all that the level above it reads. -/
theorem readLevel_of_inner {level : Level} (hunary : level ≠ .unary) (hnot : level ≠ .not)
    (h : (readLevel (fuel + 1) level.inner).run s = .ok (e, r.before (.closeOutput :: rest))) :
    (readLevel (fuel + 2) level).run s = .ok (e, r.before (.closeOutput :: rest)) := by
  rw [readLevel, run_bind_ok h, readOperators_close]
  · exact hunary
  · exact hnot

/-- An operand that ends the output is the whole expression. -/
theorem readExpr_of_unary {tokens : List Token} (ht : t.isWord "not" = false)
    (h : (readLevel (fuel + 1) .unary).run (r.before (t :: rest)) =
      .ok (e, s.before (.closeOutput :: tokens))) :
    (readExpr (fuel + 10)).run (r.before (t :: rest)) =
      .ok (e, s.before (.closeOutput :: tokens)) := by
  have hcompare : (readLevel (fuel + 6) .compare).run (r.before (t :: rest)) =
      .ok (e, s.before (.closeOutput :: tokens)) := by
    -- powers, products, concatenations, sums and comparisons
    iterate 5 refine readLevel_of_inner nofun nofun ?_
    exact h
  have hnot : (readLevel (fuel + 7) .not).run (r.before (t :: rest)) =
      .ok (e, s.before (.closeOutput :: tokens)) := by
    rw [readLevel, run_accept_of_false ht]
    exact hcompare
  have hor : (readLevel (fuel + 9) .or).run (r.before (t :: rest)) =
      .ok (e, s.before (.closeOutput :: tokens)) := by
    -- conjunctions and disjunctions
    iterate 2 refine readLevel_of_inner nofun nofun ?_
    exact hnot
  rw [readExpr, run_bind_ok hor, readChoice, run_accept_of_false rfl]
  rfl

/-! ### The template -/

theorem readBody_end (ends : List String) (h : r.fault = none) :
    (readBody (fuel + 1) ends).run (r.before []) = .ok ([], r.before []) := by
  rw [readBody, run_bind_ok (peek?_end h)]
  rfl

theorem readBody_output (ends : List String) (hfault : s.fault = none)
    (h : (readExpr (fuel + 1)).run (r.before rest) = .ok (e, s.before [.closeOutput])) :
    (readBody (fuel + 2) ends).run (r.before (.openOutput :: rest)) =
      .ok ([.output e], s.before []) := by
  rw [readBody, run_bind_ok peek?_before]
  -- the token that was seen decides what the body goes on with
  change (skip >>= _ : Read (List Statement)).run _ = _
  rw [run_bind_ok skip_before, run_bind_ok h, run_bind_ok (expect_before rfl),
    run_bind_ok (readBody_end ends hfault)]
  rfl

theorem readBody_piped (fuel : Nat) {name : String} (hword : name ∉ expressionWords)
    (filter : String) (ends : List String) (hfault : r.fault = none) :
    (readBody (fuel + 13) ends).run
        (r.before [.openOutput, .name name, .symbol "|", .name filter, .closeOutput]) =
      .ok ([.output (.filter filter (.name name) [])], (r.heard name).before []) := by
  have hnot : (Token.name name).isWord "not" = false := by
    rw [Token.isWord, beq_eq_false_iff_ne]
    rintro rfl
    exact hword (by decide)
  have hexpr : (readExpr (fuel + 12)).run
      (r.before [.name name, .symbol "|", .name filter, .closeOutput]) =
        .ok (.filter filter (.name name) [], (r.heard name).before [.closeOutput]) := by
    rw [← ofWord_of_notMem hword]
    exact readExpr_of_unary hnot (readLevel_unary name filter)
  exact readBody_output ends ((r.fault_heard name).trans hfault) hexpr

/-- The program is the output of the filter applied to the name. -/
theorem parse_piped {name filter : String} (hname : isIdentifier name.toList = true)
    (hword : name ∉ expressionWords) (hfilter : isIdentifier filter.toList = true) :
    Program.parse (pipedSource name filter) =
      .ok ⟨[.output (.filter filter (.name name) [])], [], 5⟩ := by
  let r : Reading := ⟨[], none, [], [], false, false⟩
  -- five tokens give fuel for 192 calls, of which the body needs thirteen
  have hbody := readBody_piped (r := r) 179 hword filter [] rfl
  rw [Program.parse, scan_piped hname hfilter]
  change ((readBody (179 + 13) []).run (r.before _) >>= _) = _
  rw [hbody]
  change Except.ok _ = _
  rw [Reading.before, r.blocks_heard]
  rfl

end Read

end CustomElements.Jinja
