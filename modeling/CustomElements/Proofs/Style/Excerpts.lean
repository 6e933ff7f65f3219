import CustomElements.Proofs.Style.Roundtrip
import CustomElements.Proofs.Style.Sources

/-!
# Where the excerpts of a sheet stand

Selectors, values, preambles and blocks are excerpts of the stylesheet. Each is the trimmed text of
a run of whole tokens, and the runs follow one another with a token between any two of them
(`Runs`): a comma, a colon, a brace or a semicolon. So the excerpts of a sheet, in the order of its
rules, are cut out of the stylesheet at increasing places that do not even touch, and the rules that
hold them have the shape that the names and marks around them call for (`excerpts_of_parse`).
-/

namespace CustomElements.Style

/-! ## Excerpts -/

mutual

/-- The excerpts that a rule is made of, in the order in which they are written. -/
def Rule.excerpts : Rule → List String
  | .style selectors declarations => selectors ++ declarations.map Declaration.value
  | .group _ preamble rules => preamble :: Rule.excerptsList rules
  | .verbatim _ preamble block => preamble :: block.toList

/-- The excerpts that rules are made of, rule after rule. -/
def Rule.excerptsList : List Rule → List String
  | [] => []
  | r :: rest => r.excerpts ++ Rule.excerptsList rest

end

/-- The excerpts that a sheet is made of, rule after rule. -/
def Sheet.excerpts (s : Sheet) : List String := Rule.excerptsList s.rules

/-- A stretch of a text: the numbers of characters before its start and before its end. -/
structure Span where
  start : Nat
  stop : Nat
  deriving DecidableEq, Repr

namespace Span

/-- The text of a stretch of the characters. -/
def text (cs : List Char) (s : Span) : String :=
  String.ofList ((cs.drop s.start).take (s.stop - s.start))

/-- The stretch, `n` characters further on. -/
def shift (n : Nat) (s : Span) : Span := ⟨n + s.start, n + s.stop⟩

theorem text_shift (before after : List Char) (s : Span) :
    (s.shift before.length).text (before ++ after) = s.text after := by
  rw [text, text, shift, Nat.add_sub_add_left, List.drop_length_add_append]

/-- The stretch between two parts of a text. -/
theorem text_between (before cs after : List Char) :
    (Span.mk before.length (before.length + cs.length)).text (before ++ (cs ++ after)) =
      String.ofList cs := by
  rw [text, List.drop_left, Nat.add_sub_cancel_left, List.take_left]

end Span

/-- The stretches hold the pieces, and each ends before the next one begins, with a gap. -/
structure Placed (cs : List Char) (spans : List Span) (pieces : List String) : Prop where
  texts : spans.map (Span.text cs) = pieces
  apart : spans.Pairwise fun a b => a.stop < b.start
  inside : ∀ s ∈ spans, s.start ≤ s.stop ∧ s.stop ≤ cs.length

theorem placed_nil (cs : List Char) : Placed cs [] [] :=
  ⟨rfl, .nil, fun _ hs => absurd hs List.not_mem_nil⟩

theorem Placed.cons {rest gap : List Char} {spans : List Span} {pieces : List String}
    (h : Placed rest spans pieces) (before cs : List Char) (hgap : gap = [] → pieces = []) :
    Placed (before ++ (cs ++ (gap ++ rest)))
      (⟨before.length, before.length + cs.length⟩ ::
        spans.map (Span.shift (before ++ (cs ++ gap)).length))
      (String.ofList cs :: pieces) := by
  have hassoc : before ++ (cs ++ (gap ++ rest)) = (before ++ (cs ++ gap)) ++ rest := by
    simp only [List.append_assoc]
  refine ⟨?_, List.pairwise_cons.mpr ⟨?_, ?_⟩, List.forall_mem_cons.mpr ⟨?_, ?_⟩⟩
  · rw [List.map_cons, Span.text_between, hassoc, List.map_map, ← h.texts]
    exact congrArg _ (List.map_congr_left fun s _ => Span.text_shift _ rest s)
  · refine List.forall_mem_map.mpr fun s hs => ?_
    -- there is another stretch, so there are pieces and the gap is not empty
    have hlen : 0 < gap.length := by
      refine List.length_pos_iff.mpr fun hnil => ?_
      have := h.texts.trans (hgap hnil)
      rw [List.map_eq_nil_iff.mp this] at hs
      cases hs
    simp only [Span.shift, List.length_append]
    omega
  · refine List.pairwise_map.mpr (h.apart.imp fun hlt => ?_)
    exact Nat.add_lt_add_left hlt _
  · simp only [List.length_append]
    omega
  · refine List.forall_mem_map.mpr fun s hs => ?_
    have := h.inside s hs
    simp only [Span.shift, List.length_append]
    omega

/-! ## Runs of tokens -/

/--
The pieces are the trimmed texts of runs of the tokens, one after the other, with a token between
any two runs.
-/
def Runs : List Token → List String → Prop
  | _, [] => True
  | ts, p :: ps => ∃ before run after, ts = before ++ (run ++ after) ∧ p = trimmedText run ∧
      (after = [] → ps = []) ∧ Runs after.tail ps

section Runs

variable {ts us : List Token} {ps qs : List String}

theorem runs_singleton (h : us <:+: ts) : Runs ts [trimmedText us] := by
  obtain ⟨before, after, rfl⟩ := h
  exact ⟨before, us, after, List.append_assoc _ _ _, rfl, fun _ => rfl, trivial⟩

theorem runs_trimmedText (ts : List Token) : Runs ts [trimmedText ts] :=
  runs_singleton List.infix_rfl

theorem Runs.mono (h : Runs us ps) (hus : us <:+: ts) : Runs ts ps := by
  induction ps generalizing us ts with
  | nil => trivial
  | cons p ps ih =>
      obtain ⟨x, y, rfl⟩ := hus
      obtain ⟨before, run, after, rfl, hp, hend, hps⟩ := h
      refine ⟨x ++ before, run, after ++ y, by simp only [List.append_assoc], hp,
        fun hnil => hend (List.append_eq_nil_iff.mp hnil).1, ?_⟩
      cases after with
      | nil =>
          -- the last run, which may end where the tokens end
          rw [hend rfl]
          trivial
      | cons t after => exact ih hps (List.prefix_append after y).isInfix

/-- The first of the tokens behind is the one between the runs. -/
theorem Runs.append (h : Runs ts ps) (h' : Runs us.tail qs) (hend : us = [] → qs = []) :
    Runs (ts ++ us) (ps ++ qs) := by
  induction ps generalizing ts with
  | nil => exact h'.mono ((List.tail_suffix us).trans (List.suffix_append ts us)).isInfix
  | cons p ps ih =>
      obtain ⟨before, run, after, rfl, hp, hlast, hps⟩ := h
      cases after with
      | nil =>
          -- what separates the last run from the pieces of `us` is the head of `us`
          rw [hlast rfl]
          exact ⟨before, run, us, by simp only [List.append_nil, List.append_assoc], hp, hend, h'⟩
      | cons t after =>
          exact ⟨before, run, t :: (after ++ us), by
            simp only [List.append_assoc, List.cons_append], hp, nofun, ih hps⟩

theorem Runs.trimmed (h : Runs ts ps) : ∀ p ∈ ps, Trimmed p.toList := by
  induction ps generalizing ts with
  | nil => exact fun p hp => absurd hp List.not_mem_nil
  | cons p ps ih =>
      obtain ⟨_, run, _, -, rfl, -, hps⟩ := h
      exact List.forall_mem_cons.mpr ⟨trimmed_trimmedText run, ih hps⟩

/-- Runs of tokens stand at increasing places of the text, where every token takes up some of it. -/
theorem Runs.exists_placed (h : Runs ts ps) (htext : ∀ t ∈ ts, t.text ≠ []) :
    ∃ spans, Placed (Token.textOf ts) spans ps := by
  induction ps generalizing ts with
  | nil => exact ⟨[], placed_nil _⟩
  | cons p ps ih =>
      obtain ⟨before, run, after, rfl, rfl, hend, hps⟩ := h
      have hbehind : ∀ t ∈ after, t.text ≠ [] := fun t ht =>
        htext t (List.mem_append_right _ (List.mem_append_right _ ht))
      obtain ⟨spans, hspans⟩ := ih hps fun t ht => hbehind t (List.mem_of_mem_tail ht)
      obtain ⟨lead, trail, -, -, hrun⟩ := exists_trim (Token.textOf run)
      have hafter :
          Token.textOf after = Token.textOf (after.take 1) ++ Token.textOf after.tail := by
        rw [← textOf_append, ← List.drop_one, List.take_append_drop]
      have hts : Token.textOf (before ++ (run ++ after)) = (Token.textOf before ++ lead) ++
          (Text.trim (Token.textOf run) ++
            ((trail ++ Token.textOf (after.take 1)) ++ Token.textOf after.tail)) := by
        rw [textOf_append, textOf_append, hafter]
        nth_rewrite 1 [hrun]
        simp only [List.append_assoc]
      refine ⟨_, hts ▸ hspans.cons _ _ fun hgap => hend ?_⟩
      cases after with
      | nil => rfl
      | cons t after =>
          -- the token behind the run takes up some of the text
          have ht : Token.textOf [t] = [] := (List.append_eq_nil_iff.mp hgap).2
          exact absurd (by simpa [Token.textOf] using ht) (hbehind t List.mem_cons_self)

end Runs

/-! ## What is read in runs -/

section Reading

variable {ts us : List Token}

theorem eq_append_of_cut {stop : Token.Kind → Bool} {before after : List Token}
    (hcut : cut stop ts = (before, after)) : ts = before ++ after := by
  rw [← cut_append stop ts, hcut]

/-- Runs before a token that ends them, and runs behind it. -/
theorem Runs.append_behind {stop : Token.Kind → Bool} {before behind : List Token} {u : Token}
    {ps qs : List String} (h : Runs before ps) (hcut : cut stop ts = (before, u :: behind))
    (h' : Runs behind qs) : Runs ts (ps ++ qs) := by
  have hbehind : Runs (u :: behind).tail qs := h'
  rw [eq_append_of_cut hcut]
  exact h.append hbehind nofun

theorem runs_selectorText (ts : List Token) : Runs ts [selectorText ts] :=
  runs_singleton (List.dropWhile_suffix _).isInfix

theorem runs_selectorTexts {fuel offset : Nat} {texts : List String}
    (h : selectorTexts offset (commaParts fuel ts) = .ok texts) : Runs ts texts := by
  induction fuel generalizing ts texts with
  | zero =>
      obtain ⟨-, others, hothers, rfl⟩ := selectorTexts_cons h
      cases hothers
      exact runs_selectorText ts
  | succ fuel ih =>
      rw [commaParts] at h
      rcases hcut : cut (· == .comma) ts with ⟨part, - | ⟨comma, rest⟩⟩ <;> rw [hcut] at h <;>
        obtain ⟨-, others, hothers, rfl⟩ := selectorTexts_cons h
      · cases hothers
        exact runs_singleton ((List.dropWhile_suffix _).isInfix.trans (prefix_of_cut hcut).isInfix)
      · exact (runs_selectorText part).append_behind hcut (ih hothers)

theorem declarations_nil (fuel : Nat) : declarations fuel [] = [] := by
  cases fuel <;> rfl

theorem runs_declaration? (name : List Char) (ts : List Token) :
    Runs ts ((declaration? name ts).toList.map Declaration.value) := by
  cases h : declaration? name ts with
  | none => trivial
  | some d =>
      obtain ⟨colon, value, hdrop, -, -, rfl⟩ := declaration?_eq_some h
      have hvalue : value <:+ ts :=
        (List.suffix_cons colon value).trans (hdrop ▸ List.dropWhile_suffix _)
      exact runs_singleton hvalue.isInfix

theorem runs_declarations (fuel : Nat) (ts : List Token) :
    Runs ts ((declarations fuel ts).map Declaration.value) := by
  induction fuel generalizing ts with
  | zero => trivial
  | succ fuel ih =>
      cases ts with
      | nil => trivial
      | cons t rest =>
          by_cases ht : ∃ name, t.kind = .ident name
          · obtain ⟨name, ht⟩ := ht
            rcases hcut : cut (· == .semicolon) rest with ⟨body, after⟩
            rw [declarations_ident fuel ht, hcut, List.map_append, eq_append_of_cut hcut]
            refine Runs.mono ?_ (List.suffix_cons t (body ++ after)).isInfix
            -- the semicolon that ends the declaration parts its value from the others
            refine (runs_declaration? name body).append (ih after.tail) fun hnil => ?_
            rw [hnil, List.tail_nil, declarations_nil, List.map_nil]
          · obtain ⟨us, hus, heq⟩ := declarations_other fuel
              (fun name hname => ht ⟨name, hname⟩) rest
            rw [heq]
            exact (ih us).mono (hus.trans (List.suffix_cons t rest)).isInfix

theorem Reads.eq_nil {first : Bool} {rules : List Rule} (h : Reads first [] rules) :
    rules = [] := by
  cases h <;> trivial

/-- What follows these runs is read behind the token that ends them. -/
theorem Runs.append_rules {stop : Token.Kind → Bool} {before after : List Token} {ps : List String}
    {rules : List Rule} (h : Runs before ps) (hcut : cut stop ts = (before, after))
    (hrest : Reads false after.tail rules) (hrules : Runs after.tail (Rule.excerptsList rules)) :
    Runs ts (ps ++ Rule.excerptsList rules) := by
  rw [eq_append_of_cut hcut]
  refine h.append hrules fun hnil => ?_
  rw [hnil] at hrest
  rw [hrest.eq_nil, Rule.excerptsList]

/-- The excerpts of rules are the texts of runs, in the order of the rules. -/
theorem runs_of_reads {first : Bool} {rules : List Rule} (h : Reads first ts rules) :
    Runs ts (Rule.excerptsList rules) := by
  -- the runs of a rule come before those of the rules behind it
  induction h with
  | nil hgap => trivial
  | @charset _ rest t _ _ hgap ht hname hrest ih =>
      exact ih.mono ((suffix_cutRule ht rest).isInfix.trans (infix_rest hgap))
  | @statement _ _ _ preamble _ _ _ _ hgap ht hname hcut hafter hrest ih =>
      have hrule := (runs_trimmedText preamble).append_rules hcut hrest ih
      exact hrule.mono (infix_rest hgap)
  | @verbatim _ _ _ preamble _ block _ _ _ _ _ hgap ht hname hcut hu hblock hgroup hrest ih =>
      have hinblock := (runs_trimmedText block).append_rules hblock hrest ih
      have hrule := (runs_trimmedText preamble).append_behind hcut hinblock
      exact hrule.mono (infix_rest hgap)
  | @group _ _ _ preamble _ _ _ _ _ _ _ _ hgap ht hname hcut hu hblock hgroup hinner hrest
      ihinner ih =>
      have hinblock := ihinner.append_rules hblock hrest ih
      have hrule := (runs_trimmedText preamble).append_behind hcut hinblock
      exact hrule.mono (infix_rest hgap)
  | @style _ _ _ _ _ block _ _ _ _ _ hgap ht hcut hblock htexts hrest ih =>
      have hinblock := (runs_declarations block.length block).append_rules hblock hrest ih
      have hrule := (runs_selectorTexts htexts).append_behind hcut hinblock
      rw [Rule.excerptsList, Rule.excerpts, List.append_assoc]
      exact hrule.mono (infix_gap hgap)

end Reading

/-! ## The shape of rules -/

/-- The name of an at-rule whose block holds rules, in lower or upper case. -/
def NamesGroup (name : String) : Prop := Text.asciiLower name ∈ groupingNames

/--
A style rule has selectors, and none of them nor a value is empty. A group has a name that calls for
one, and an at-rule with a block that is kept as it is has not.
-/
def Rule.WellFormed : Rule → Prop
  | .style selectors declarations =>
      selectors ≠ [] ∧ (∀ s ∈ selectors, s ≠ "") ∧ ∀ d ∈ declarations, d.value ≠ ""
  | .group name _ _ => NamesGroup name
  | .verbatim name _ block => block.isSome = true → ¬NamesGroup name

/-- The rule is one of the rules or of those in their blocks, in groups of these names. -/
inductive Occurs : (names : List String) → Rule → List Rule → Prop
  | head (r : Rule) (rest : List Rule) : Occurs [] r (r :: rest)
  | tail {names : List String} {r first : Rule} {rest : List Rule} (h : Occurs names r rest) :
      Occurs names r (first :: rest)
  | inner {names : List String} {r : Rule} {name preamble : String} {rules rest : List Rule}
      (h : Occurs names r rules) :
      Occurs (name :: names) r (.group name preamble rules :: rest)

theorem isGrouping_iff (name : List Char) :
    isGrouping name = true ↔ NamesGroup (String.ofList name) := List.contains_iff_mem

theorem wellFormed_of_reads {first : Bool} {ts : List Token} {rules : List Rule}
    (h : Reads first ts rules) {names : List String} {r : Rule} (hr : Occurs names r rules) :
    (∀ name ∈ names, NamesGroup name) ∧ r.WellFormed := by
  induction h generalizing names with
  | nil hgap => cases hr
  | charset hgap ht hname hrest ih => exact ih hr
  | statement hgap ht hname hcut hafter hrest ih =>
      cases hr with
      | head => exact ⟨nofun, nofun⟩
      | tail hr => exact ih hr
  | verbatim hgap ht hname hcut hu hblock hgroup hrest ih =>
      cases hr with
      | head =>
          refine ⟨nofun, fun _ hnames => ?_⟩
          rw [(isGrouping_iff _).mpr hnames] at hgroup
          cases hgroup
      | tail hr => exact ih hr
  | group hgap ht hname hcut hu hblock hgroup hinner hrest ihinner ih =>
      have hnames := (isGrouping_iff _).mp hgroup
      cases hr with
      | head => exact ⟨nofun, hnames⟩
      | tail hr => exact ih hr
      | inner hr => exact ⟨List.forall_mem_cons.mpr ⟨hnames, (ihinner hr).1⟩, (ihinner hr).2⟩
  | style hgap ht hcut hblock htexts hrest ih =>
      cases hr with
      | head =>
          exact ⟨nofun, selectorTexts_ne_nil htexts,
            fun s hs => (trimmed_of_selectorTexts htexts s hs).2,
            fun d hd => (trimmed_of_declarations _ _ d hd).2⟩
      | tail hr => exact ih hr

/--
**The excerpts of a sheet are cut out of the stylesheet in order**: rule after rule, the selectors
and values of style rules and the preambles and blocks of at-rules stand at increasing places that
do not touch, without white space at the ends. At any depth of grouping style rules have selectors,
neither these nor values are empty, and an at-rule with a block holds rules exactly if its name is
one of `groupingNames`, whatever its case.
-/
theorem excerpts_of_parse {css : String} {sheet : Sheet} (h : Sheet.parse css = .ok sheet) :
    (∃ spans, Placed css.toList spans sheet.excerpts) ∧
    (∀ p ∈ sheet.excerpts, Trimmed p.toList) ∧
    ∀ names r, Occurs names r sheet.rules → (∀ name ∈ names, NamesGroup name) ∧ r.WellFormed := by
  have hreads := parse_eq_ok.mp h
  have hruns := runs_of_reads hreads
  refine ⟨?_, hruns.trimmed, fun names r hr => wellFormed_of_reads hreads hr⟩
  rw [← Token.textOf_tokens css.toList]
  refine hruns.exists_placed fun t ht => ?_
  exact Token.of_mem_tokens (P := fun t => t.text ≠ []) (fun c _ => List.cons_ne_nil c _) ht

/-- A group in upper case with an at-rule in it that is none, and a declaration that is lost. -/
def posterText : String :=
  "@import 'a.css';@MEDIA \x7b a , b:is(i, u) \x7b top; left: 1px; color : red /* ; */ \x7d" ++
    "@page\x7b\x7d \x7d"

def posterSheet : Sheet :=
  ⟨[.verbatim "import" "'a.css'" none,
    .group "MEDIA" "" [.style ["a", "b:is(i, u)"] [⟨"left", "1px"⟩, ⟨"color", "red /* ; */"⟩],
      .verbatim "page" "" (some "")]]⟩

theorem excerpts_poster :
    Sheet.parse posterText = .ok posterSheet ∧
    posterSheet.excerpts =
      ["'a.css'", "", "a", "b:is(i, u)", "1px", "red /* ; */", "", ""] ∧
    (∃ spans, Placed posterText.toList spans posterSheet.excerpts) ∧
    (∀ p ∈ posterSheet.excerpts, Trimmed p.toList) ∧
    ∀ names r, Occurs names r posterSheet.rules →
      (∀ name ∈ names, NamesGroup name) ∧ r.WellFormed := by
  have hparse : Sheet.parse posterText = .ok posterSheet := by decide +kernel
  exact ⟨hparse, rfl, excerpts_of_parse hparse⟩

/-- A comment in front of a selector is no part of it; one behind it is. -/
example : (Sheet.parse "a, /* b, */ c /* d */ \x7b\x7d").toOption.map Sheet.excerpts =
    some ["a", "c /* d */"] := by
  decide +kernel

end CustomElements.Style
