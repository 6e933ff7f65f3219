import CustomElements.Proofs.Style.Reading
import Mathlib.Data.List.TakeWhile

/-!
# What the printer writes

The text of a rule, character by character, with the pieces of source text that it is made of and
the marks and the single blanks that the printer sets between them.
-/

namespace CustomElements.Style

/-! ## The text of rules, character by character -/

/-- The texts one after the other, each behind the separator. -/
def trail (sep : List Char) (texts : List String) : List Char :=
  texts.flatMap fun s => sep ++ s.toList

theorem toList_intercalate_cons (sep first : String) (rest : List String) :
    (sep.intercalate (first :: rest)).toList = first.toList ++ trail sep.toList rest := by
  induction rest generalizing first with
  | nil => simp [trail]
  | cons second rest ih =>
      rw [String.intercalate_cons_cons, String.toList_append, String.toList_append, ih second]
      simp [trail]

/-- The blank before a text, which an empty text goes without. -/
def lead (s : String) : List Char := if s = "" then [] else [' ']

theorem Rule.renderList_eq_map (rules : List Rule) :
    Rule.renderList rules = rules.map Rule.render := by
  induction rules with
  | nil => rfl
  | cons r rules ih => rw [Rule.renderList, List.map_cons, ih]

theorem toList_atRuleHead (name preamble : String) : (atRuleHead name preamble).toList =
    '@' :: (name.toList ++ (lead preamble ++ preamble.toList)) := by
  rw [atRuleHead, lead]
  split_ifs with h
  · subst h
    simp
  · simp

theorem toList_bracedEmpty (head : String) :
    (bracedEmpty head).toList = head.toList ++ [' ', '\x7b', '\x7d'] := by
  simp [bracedEmpty]

theorem toList_braced (head body : String) : (braced head body).toList =
    head.toList ++ ' ' :: '\x7b' :: ' ' :: (body.toList ++ [' ', '\x7d']) := by
  simp [braced]

theorem toList_statement (name preamble : String) :
    (Rule.verbatim name preamble none).render.toList =
      '@' :: (name.toList ++ (lead preamble ++ preamble.toList ++ [';'])) := by
  simp [Rule.render, toList_atRuleHead]

/-- What stands between the braces around a text. -/
def inBraces (s : String) : List Char := if s = "" then [] else ' ' :: (s.toList ++ [' '])

theorem toList_verbatim (name preamble block : String) :
    (Rule.verbatim name preamble (some block)).render.toList =
      '@' :: (name.toList ++ (lead preamble ++ preamble.toList ++
        ' ' :: '\x7b' :: (inBraces block ++ ['\x7d']))) := by
  rw [Rule.render, inBraces]
  split_ifs
  · simp [toList_bracedEmpty, toList_atRuleHead]
  · simp [toList_braced, toList_atRuleHead]

theorem toList_group (name preamble : String) (rules : List Rule) :
    (Rule.group name preamble rules).render.toList =
      '@' :: (name.toList ++ (lead preamble ++ preamble.toList ++
        ' ' :: '\x7b' :: ' ' :: ((" ".intercalate (rules.map Rule.render)).toList ++
          [' ', '\x7d']))) := by
  simp [Rule.render, toList_braced, toList_atRuleHead, Rule.renderList_eq_map]

/-- What stands between the braces around declarations. -/
def declarationsText (ds : List Declaration) : List Char :=
  match ds with
  | [] => []
  | d :: ds => trail [' '] ((d :: ds).map Declaration.render) ++ [' ']

theorem toList_style (texts : List String) (ds : List Declaration) :
    (Rule.style texts ds).render.toList =
      (", ".intercalate texts).toList ++ ' ' :: '\x7b' :: (declarationsText ds ++ ['\x7d']) := by
  rw [Rule.render]
  cases ds with
  | nil => simp [toList_bracedEmpty, declarationsText]
  | cons d ds =>
     simp only [List.isEmpty_cons, Bool.false_eq_true, if_false, toList_braced, declarationsText,
       List.map_cons, toList_intercalate_cons]
     simp [trail]

theorem Declaration.toList_render (d : Declaration) :
    d.render.toList = d.name.toList ++ ':' :: ' ' :: (d.value.toList ++ [';']) := by
  simp [Declaration.render]

end CustomElements.Style
