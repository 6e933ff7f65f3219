import CustomElements.Style.Sheet
import CustomElements.Style.Token
import CustomElements.Text.Blank

/-!
# From tokens to rules

Rules are cut out of the token list. Every cut is made at a separator that stands at nesting level
zero, so a semicolon or a brace inside brackets never ends anything; a closing bracket that matches
no open one is a token like any other. A bracket that is never closed reaches to the end.

Selectors, preambles, values and blocks are the texts of runs of tokens, trimmed of white space. A
selector also goes without the comments in front of it; elsewhere comments are kept. Declarations
that cannot be read are passed over. A rule that cannot be read ends the parse: a style
rule without a block, or one with an empty selector.
-/

namespace CustomElements.Style

/-- Why a rule cannot be read. -/
inductive Fault.Kind where
  /-- The text ended before the rule had a block. -/
  | endOfInput
  /-- A selector is empty. -/
  | emptySelector
  deriving DecidableEq, Repr

/-- The first rule of a stylesheet that cannot be read. -/
structure Fault where
  kind : Fault.Kind
  /-- The number of characters before the place of the fault. -/
  offset : Nat
  /-- The text of the rule as far as it was read. -/
  near : List Char
  deriving DecidableEq, Repr

/-- The text of tokens without white space at its ends. -/
def trimmedText (ts : List Token) : String := String.ofList (Text.trim (Token.textOf ts))

/-- The number of characters of the tokens. -/
def textLength (ts : List Token) : Nat := (Token.textOf ts).length

/-- The closing bracket for an opening one. -/
def Token.Kind.closer? : Token.Kind → Option Token.Kind
  | .openRound => some .closeRound
  | .openSquare => some .closeSquare
  | .openCurly => some .closeCurly
  | _ => none

/--
Cuts a list of tokens before the first one that `stop` accepts outside all brackets. `pending` are
the closing brackets still to come, innermost first.
-/
def cutWithin (stop : Token.Kind → Bool) :
    (pending : List Token.Kind) → List Token → List Token × List Token
  | _, [] => ([], [])
  | pending, t :: rest =>
    if pending.isEmpty && stop t.kind then ([], t :: rest)
    else
      let pending := match t.kind.closer? with
        | some closer => closer :: pending
        | none => if pending.head? = some t.kind then pending.tail else pending
      let (before, after) := cutWithin stop pending rest
      (t :: before, after)

/-- Cuts a list of tokens before the first one that `stop` accepts outside all brackets. -/
def cut (stop : Token.Kind → Bool) (ts : List Token) : List Token × List Token :=
  cutWithin stop [] ts

/-- The contents of a block whose opening brace has been read, and what follows its closing one. -/
def cutBlock (ts : List Token) : List Token × List Token := cut (· == .closeCurly) ts

/-- The token means nothing inside a rule's body. -/
def Token.isFiller (t : Token) : Bool := t.kind == .blank || t.kind == .comment

/-- The token means nothing between rules. -/
def Token.isGap (t : Token) : Bool := t.isFiller || t.kind == .marker

/-! ## Declarations -/

/-- The declaration that follows a property's name: a colon and a value that is not empty. -/
def declaration? (name : List Char) (ts : List Token) : Option Declaration :=
  match ts.dropWhile Token.isFiller with
  | t :: rest =>
    let value := trimmedText rest
    if t.kind = .colon ∧ value ≠ "" then some ⟨String.ofList name, value⟩ else none
  | [] => none

/-- The tokens after an at-rule inside a body: past its semicolon, or past its block. -/
def afterAtRule (ts : List Token) : List Token :=
  match (cut (fun k => k == .semicolon || k == .openCurly) ts).2 with
  | t :: rest => if t.kind = .openCurly then (cutBlock rest).2.tail else rest
  | [] => []

/-- The readable declarations of a rule's body, given fuel for each of its tokens. -/
def declarations : (fuel : Nat) → List Token → List Declaration
  | 0, _ => []
  | _, [] => []
  | fuel + 1, t :: rest =>
    match t.kind with
    | .blank | .comment | .semicolon => declarations fuel rest
    | .atKeyword _ => declarations fuel (afterAtRule rest)
    | .ident name =>
      let (body, after) := cut (· == .semicolon) rest
      (declaration? name body).toList ++ declarations fuel after.tail
    | _ => declarations fuel (cut (· == .semicolon) (t :: rest)).2.tail

/-! ## Selectors -/

/-- The parts of a list of tokens between the commas outside all brackets. -/
def commaParts : (fuel : Nat) → List Token → List (List Token)
  | 0, ts => [ts]
  | fuel + 1, ts =>
    match cut (· == .comma) ts with
    | (part, []) => [part]
    | (part, _ :: rest) => part :: commaParts fuel rest

/-- The text of a selector, which begins behind white space and comments. -/
def selectorText (part : List Token) : String := trimmedText (part.dropWhile Token.isFiller)

/-- The texts of the parts, or the place where the first empty part ends. -/
def selectorTexts : (offset : Nat) → List (List Token) → Except Nat (List String)
  | _, [] => .ok []
  | offset, part :: rest =>
    let text := selectorText part
    if text = "" then .error (offset + textLength part)
    else match selectorTexts (offset + textLength part + 1) rest with
      | .ok texts => .ok (text :: texts)
      | .error e => .error e

/-- The selectors of a style rule, or the place where an empty one ends. -/
def selectors (offset : Nat) (ts : List Token) : Except Nat (List String) :=
  selectorTexts offset (commaParts ts.length ts)

/-! ## Rules -/

/-- The name is one of an at-rule whose block holds rules. -/
def isGrouping (name : List Char) : Bool :=
  groupingNames.contains (Text.asciiLower (String.ofList name))

/-- A rule that was cut out of a token list, with the tokens it takes up. -/
structure RawRule where
  /-- The name of an at-rule; style rules have none. -/
  name? : Option (List Char)
  /-- The tokens from the name, or from the start, to the block or the semicolon. -/
  preamble : List Token
  /-- The tokens in the block. -/
  block : Option (List Token)
  /-- The tokens that open and close the block, or end the rule. -/
  opening : List Token
  closing : List Token

/-- Cuts the rule off that begins with the token `t`. -/
def cutRule (t : Token) (rest : List Token) : RawRule × List Token :=
  let finish (name? : Option (List Char)) (preamble : List Token) (after : List Token) :=
    match after with
    | [] => (⟨name?, preamble, none, [], []⟩, [])
    | u :: after =>
      if u.kind = .openCurly then
        let (block, after) := cutBlock after
        (⟨name?, preamble, some block, [u], after.take 1⟩, after.drop 1)
      else (⟨name?, preamble, none, [u], []⟩, after)
  match t.kind with
  | .atKeyword name =>
    let (preamble, after) := cut (fun k => k == .semicolon || k == .openCurly) rest
    finish (some name) preamble after
  | _ =>
    let (preamble, after) := cut (· == .openCurly) (t :: rest)
    finish none preamble after

/-- The text of a fault: the tokens from the start of the rule up to where reading stopped. -/
def nearText (ts : List Token) : List Char := Text.trim (Token.textOf ts)

/--
The rules of a token list that begins `offset` characters into the stylesheet. `first` tells that
no rule has been read yet: a `@charset` in that place says nothing and is left out.
-/
def rulesWith : (fuel : Nat) → (first : Bool) → (offset : Nat) → List Token →
    Except Fault (List Rule)
  | 0, _, _, _ => .ok []
  | fuel + 1, first, offset, ts =>
    let gap := ts.takeWhile Token.isGap
    let start := offset + textLength gap
    match ts.dropWhile Token.isGap with
    | [] => .ok []
    | t :: rest =>
      let (raw, after) := cutRule t rest
      let head := match raw.name? with
        | some _ => [t]
        | none => []
      let inner := start + textLength (head ++ raw.preamble ++ raw.opening)
      let whole := head ++ raw.preamble ++ raw.opening ++ raw.block.getD [] ++ raw.closing
      let continueWith (r : Rule) := do
        let rules ← rulesWith fuel false (start + textLength whole) after
        return r :: rules
      match raw.name? with
      | some name =>
        if first && name.map Char.toLower == ['c', 'h', 'a', 'r', 's', 'e', 't'] then
          rulesWith fuel false (start + textLength whole) after
        else
          let preamble := trimmedText raw.preamble
          match raw.block with
          | none => continueWith (.verbatim (String.ofList name) preamble none)
          | some block =>
            if isGrouping name then
              match rulesWith fuel true inner block with
              | .ok rules => continueWith (.group (String.ofList name) preamble rules)
              | .error fault => .error { fault with near := nearText whole }
            else continueWith (.verbatim (String.ofList name) preamble (some (trimmedText block)))
      | none =>
        match raw.block, selectors start raw.preamble with
        | none, _ => .error ⟨.endOfInput, inner, nearText whole⟩
        | some _, .error place =>
          .error ⟨.emptySelector, place, nearText (raw.preamble ++ raw.opening)⟩
        | some block, .ok selectors =>
          continueWith (.style selectors (declarations block.length block))

/-- The stylesheet that a text stands for. -/
def Sheet.parse (css : String) : Except Fault Sheet :=
  let ts := Token.tokens css.toList
  match rulesWith (ts.length + 1) true 0 ts with
  | .ok rules => .ok ⟨rules⟩
  | .error fault => .error fault

/-! ## Where a fault is -/

/-- The line, from zero, and the column, from one, after some characters. -/
structure Place where
  line : Nat
  column : Nat
  deriving DecidableEq, Repr

/-- The number of 16-bit units of a character. -/
def unitsOf (c : Char) : Nat := if c.toNat ≥ 0x10000 then 2 else 1

/-- The place reached from another one by reading characters; columns count 16-bit units. -/
def Place.after : Place → List Char → Place
  | p, [] => p
  | p, '\r' :: '\n' :: rest => Place.after ⟨p.line + 1, 1⟩ rest
  | p, c :: rest =>
    Place.after (if Token.isNewline c then ⟨p.line + 1, 1⟩ else ⟨p.line, p.column + unitsOf c⟩) rest

/-- The name of a kind of fault in messages. -/
def Fault.Kind.label : Fault.Kind → String
  | .endOfInput => "EndOfInput"
  | .emptySelector => "invalid rule"

/-- What is wrong with a stylesheet, and where. -/
def Fault.reason (f : Fault) (css : String) : String :=
  let place := Place.after ⟨0, 1⟩ (css.toList.take f.offset)
  f.kind.label ++ " at " ++ toString (place.line + 1) ++ ":" ++ toString place.column ++
    " near `" ++ String.ofList f.near ++ "`"

end CustomElements.Style
