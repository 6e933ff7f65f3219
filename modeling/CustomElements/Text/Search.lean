import CustomElements.Text.Blank

/-!
# Finding, cutting and replacing parts of a text

A part is looked for from left to right, and what has been found is not looked at again. The empty
part is found before every character and at the end.
-/

namespace CustomElements.Text

/-- What follows `part`, if the text starts with it. -/
def dropPart? : (part : List Char) → List Char → Option (List Char)
  | [], cs => some cs
  | _ :: _, [] => none
  | p :: part, c :: cs => if p = c then dropPart? part cs else none

/-- The text contains the part. -/
def occurs (part : List Char) : List Char → Bool
  | [] => part.isEmpty
  | c :: cs => part.isPrefixOf (c :: cs) || occurs part cs

/--
The pieces of a text between the places of a separator that is not empty. `most` bounds the number
of cuts, and `wait` is the number of characters of the separator that are still to be passed over.
-/
def pieces (separator : List Char) : (most wait : Nat) → List Char → List (List Char)
  | _, _, [] => [[]]
  | most, wait + 1, _ :: cs => pieces separator most wait cs
  | most, 0, c :: cs =>
    if most ≠ 0 ∧ separator.isPrefixOf (c :: cs) then
      [] :: pieces separator (most - 1) (separator.length - 1) cs
    else match pieces separator most 0 cs with
      | first :: rest => (c :: first) :: rest
      | [] => [[c]]

/-- The pieces between characters, with at most so many cuts, and an empty piece at either end. -/
def characterPieces (most : Nat) (cs : List Char) : List (List Char) :=
  let cut := ([] :: cs.map fun c => [c]) ++ [[]]
  if cut.length ≤ most + 1 then cut else cut.take most ++ [(cut.drop most).flatten]

/-- The pieces of a text between the places of a separator, with at most so many cuts. -/
def split (separator : List Char) (most : Nat) (cs : List Char) : List (List Char) :=
  if separator.isEmpty then characterPieces most cs else pieces separator most 0 cs

/-- The text with every place of a part replaced. -/
def replace (s part replacement : String) : String :=
  replacement.intercalate ((split part.toList (s.length + 2) s.toList).map String.ofList)

/-- The pieces of a text between single characters of white space, with at most so many cuts. -/
def splitBlanks : (most : Nat) → List Char → List (List Char)
  | _, [] => [[]]
  | most, c :: cs =>
    if most ≠ 0 ∧ isBlank c then [] :: splitBlanks (most - 1) cs
    else match splitBlanks most cs with
      | first :: rest => (c :: first) :: rest
      | [] => [[c]]

/-- A line without the carriage return before its end. -/
def dropReturn (line : List Char) : List Char :=
  if line.getLast? = some '\r' then line.dropLast else line

/--
The lines of a text without their ends. What follows the last line end is a line if it is not empty.
-/
def lines (cs : List Char) : List (List Char) :=
  let cut := pieces ['\n'] cs.length 0 cs
  let last := cut.getLast?.getD []
  cut.dropLast.map dropReturn ++ (if last.isEmpty then [] else [last])

end CustomElements.Text
