/-!
# White space and trimming

Names, selectors and class lists are trimmed of white space in the sense of Unicode's `White_Space`
property: twenty-five characters, of which six are ASCII.
-/

namespace CustomElements.Text

/-- The character has Unicode's `White_Space` property. -/
def isBlank (c : Char) : Bool :=
  let n := c.toNat
  (9 ≤ n && n ≤ 13) || n == 0x20 || n == 0x85 || n == 0xA0 || n == 0x1680 ||
    (0x2000 ≤ n && n ≤ 0x200A) || n == 0x2028 || n == 0x2029 || n == 0x202F || n == 0x205F ||
    n == 0x3000

/-- Drops white space from the front. -/
def trimStart (cs : List Char) : List Char := cs.dropWhile isBlank

/-- Drops white space from the end. -/
def trimEnd (cs : List Char) : List Char := (cs.reverse.dropWhile isBlank).reverse

/-- Drops white space from both ends. -/
def trim (cs : List Char) : List Char := trimEnd (trimStart cs)

/-- The string without white space at its ends. -/
def trimmed (s : String) : String := String.ofList (trim s.toList)

/-- The maximal runs of characters that are not white space. -/
def words (cs : List Char) : List (List Char) :=
  match cs with
  | [] => []
  | c :: rest =>
    if isBlank c then words rest
    else match rest with
      | [] => [[c]]
      | d :: _ =>
        if isBlank d then [c] :: words rest
        else match words rest with
          | [] => [[c]]
          | w :: ws => (c :: w) :: ws

/-- Letters `A` to `Z` in lower case; every other character stays. -/
def asciiLower (s : String) : String := s.map Char.toLower

/-- Equality that does not tell `A` to `Z` from `a` to `z`. -/
def eqIgnoreAsciiCase (s t : String) : Bool := asciiLower s == asciiLower t

end CustomElements.Text
