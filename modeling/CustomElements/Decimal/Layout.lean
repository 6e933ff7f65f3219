import CustomElements.Decimal.Shortest

/-!
# How a number's digits are laid out

A text form either writes all places of a number around a decimal point, or one digit, a point, the
other digits and a power of ten. Which of the two is used depends on the place of the leading digit
and is the main decision that a `Layout` records.
-/

namespace CustomElements.Decimal

/-- The decisions of one text form of numbers. -/
structure Layout where
  /-- Numbers whose leading digit has this exponent of ten are written without a power of ten. -/
  positional : Int → Bool
  /-- A positive exponent has a sign. -/
  plusSign : Bool
  /-- Which of two equally near shortest decimals is written. -/
  tie : Tie

/-- The decimal digits of a natural number, most significant first. -/
def digitChars (n : Nat) : List Char := Nat.toDigits 10 n

/-- All places around a point, at least one on each side. -/
def layPositional (digits : List Char) (exp : Int) : List Char :=
  let point := (digits.length : Int) + exp
  if point ≤ 0 then '0' :: '.' :: List.replicate (-point).toNat '0' ++ digits
  else if digits.length ≤ point.toNat then digits ++ List.replicate exp.toNat '0' ++ ['.', '0']
  else digits.take point.toNat ++ '.' :: digits.drop point.toNat

/-- One digit, a point if more follow, and the power of ten. -/
def layScientific (layout : Layout) (digits : List Char) (exp : Int) : List Char :=
  let lead := (digits.length : Int) + exp - 1
  let mantissa := match digits with
    | d :: e :: rest => d :: '.' :: e :: rest
    | short => short
  let power := if lead < 0 then '-' :: digitChars lead.natAbs
    else (if layout.plusSign then ['+'] else []) ++ digitChars lead.natAbs
  mantissa ++ 'e' :: power

/-- The text of a decimal number. -/
def Layout.lay (layout : Layout) (d : Numeral) : List Char :=
  let digits := digitChars d.digits
  if layout.positional ((digits.length : Int) + d.exp - 1) then layPositional digits d.exp
  else layScientific layout digits d.exp

/-- The text of a finite floating-point number, sign included; zero keeps its sign. -/
def Layout.render (layout : Layout) (x : Float) : String :=
  let bits := x.toBits
  let body := layout.lay ((Binary.ofBits bits).shortest layout.tie)
  String.ofList (if bits ≥ 0x8000000000000000 then '-' :: body else body)

end CustomElements.Decimal
