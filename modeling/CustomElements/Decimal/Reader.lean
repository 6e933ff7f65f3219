/-!
# Reading decimal numbers

The floating-point number nearest to a decimal text: an optional sign, digits with an optional
point among them, and an optional power of ten. The words `inf`, `infinity` and `nan` are read too,
in any case.
-/

namespace CustomElements.Decimal

/-- The number that digits stand for. -/
def ofDigits (cs : List Char) : Nat := cs.foldl (fun n c => n * 10 + (c.toNat - '0'.toNat)) 0

/-- A sign in front, and what follows it. -/
def splitSign : List Char → Bool × List Char
  | '-' :: rest => (true, rest)
  | '+' :: rest => (false, rest)
  | cs => (false, cs)

/-- The whole number of a text of digits with an optional sign. -/
def readInt? (cs : List Char) : Option Int :=
  let (negative, digits) := splitSign cs
  if digits.isEmpty || !digits.all Char.isDigit then none
  else
    let n : Int := ofDigits digits
    some (if negative then -n else n)

/--
`digits * 10^exp`, rounded to the nearest. Powers of ten far out of range are not worked out: the
number is then infinite or zero.
-/
def nearest (digits : Nat) (exp : Int) : Float :=
  let lead := ((Nat.toDigits 10 digits).length : Int) + exp
  if digits = 0 ∨ lead < -400 then 0.0
  else if lead > 400 then 1.0 / 0.0
  else if exp < 0 then Float.ofScientific digits true exp.natAbs
  else Float.ofScientific digits false exp.natAbs

/-- A number without its sign. -/
def readMagnitude? (cs : List Char) : Option Float :=
  let word := String.ofList (cs.map Char.toLower)
  if word == "inf" || word == "infinity" then some (1.0 / 0.0)
  else if word == "nan" then some (0.0 / 0.0)
  else
    let whole := cs.takeWhile Char.isDigit
    let rest := cs.dropWhile Char.isDigit
    let (places, rest) := match rest with
      | '.' :: rest => (rest.takeWhile Char.isDigit, rest.dropWhile Char.isDigit)
      | rest => ([], rest)
    if whole.isEmpty && places.isEmpty then none
    else
      let digits := ofDigits (whole ++ places)
      let exp : Int := -(places.length : Int)
      match rest with
      | [] => some (nearest digits exp)
      | e :: power =>
        if e == 'e' || e == 'E' then (readInt? power).map fun p => nearest digits (exp + p)
        else none

/-- The floating-point number that a whole text stands for. -/
def read? (cs : List Char) : Option Float :=
  let (negative, rest) := splitSign cs
  (readMagnitude? rest).map fun x => if negative then -x else x

end CustomElements.Decimal
