/-!
# The fewest digits that read back

A binary floating-point number stands for every real that rounds to it: an interval around
`m * 2^q` that reaches half-way to each neighbour and holds its ends exactly when `m` is even. The
text of the number is the decimal with the fewest digits inside that interval, and the one nearest
to the number if several have as few. All comparisons are exact, on natural numbers.

Only the two points of a decimal grid next to the number need a test: if any point of the grid lies
in the interval, so does one of those two.
-/

namespace CustomElements.Decimal

/-- A finite positive binary number, `m * 2^q`. -/
structure Binary where
  /-- The whole-number part. -/
  m : Nat
  /-- The exponent of two. -/
  q : Int
  /-- The gap to the number below is half the gap to the number above. -/
  narrowBelow : Bool
  deriving DecidableEq, Repr

/-- Which of two equally near candidates is taken. -/
inductive Tie
  | toEven
  | up
  deriving DecidableEq, Repr

/-- A decimal number, `digits * 10^exp`. -/
structure Numeral where
  digits : Nat
  exp : Int
  deriving DecidableEq, Repr

/-- The magnitude held by the 64 bits of a finite number; the sign bit is not looked at. -/
def Binary.ofBits (bits : UInt64) : Binary :=
  let biased := (bits >>> 52).toNat % 2048
  let fraction := bits.toNat % 0x10000000000000
  if biased = 0 then ⟨fraction, -1074, false⟩
  else ⟨0x10000000000000 + fraction, (biased : Int) - 1075, fraction == 0 && biased != 1⟩

/-- How `a * 10^d` compares with `b * 2^e`. -/
def compareScaled (a : Nat) (d : Int) (b : Nat) (e : Int) : Ordering :=
  compare (a * Nat.pow 10 d.toNat * Nat.pow 2 (-e).toNat)
    (b * Nat.pow 2 e.toNat * Nat.pow 10 (-d).toNat)

/-- The decimal lies in the interval of reals that round to the binary number. -/
def Binary.readsBack (x : Binary) (d : Numeral) : Bool :=
  let low := compareScaled d.digits d.exp (4 * x.m - (if x.narrowBelow then 1 else 2)) (x.q - 2)
  let high := compareScaled d.digits d.exp (4 * x.m + 2) (x.q - 2)
  if x.m % 2 = 0 then low != .lt && high != .gt else low == .gt && high == .lt

/-- The whole number of grid steps `10^g` that fit into the binary number. -/
def Binary.floorOn (x : Binary) (g : Int) : Nat :=
  (x.m * Nat.pow 2 x.q.toNat * Nat.pow 10 (-g).toNat) /
    (Nat.pow 2 (-x.q).toNat * Nat.pow 10 g.toNat)

/-- The nearer of the grid points `n` and `n + 1`, given that the number lies between them. -/
def Binary.nearer (x : Binary) (tie : Tie) (n : Nat) (g : Int) : Nat :=
  match compareScaled (2 * n + 1) g (2 * x.m) x.q, tie with
  | .gt, _ => n
  | .lt, _ => n + 1
  | .eq, .up => n + 1
  | .eq, .toEven => if n % 2 = 0 then n else n + 1

/-- The point of the grid `10^g` that reads back and is nearest, if one reads back. -/
def Binary.hitOn? (x : Binary) (tie : Tie) (g : Int) : Option Numeral :=
  let n := x.floorOn g
  match x.readsBack ⟨n, g⟩, x.readsBack ⟨n + 1, g⟩ with
  | true, true => some ⟨x.nearer tie n g, g⟩
  | true, false => some ⟨n, g⟩
  | false, true => some ⟨n + 1, g⟩
  | false, false => none

/-- Moves up to `fuel` trailing zeros of the digits into the exponent. -/
def Numeral.strip : Nat → Numeral → Numeral
  | 0, d => d
  | fuel + 1, d =>
    if d.digits % 10 = 0 && d.digits != 0 then strip fuel ⟨d.digits / 10, d.exp + 1⟩ else d

/-- The least `k` from `start` up with the number below `10^k`, looking at `fuel` candidates. -/
def Binary.scaleFrom (x : Binary) : Nat → Int → Int
  | 0, k => k
  | fuel + 1, k => if compareScaled 1 k x.m x.q == .gt then k else scaleFrom x fuel (k + 1)

/-- The number of decimal places before the point: the least `k` with the number below `10^k`. -/
def Binary.scale (x : Binary) : Int :=
  x.scaleFrom 4 (((x.m.log2 : Int) + x.q) * 30103 / 100000 - 1)

/-- The exact decimal value. -/
def Binary.exact (x : Binary) : Numeral :=
  ⟨x.m * Nat.pow 2 x.q.toNat * Nat.pow 5 (-x.q).toNat, -((-x.q).toNat : Int)⟩

/-- The shortest decimal that reads back as the number; zero is written with the digit zero. -/
def Binary.shortest (x : Binary) (tie : Tie) : Numeral :=
  if x.m = 0 then ⟨0, 0⟩
  else
    let k := x.scale
    let hit := (List.range 17).findSome? fun n => x.hitOn? tie (k - (n + 1 : Nat))
    (hit.getD x.exact).strip 400

end CustomElements.Decimal
