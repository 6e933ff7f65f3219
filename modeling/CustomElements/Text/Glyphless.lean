/-!
# Characters without a glyph of their own

Control and format characters, separators other than the plain space, private and unassigned code
points, and marks that only change the character before them. A quoted text shows them by number.

The table lists the runs of such code points in ascending order, as hexadecimal pairs: how many code
points lie between the run and the one before it, and how many the run has.
-/

namespace CustomElements.Text

/-- The runs, as `gap+length` with commas between them. -/
def glyphlessText : String :=
  String.join [
    "0+20,5f+22,c+1,252+70,8+2,6+4,7+1,1+1,14+1,e0+7,a6+1,26+2,32+2,3+2e,1+1,1+2,1+2,1+9,1b+4",
    ",6+11,a+b,1+1,2e+15,10+1,65+8,1+6,2+2,1+4,20+2,1+1,1e+1d,59+b,1+e,2b+9,7+3,18+4,1+9,1+3,",
    "1+7,f+1,19+5,1+1,b+5,1f+11,2a+39,37+1,1+1,4+8,4+1,3+7,a+2,1d+1,2+1,8+2,2+2,16+1,7+1,1+3,",
    "4+3,1+1,2+6,2+2,2+1,1+d,2+1,3+4,18+5,1+1,6+4,2+2,16+1,7+1,2+1,2+1,2+4,3+18,4+1,1+7,a+2,3",
    "+1,1+c,1+1,9+1,3+1,16+1,7+1,2+1,5+3,4+8,1+1,2+3,1+f,2+4,c+7,1+8,2+1,8+2,2+2,16+1,7+1,2+1",
    ",5+3,1+2,1+6,2+2,2+f,2+1,3+4,12+b,1+1,6+3,3+1,4+3,2+1,1+1,2+3,2+3,3+3,c+5,1+1,2+3,3+1,3+",
    "3,1+15,15+6,3+1,8+1,3+1,17+1,10+3,1+3,4+13,3+2,1+2,2+4,a+7,a+1,b+1,3+1,17+1,a+1,5+3,2+1,",
    "2+1,2+2,2+1,2+11,2+1,2+4,a+1,2+f,b+1,3+1,29+2,1+1,2+5,3+1,3+1,2+4,3+1,a+4,1a+2,2+1,12+3,",
    "18+1,9+1,1+2,7+9,2+6,7+7,a+2,3+c,30+1,2+b,8+8,d+25,2+1,1+1,5+1,18+1,1+1,a+1,2+9,1+2,5+1,",
    "1+9,a+2,4+20,18+2,1b+1,1+1,1+1,e+1,24+12,1+5,1+2,5+31,8+1,6+1,d+25,2d+4,1+6,1+2,2+2,19+2",
    ",4+3,10+4,d+1,2+2,6+1,f+1,28+1,1+5,1+2,179+1,4+2,7+1,1+1,4+2,29+1,4+2,21+1,4+2,7+1,1+1,4",
    "+2,f+1,39+1,4+2,43+5,1d+3,1a+6,56+2,6+2,280+1,1c+3,59+7,12+3,1+9,13+2,3+9,12+e,d+1,3+f,3",
    "4+2,1+7,8+1,2+b,9+3,a+6,a+6,b+5,a+6,59+7,5+2,22+1,1+5,46+a,1f+4,4+2,3+4,2+1,6+7,1+3,2a+2",
    ",5+b,2c+4,1a+6,b+3,39+2,2+3,38+1,1+9,1+1,2+8,6+d,a+6,a+6,e+56,30+7,1+1,5+1,a+3,1b+9,b+3,",
    "20+4,2+2,1+3,38+1,1+2,3+1,1+3,2+8,30+8,2+5,f+3,3c+7,2b+2,b+b,1+d,1+7,4+1,6+1,3+2,1+5,c0+",
    "40,116+2,6+2,26+2,6+2,8+1,1+1,1+1,1+1,1f+2,35+1,f+1,e+2,6+1,13+2,3+1,9+11,18+8,2f+11,2+2",
    ",1b+1,d+3,21+3f,8c+4,297+19,b+15,714+2,20+1,158+3,2+5,2d+1,1+5,1+2,38+7,2+f,17+9,7+1,7+1",
    ",7+1,7+1,7+1,7+1,7+1,7+21,5e+22,1a+1,59+c,d6+1a,c+5,29+6,10+1,56+4,65+5,2b+1,5e+1,54+c,2",
    "f+1,726d+3,37+9,15c+14,2f+4,1+a,20+2,50+2,6+8,cb+5,2+1,1+1,5+18,10+1,3+1,4+1,19+2,5+4,a+",
    "6,38+8,44+a,c+18,d+1,26+8,19+b,2+b,1e+6,30+1,2+4,2+2,10+1,b+4,7+1,19+1,29+6,2+2,2+b,3+1,",
    "8+1,1+2,a+2,20+1,33+1,1+3,2+2,5+2,1+1,1+18,11+2,8+b,6+2,6+2,6+9,7+1,7+1,3c+4,75+1,2+1,4+",
    "3,a+6,2ba4+c,17+4,31+2104,16e+2,6a+26,7+c,5+5,1+1,18+1,5+1,1+1,2+1,2+1,7d+10,1bd+2,36+7,",
    "1+20,10+10,a+16,23+1,13+1,4+4,5+1,87+4,9d+2,1f+3,6+2,6+2,6+2,3+3,7+1,7+d,2+2,c+1,1a+1,13",
    "+1,2+1,f+2,e+22,7b+5,3+4,2d+3,58+1,d+3,1+2f,2d+83,1d+3,31+10,1b+4,24+9,1e+5,26+a,1e+1,25",
    "+4,e+2a,9e+2,a+6,24+4,24+4,28+8,34+b,c+1,f+1,7+1,2+1,b+1,f+1,7+1,2+43,137+9,16+a,8+18,6+",
    "1,2a+1,9+45,6+2,1+1,2c+1,2+3,1+2,17+1,48+8,9+30,13+1,2+5,21+3,1b+5,1+40,38+4,14+2,2f+f,4",
    "+1,3+1,1d+a,9+7,9+7,40+20,25+6,c+9,36+3,1d+2,1b+5,1a+7,4+c,7+50,49+37,33+d,33+7,2a+c,a+1",
    "26,1f+1,2a+3,1+2,2+4e,28+8,16+b,9+16,12+4,4+26,1c+14,17+9,1+1,36+f,7+4,1e+1,2+2,1+c,31+4",
    ",2+2,2+1,4+e,19+7,a+9,24+5,1+9,12+8,23+1,3+b,34+9,a+4,2+1,10+1,14+b,12+1,1c+3,2+1,1+2,6+",
    "42,7+1,1+1,4+1,f+1,b+6,2f+1,3+d,a+8,2+1,8+2,2+2,16+1,7+1,2+1,5+3,1+1,1+1,4+2,2+2,3+2,1+c",
    ",7+9c,38+8,2+3,1+1,15+1,1+1,3+1e,30+1,2+6,1+1,2+1,1+2,1+2,4+8,a+a6,2f+1,2+6,4+2,1+2,1b+2",
    "4,33+8,2+1,1+2,4+b,a+6,d+13,2b+1,1+1,2+6,1+1,2+6,a+36,1b+5,2+4,1+9,17+b9,2f+9,1+2,1+64,5",
    "3+c,8+2,1+2,8+1,2+1,18+1,5+1,2+4,1+1,4+1,3+9,a+46,8+2,2a+8,4+1,4+1b,1+a,28+6,2+4,8+9,1+6",
    ",2+3,2e+d,1+2,9+d,49+107,9+1,26+e,1+1,6+a,1d+3,20+19,1+7,1+2,1+4b,7+1,2+1,26+15,1+9,a+6,",
    "6+1,2+1,25+4,2+1,1+1,1+7,a+136,13+2,4+b7,1+f,32+d,39b+66,6f+1,5+b,c4+a4c,63+d,42f+fd1,24",
    "7+21b9,239+7,1f+1,a+4,51+1,a+6,1e+7,1+a,30+7,f+a,a+1,7+1,15+5,13+2b0,5b+65,4b+5,38+b,d+4",
    "0,4+c,2+e,17f8+8,4d6+2a,9+22e7,4+1,7+1,2+1,123+2d,3+11,4+8,18c+904,6b+5,d+3,9+7,a+2,1+2,",
    "1+12b0,74+3c,f6+a,27+2,3c+1,1+3,4+15,2+7,1e+4,3d+15,42+3,1+9a,14+c,57+9,19+87,55+1,47+1,",
    "2+2,1+2,2+2,4+1,c+1,1+1,7+1,41+1,4+2,8+1,7+1,1c+1,4+1,5+1,1+3,7+1,154+2,124+2,232+37,4+3",
    "2,8+1,e+1,7+474,1f+1e1,2d+a,7+2,a+4,2+140,1e+12,2c+4,a+5,1+4e0,7+1,4+1,2+1,f+1,c5+2,9+30",
    ",44+7,1+4,a+4,2+311,44+4c,3d+c2,4+1,1b+1,2+1,1+2,1+1,a+1,4+1,1+1,1+6,1+4,1+1,1+1,1+1,3+1",
    ",2+1,1+2,1+1,1+1,1+1,1+1,1+1,2+1,1+2,4+1,7+1,4+1,4+1,1+1,a+1,11+5,3+1,5+1,11+34,2+10e,2c",
    "+4,64+c,f+2,f+1,f+1,25+a,ae+38,1d+d,2c+4,9+7,2+e,6+9a,3d8+5,10+3,d+3,74+c,59+7,c+4,1+f,c",
    "+4,38+8,a+6,28+8,1e+2,2+4e,154+c,e+2,5+3,5+3,7+9,1d+3,b+5,6+a,a+6,8+8,7+9,93+1,37+25,a+4",
    "06,a6e0+20,1039+7,de+2,1682+e,1d31+c1f,21e+5e2,134b+decb5"]

/-- The value of a hexadecimal numeral. -/
def hexNumeral (s : String) : Nat :=
  s.foldl (fun n c =>
    n * 16 + (if c.isDigit then c.toNat - '0'.toNat else c.toNat - 'a'.toNat + 10)) 0

/-- First code point and length of each run, from the pairs of gap and length. -/
def runsFrom : (start : Nat) → List String → List (Nat × Nat)
  | _, [] => []
  | start, entry :: rest =>
    match entry.splitOn "+" with
    | [gap, length] =>
      let first := start + hexNumeral gap
      (first, hexNumeral length) :: runsFrom (first + hexNumeral length) rest
    | _ => []

/-- First code point and length of each run. -/
def glyphlessRuns : List (Nat × Nat) := runsFrom 0 (glyphlessText.splitOn ",")

/-- The character has no glyph of its own. -/
def isGlyphless (c : Char) : Bool :=
  let n := c.toNat
  if n < 0x7F then n < 0x20
  else glyphlessRuns.any fun (first, length) => first ≤ n && n < first + length

end CustomElements.Text
