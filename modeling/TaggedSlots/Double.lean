import TaggedSlots.Decimal.Shortest

/-! # Binary64 numbers and their text

Doubles are core's `Float`; this module adds how they are written and read.

* **Writing** (`Double.text`). A finite double is written with the fewest
  digits that are read back as it, always positionally: `1e21` is a one and
  twenty-one zeros, and an integer has no fraction part. A zero keeps its sign.
* **Reading** (`Double.ofText?`). An optional sign, then either one of the words
  `inf`, `infinity` and `nan` in any case, or a decimal numeral: digits with an
  optional point among or around them and an optional exponent. The numeral is
  rounded to the nearest double, a tie to the even one; a magnitude too large
  gives an infinity.

Both directions are exact integer arithmetic on the fields of the format: a
finite double is `significand · 2 ^ exponent` with a significand below `2 ^ 53`
and an exponent of at least `-1074`.
-/
namespace TaggedSlots.Double

open Decimal

/-! ## The fields of a double -/

/-- The sign bit: the topmost of the sixty-four. -/
def signBit : Nat := 1 <<< 63

/-- The lowest exponent bit, right above the fifty-two fraction bits. -/
def exponentUnit : Nat := 1 <<< 52

/-- The magnitude bits of the infinities: all eleven exponent bits. -/
def infinityBits : Nat := 2047 * exponentUnit

/-- Whether the sign bit is set. -/
def isNegative (x : Float) : Bool := signBit ≤ x.toBits.toNat

/-- The number in the exponent bits. -/
def exponentBits (x : Float) : Nat := x.toBits.toNat % signBit / exponentUnit

/-- The number in the fraction bits. -/
def fractionBits (x : Float) : Nat := x.toBits.toNat % exponentUnit

/-- The integer significand of a finite double. -/
def significand (x : Float) : Nat :=
  if exponentBits x = 0 then fractionBits x else exponentUnit + fractionBits x

/-- The binary exponent that belongs to `significand`. -/
def exponent (x : Float) : Int := (max (exponentBits x) 1 : Nat) - 1075

/-! ## Writing -/

/-- The reals that round to the magnitude of `x`, a finite double other than
zero. Each end lies halfway to a neighbour; at a power of two the neighbour
below is only half as far away. An end rounds to `x` when the significand of
`x` is even. -/
def window (x : Float) : Window :=
  let m := significand x
  let gap := if fractionBits x = 0 ∧ exponentBits x ≠ 0 then 1 else 2
  let even := m % 2 == 0
  match exponent x - 2 with
  | .ofNat k => ⟨(4 * m - gap) <<< k, (4 * m) <<< k, (4 * m + 2) <<< k, 1, even⟩
  | .negSucc k => ⟨4 * m - gap, 4 * m, 4 * m + 2, 1 <<< (k + 1), even⟩

/-- The text of the magnitude of a double that is not NaN. -/
def magnitudeChars (x : Float) : List Char :=
  if x.isInf then "inf".toList
  else if significand x = 0 then ['0']
  else ((window x).shortest 17).dropZero.positional

/-- The text of a double: the fewest digits that identify it, without an
exponent. -/
def text (x : Float) : String :=
  if x.isNaN then "NaN"
  else String.ofList (if isNegative x then '-' :: magnitudeChars x else magnitudeChars x)

/-! ## Reading -/

/-- `num / den` rounded to an integer, a tie to the even neighbour. -/
def roundHalfEven (num den : Nat) : Nat :=
  let q := num / den
  let r := num % den
  if 2 * r < den then q
  else if den < 2 * r then q + 1
  else q + q % 2

/-- `num / den` in units of `2 ^ q`, as a numerator and a denominator. -/
def inUnits (num den : Nat) : Int → Nat × Nat
  | .ofNat k => (num, den <<< k)
  | .negSucc k => (num <<< (k + 1), den)

/-- The exponent of the last place of `num / den`: the unit in which its integer
part has fifty-three binary digits, or the smallest unit there is. -/
def lastPlace (num den : Nat) : Int :=
  let estimate : Int := (num.log2 : Int) - den.log2 - 52
  let (n, d) := inUnits num den estimate
  max (-1074) (if n / d < exponentUnit then estimate - 1 else estimate)

/-- The magnitude bits of the double nearest to `num / den`. A significand that
rounds up to `2 ^ 53` carries into the exponent by itself, because the exponent
bits stand right above the fraction bits. -/
def nearestBits (num den : Nat) : Nat :=
  let q := lastPlace num den
  let (n, d) := inUnits num den q
  min infinityBits ((q + 1074).toNat * exponentUnit + roundHalfEven n d)

/-- The double with the given sign and magnitude bits. -/
def ofMagnitude (s : Sign) (bits : Nat) : Float :=
  match s with
  | .plus => Float.ofBits bits.toUInt64
  | .minus => Float.ofBits (signBit + bits).toUInt64

/-- The magnitude bits of the double nearest to a decimal. Far outside the range
of doubles the answer does not depend on the digits, and no power of ten is
formed: a positive decimal below `10 ^ -330` rounds to zero, and one of at least
`10 ^ 310` is infinite. -/
def magnitudeBits (d : Scaled) : Nat :=
  let leading : Int := d.exponent + (digits d.coefficient).length
  if d.coefficient = 0 ∨ leading < -330 then 0
  else if 310 < leading then infinityBits
  else match d.exponent with
    | .ofNat k => nearestBits (d.coefficient * powerOfTen k) 1
    | .negSucc k => nearestBits d.coefficient (powerOfTen (k + 1))

/-- The exponent part of a numeral: nothing, or an `e` in either case, an
optional sign and at least one digit. -/
def exponentPart? : List Char → Option Int
  | [] => some 0
  | c :: cs =>
    if c = 'e' ∨ c = 'E' then
      let (s, ds) := splitSign cs
      if ds ≠ [] ∧ ds.all Char.isDigit then some (s.apply (ofDigits ds)) else none
    else none

/-- Splits the fraction digits off what follows the integer digits: a point may
stand there, with digits after it. -/
def splitFraction : List Char → List Char × List Char
  | '.' :: cs => splitDigits cs
  | cs => ([], cs)

/-- Reads an unsigned decimal numeral: integer digits, a fraction, an exponent,
with at least one digit before or after the point. -/
def numeral? (cs : List Char) : Option Scaled :=
  let (whole, rest) := splitDigits cs
  let (fraction, rest) := splitFraction rest
  if whole = [] ∧ fraction = [] then none
  else (exponentPart? rest).map fun e => ⟨ofDigits (whole ++ fraction), e - fraction.length⟩

/-- The words for the doubles that have no numeral. -/
inductive Special where
  | infinity
  | nan
deriving DecidableEq

/-- Recognises a word for a special double, in any letter case. -/
def special? (cs : List Char) : Option Special :=
  let word := cs.map Char.toLower
  if word = "inf".toList ∨ word = "infinity".toList then some .infinity
  else if word = "nan".toList then some .nan
  else none

/-- The double that a special word names. -/
def Special.toFloat (s : Sign) : Special → Float
  | .infinity => ofMagnitude s infinityBits
  | .nan => ofMagnitude s (infinityBits + exponentUnit / 2)

/-- Reads a double from its text. -/
def ofText? (t : String) : Option Float :=
  let (s, cs) := splitSign t.toList
  match special? cs with
  | some w => some (w.toFloat s)
  | none => (numeral? cs).map fun d => ofMagnitude s (magnitudeBits d)

end TaggedSlots.Double
