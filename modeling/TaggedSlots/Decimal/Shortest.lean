import TaggedSlots.Decimal.Numeral

/-! # The shortest decimal inside an interval

A number that is stored with limited precision stands for every real that
rounds to it. To write it down one wants the decimal with the fewest digits in
that interval, and of those with equally few the one nearest to the number.

`Window` holds a positive number and its interval as exact fractions.
`Window.shortest` tries one digit, two digits, and so on. With the number of
digits fixed, the candidates are the multiples of a power of ten, and only the
two neighbours of the number on that grid need to be looked at: if any grid
point lies in the interval, one of these two does, because the interval
contains the number itself. Everything is exact arithmetic on `Nat`.

`Scaled.positional` writes the result without an exponent.
-/
namespace TaggedSlots.Decimal

/-- The decimal number `coefficient · 10 ^ exponent`. -/
structure Scaled where
  coefficient : Nat
  exponent : Int
deriving DecidableEq

/-- A positive number `value / unit` with an interval around it, whose ends are
`low / unit` and `high / unit`. -/
structure Window where
  low : Nat
  value : Nat
  high : Nat
  unit : Nat
  /-- Whether the two ends belong to the interval. -/
  closed : Bool

namespace Window

/-- Whether the fraction `n / unit` lies in the interval. -/
def admits (w : Window) (n : Nat) : Bool :=
  if w.closed then w.low ≤ n && n ≤ w.high else w.low < n && n < w.high

/-- The same interval measured in units of `10 ^ k`. -/
def rescale (w : Window) : Int → Window
  | .ofNat k => { w with unit := w.unit * powerOfTen k }
  | .negSucc k =>
    { w with
      low := w.low * powerOfTen (k + 1)
      value := w.value * powerOfTen (k + 1)
      high := w.high * powerOfTen (k + 1) }

/-- The integer in the interval that is nearest to the value, if one of the
value's two neighbours is in the interval. The upper neighbour is taken when
both are equally near. -/
def nearestInteger? (w : Window) : Option Nat :=
  let below := w.value / w.unit
  let above := below + 1
  match w.admits (below * w.unit), w.admits (above * w.unit) with
  | true, true =>
    some (if w.value - below * w.unit < above * w.unit - w.value then below else above)
  | true, false => some below
  | false, true => some above
  | false, false => none

/-- The exponent `e` with `10 ^ (e - 1) ≤ value / unit < 10 ^ e`. -/
def magnitude (w : Window) : Int :=
  if w.unit ≤ w.value then
    (digits (w.value / w.unit)).length
  else
    1 - ((digits ((w.unit - 1) / w.value)).length : Int)

/-- The nearest decimal of `n` significant digits, if it is in the interval. -/
def ofDigits? (w : Window) (n : Nat) : Option Scaled :=
  let e := w.magnitude - n
  (w.rescale e).nearestInteger?.map fun c => ⟨c, e⟩

/-- The decimal of at most `limit` digits to which no shorter one in the
interval exists; if there is none, the value cut off after `limit` digits. -/
def shortest (w : Window) (limit : Nat) : Scaled :=
  match (List.range limit).findSome? fun n => w.ofDigits? (n + 1) with
  | some d => d
  | none =>
    let e := w.magnitude - limit
    let scaled := w.rescale e
    ⟨scaled.value / scaled.unit, e⟩

end Window

namespace Scaled

/-- Moves one trailing zero of the coefficient into the exponent. A coefficient
of the fewest digits has at most one: it is ten when the neighbour above a
single digit was taken. -/
def dropZero (d : Scaled) : Scaled :=
  if d.coefficient % 10 = 0 then ⟨d.coefficient / 10, d.exponent + 1⟩ else d

/-- The characters of a decimal written with a point and without an exponent.
An integer has no point, and a proper fraction has one zero in front of it. -/
def positional (d : Scaled) : List Char :=
  let ds := digits d.coefficient
  match d.exponent with
  | .ofNat k => ds ++ List.replicate k '0'
  | .negSucc k =>
    let places := k + 1
    if places < ds.length then
      ds.take (ds.length - places) ++ '.' :: ds.drop (ds.length - places)
    else
      '0' :: '.' :: (List.replicate (places - ds.length) '0' ++ ds)

end Scaled

end TaggedSlots.Decimal
