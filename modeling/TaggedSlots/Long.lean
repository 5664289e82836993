import TaggedSlots.Decimal.Numeral

/-! # Longs: 64-bit signed integers

Longs are core's `Int64`. No operation of this library lets a long wrap around:
a result is computed exactly, as an `Int`, and then either fits (`Long.ofInt?`)
or is refused. The same holds for reading a long from text (`Long.ofText`),
which says what is wrong with a text that is not a long.
-/
namespace TaggedSlots.Long

open Decimal

/-! ## Range -/

/-- The least value of a long, `-2 ^ 63`. -/
def least : Int := -9223372036854775808

/-- The greatest value of a long, `2 ^ 63 - 1`. -/
def greatest : Int := 9223372036854775807

/-- Whether an integer is the value of a long. -/
def InRange (i : Int) : Prop := least ≤ i ∧ i ≤ greatest

instance (i : Int) : Decidable (InRange i) := inferInstanceAs (Decidable (_ ∧ _))

/-- The long with the given value, if there is one. -/
def ofInt? (i : Int) : Option Int64 :=
  if InRange i then some (Int64.ofInt i) else none

theorem inRange_toInt (n : Int64) : InRange n.toInt :=
  ⟨n.le_toInt, Int.le_of_lt_add_one n.toInt_lt⟩

/-- A long is found for an integer exactly when it has that value. -/
theorem ofInt?_eq_some_iff {i : Int} {n : Int64} : ofInt? i = some n ↔ n.toInt = i := by
  constructor
  · intro h
    by_cases hr : InRange i
    · rw [ofInt?, if_pos hr] at h
      rw [← Option.some.inj h]
      exact Int64.toInt_ofInt_of_le hr.1 (Int.lt_add_one_of_le hr.2)
    · simp [ofInt?, hr] at h
  · rintro rfl
    simp [ofInt?, inRange_toInt]

theorem ofInt?_eq_none_iff {i : Int} : ofInt? i = none ↔ ¬ InRange i := by
  simp [ofInt?]

/-- The position that a long denotes, if it is not negative. -/
def toIndex? (n : Int64) : Option Nat :=
  if n.toInt < 0 then none else some n.toInt.toNat

theorem toIndex?_eq_some_iff {n : Int64} {i : Nat} : toIndex? n = some i ↔ n.toInt = i := by
  unfold toIndex?
  split
  next hneg =>
    simp only [reduceCtorEq, false_iff]
    omega
  next hneg =>
    rw [Option.some.injEq]
    omega

/-- Looking something up at the position that a long denotes fails exactly when the
long is negative or too large, if looking up fails exactly from `len` on. -/
theorem bind_toIndex?_eq_none_iff {α : Type} {find : Nat → Option α} {len : Nat}
    (hfind : ∀ i, find i = none ↔ len ≤ i) {n : Int64} :
    (toIndex? n).bind find = none ↔ n.toInt < 0 ∨ (len : Int) ≤ n.toInt := by
  unfold toIndex?
  split
  next hneg => simp [hneg]
  next hneg =>
    rw [Option.bind_some, hfind]
    omega

/-! ## Text -/

/-- The decimal characters of a long. -/
def chars (n : Int64) : List Char := Decimal.chars n.toInt

/-- The decimal text of a long. -/
def text (n : Int64) : String := String.ofList (chars n)

/-- What keeps a text from being a long. -/
inductive ReadError where
  | empty
  | invalidDigit
  | tooLarge
  | tooSmall
deriving DecidableEq

/-- The wording of a `ReadError`. -/
def ReadError.message : ReadError → String
  | .empty => "cannot parse integer from empty string"
  | .invalidDigit => "invalid digit found in string"
  | .tooLarge => "number too large to fit in target type"
  | .tooSmall => "number too small to fit in target type"

/-- The range error for a numeral of the given sign. -/
def ReadError.outOfRange : Sign → ReadError
  | .plus => .tooLarge
  | .minus => .tooSmall

/-- Reads a long: an optional sign and one or more digits. The text is judged
from left to right, so digits that already leave the range are reported before
a character that is no digit behind them. -/
def ofText (t : String) : Except ReadError Int64 :=
  if t.toList = [] then .error .empty
  else
    let (s, cs) := splitSign t.toList
    let (ds, rest) := splitDigits cs
    match ofInt? (s.apply (ofDigits ds)) with
    | none => .error (.outOfRange s)
    | some n => if ds = [] ∨ rest ≠ [] then .error .invalidDigit else .ok n

end TaggedSlots.Long
