/-! # Decimal numerals of integers

An integer is written in base ten without padding, with a minus sign in front
when it is negative (`chars`). For reading, a sign and a run of ASCII digits are
split off the front of a text (`splitSign`, `splitDigits`), and the run is taken as
the number it spells (`ofDigits`).

Digits of other scripts are not digits here, and neither blanks nor group
separators are skipped: what is read is exactly what is there.
-/
namespace TaggedSlots.Decimal

/-! ## Writing -/

/-- The decimal characters of a natural number, most significant digit first. -/
def digits (n : Nat) : List Char := Nat.toDigits 10 n

/-- The decimal characters of an integer: a minus sign if it is negative, then
the digits of its magnitude. -/
def chars : Int → List Char
  | .ofNat n => digits n
  | .negSucc n => '-' :: digits (n + 1)

/-- The decimal text of a natural number. -/
def natText (n : Nat) : String := String.ofList (digits n)

/-- The power of ten with the given exponent. -/
def powerOfTen (k : Nat) : Nat := Nat.pow 10 k

/-! ## Reading -/

/-- The number spelled by a run of decimal digits; the empty run spells zero. -/
def ofDigits (ds : List Char) : Nat := Nat.ofDigitChars 10 ds 0

/-- The digits spelled by a number are read back as that number. -/
@[simp] theorem ofDigits_digits (n : Nat) : ofDigits (digits n) = n :=
  Nat.ofDigitChars_ten_toDigits

theorem digits_ne_nil (n : Nat) : digits n ≠ [] := Nat.toDigits_ne_nil

theorem isDigit_of_mem_digits {n : Nat} {c : Char} (h : c ∈ digits n) : c.isDigit = true :=
  Nat.isDigit_of_mem_toDigits (by decide) (by decide) h

/-- The digits of a numeral end where something else follows. -/
theorem takeWhile_digits_append (n : Nat) {c : Char} (hc : c.isDigit = false) (u : List Char) :
    (digits n ++ c :: u).takeWhile Char.isDigit = digits n := by
  rw [List.takeWhile_append_of_pos fun d hd => isDigit_of_mem_digits hd,
    List.takeWhile_cons_of_neg (by simp [hc]), List.append_nil]

theorem digits_inj {m n : Nat} : digits m = digits n ↔ m = n := by
  constructor
  · intro h
    rw [← ofDigits_digits m, h, ofDigits_digits]
  · rintro rfl
    rfl

/-- A sign in front of a numeral. -/
inductive Sign where
  | plus
  | minus
deriving DecidableEq

/-- The integer with the given sign and magnitude. -/
def Sign.apply : Sign → Nat → Int
  | .plus, n => n
  | .minus, n => -n

/-- Takes an optional sign off the front of a text; without one the sign is
`plus`. -/
def splitSign : List Char → Sign × List Char
  | '+' :: cs => (.plus, cs)
  | '-' :: cs => (.minus, cs)
  | cs => (.plus, cs)

/-- The longest run of digits in front of a text, and what follows it. -/
def splitDigits (cs : List Char) : List Char × List Char :=
  (cs.takeWhile Char.isDigit, cs.dropWhile Char.isDigit)

@[simp] theorem splitDigits_append (cs : List Char) :
    (splitDigits cs).1 ++ (splitDigits cs).2 = cs :=
  List.takeWhile_append_dropWhile

end TaggedSlots.Decimal
