/-! # Escaped control characters

A log is read on a terminal, and a terminal obeys some characters instead of
showing them. These are written by their number: bell, backspace, form feed,
escape and delete as `\x` and two hexadecimal digits, and the controls from
`U+0080` to `U+009F` as `\u` and the digits in braces. Everything else stands for
itself, the line feed included.
-/
namespace TaggedSlots.Text

/-- The controls of seven bits that are escaped: bell, backspace, form feed,
escape and delete. -/
def isShortControl (c : Char) : Bool :=
  c.toNat == 0x07 || c.toNat == 0x08 || c.toNat == 0x0c || c.toNat == 0x1b || c.toNat == 0x7f

/-- The controls of eight bits. -/
def isLongControl (c : Char) : Bool := 0x80 ≤ c.toNat && c.toNat ≤ 0x9f

/-- The two hexadecimal digits of a number below 256. -/
def hexPair (n : Nat) : List Char := [Nat.digitChar (n / 16), Nat.digitChar (n % 16)]

/-- How one character is written. -/
def escapeChar (c : Char) : List Char :=
  if isShortControl c then '\\' :: 'x' :: hexPair c.toNat
  else if isLongControl c then '\\' :: 'u' :: '\x7b' :: hexPair c.toNat ++ ['\x7d']
  else [c]

/-- A text with its control characters escaped. -/
def escaped (t : String) : String := String.ofList (t.toList.flatMap escapeChar)

end TaggedSlots.Text
