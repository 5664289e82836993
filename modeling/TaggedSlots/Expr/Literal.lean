import TaggedSlots.Expr.Basic

/-! # Reading literals

The text of a literal is tried as a long first, then as a double, then as one of
the words `true` and `false`. So a numeral without point and exponent is a long
whenever it is in range, and a double when it is not.
-/
namespace TaggedSlots.Literal

/-- Reads a literal; the answer is `none` if the text is none. -/
def ofText? (t : String) : Option Literal :=
  match Long.ofText t with
  | .ok n => some (.long n)
  | .error _ =>
    match Double.ofText? t with
    | some x => some (.double x)
    | none =>
      if t = "true" then some (.boolean true)
      else if t = "false" then some (.boolean false)
      else none

end TaggedSlots.Literal
