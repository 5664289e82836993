import TaggedSlots.Fault

/-! # Binary operators

Operators work on two longs, two doubles or two booleans; there is no coercion.

* On **longs** the exact result is computed first. If it is no long, that is an
  overflow; nothing wraps around. Division goes toward zero, and a divisor of
  zero is a cause of its own.
* On **doubles** the operators are those of binary64 arithmetic and always have
  a result.
* **Booleans** can only be tested for equality.
-/
namespace TaggedSlots

/-- A binary operator. -/
inductive Operator where
  | add
  | sub
  | mul
  | div
  | lt
  | eq
deriving DecidableEq

namespace Operator

/-- The name of an operator in messages. -/
def name : Operator → String
  | .add => "addition"
  | .sub => "subtraction"
  | .mul => "multiplication"
  | .div => "division"
  | .lt => "comparison"
  | .eq => "equality"

/-- The result of arithmetic on longs, given its exact value. -/
def fit (op : Operator) (exact : Int) : Except Cause Value :=
  match Long.ofInt? exact with
  | some n => .ok (.long n)
  | none => .error (.arithmeticOverflow op.name)

/-- An operator on two longs. -/
def onLongs (op : Operator) (m n : Int64) : Except Cause Value :=
  match op with
  | .add => op.fit (m.toInt + n.toInt)
  | .sub => op.fit (m.toInt - n.toInt)
  | .mul => op.fit (m.toInt * n.toInt)
  | .div => if n.toInt = 0 then .error .divisionByZero else op.fit (m.toInt.tdiv n.toInt)
  | .lt => .ok (.boolean (m.toInt < n.toInt))
  | .eq => .ok (.boolean (m.toInt = n.toInt))

/-- An operator on two doubles. -/
def onDoubles (op : Operator) (x y : Float) : Value :=
  match op with
  | .add => .double (x + y)
  | .sub => .double (x - y)
  | .mul => .double (x * y)
  | .div => .double (x / y)
  | .lt => .boolean (x < y)
  | .eq => .boolean (x == y)

/-- The cause that an operator has no meaning for two values. -/
def unsupported (op : Operator) (v w : Value) : Cause :=
  .unsupportedOperands op.name v.typeName w.typeName

/-- An operator on two values. -/
def apply (op : Operator) (v w : Value) : Except Cause Value :=
  match v, w with
  | .long m, .long n => op.onLongs m n
  | .double x, .double y => .ok (op.onDoubles x y)
  | .boolean b, .boolean c =>
    if op = .eq then .ok (.boolean (b == c)) else .error (op.unsupported v w)
  | v, w => .error (op.unsupported v w)

end Operator

end TaggedSlots
