import TaggedSlots.Slot

/-! # What can go wrong

There are three layers of failure.

* A `AccessError` says why a slot could not be read, written or retagged.
* A `Mismatch` says that a typed evaluation yielded a value of another type. It
  carries that value, because whoever asked may still have a use for it.
* A `Fault` stops the program: a `Cause` together with the node that raised it.

A typed evaluation ends in an `EvalError`, which is a mismatch or a fault. A
node that has no use for the mismatched value turns the mismatch into a fault of
its own (`EvalError.toFault`); a fault always stays with the node that raised
it.

Every failure has a wording (`message`), and equality of failures compares the
values they carry as programs compare values.
-/
namespace TaggedSlots

/-! ## Frame errors -/

/-- Why an access to a slot was refused. -/
inductive AccessError where
  /-- The frame has no such slot. -/
  | invalidSlot (slot : SlotId)
  /-- Nothing has been stored in the slot. -/
  | uninitialized (slot : SlotId)
  /-- A read as `expected` met a slot, or a value, of kind `found`. -/
  | kindMismatch (slot : SlotId) (expected found : Kind)
  /-- The slot's kind cannot be widened as asked. -/
  | narrowing (slot : SlotId) (source target : Kind)
  /-- The slot holds a value of type `found`, which is no array. -/
  | notAnArray (slot : SlotId) (found : String)
deriving DecidableEq

/-- The wording of a `AccessError`. -/
def AccessError.message : AccessError → String
  | .invalidSlot s => "slot " ++ s.text ++ " out of bounds"
  | .uninitialized s => "slot " ++ s.text ++ " read before initialization"
  | .kindMismatch s expected found =>
    "slot " ++ s.text ++ " of kind " ++ found.name ++ " cannot be read as " ++ expected.name
  | .narrowing s source target =>
    "slot " ++ s.text ++ " cannot narrow from " ++ source.name ++ " to " ++ target.name
  | .notAnArray s found => "slot " ++ s.text ++ " holds " ++ found ++ ", not an array"

/-! ## Mismatches -/

/-- A value that is not of the primitive type it was asked for. -/
structure Mismatch where
  expected : Primitive
  value : Value
deriving BEq, DecidableEq

/-- The wording of a `Mismatch`. -/
def Mismatch.message (m : Mismatch) : String :=
  "expected " ++ m.expected.name ++ " result, got " ++ m.value.typeName

/-! ## Causes -/

/-- Why a node could not complete. -/
inductive Cause where
  /-- A child yielded a value of the wrong type. -/
  | mismatch (m : Mismatch)
  /-- A slot refused an access. -/
  | access (e : AccessError)
  /-- An array was asked for with a negative size. -/
  | negativeArraySize (size : Int64)
  /-- An array was asked for with a size above the largest length. -/
  | arraySizeTooLarge (size : Int64) (max : Nat)
  /-- The memory for an array could not be provided. -/
  | allocationFailed (length : Nat)
  /-- An array was accessed outside of its bounds. -/
  | indexOutOfBounds (index : Int64) (length : Nat)
  /-- The exact result of an operation on longs is no long. -/
  | arithmeticOverflow (op : String)
  /-- A long was divided by zero. -/
  | divisionByZero
  /-- An operator is not defined for operands of these types. -/
  | unsupportedOperands (op left right : String)
deriving BEq, DecidableEq

/-- The wording of a `Cause`. -/
def Cause.message : Cause → String
  | .mismatch m => m.message
  | .access e => e.message
  | .negativeArraySize size => "negative array size " ++ Long.text size
  | .arraySizeTooLarge size max =>
    "array size " ++ Long.text size ++ " exceeds the maximum length " ++ Decimal.natText max
  | .allocationFailed length => "failed to allocate array of length " ++ Decimal.natText length
  | .indexOutOfBounds index length =>
    "index " ++ Long.text index ++ " out of bounds for length " ++ Decimal.natText length
  | .arithmeticOverflow op => "integer overflow in " ++ op
  | .divisionByZero => "division by zero"
  | .unsupportedOperands op left right =>
    "unsupported operands for " ++ op ++ ": " ++ left ++ " and " ++ right

/-! ## Faults -/

/-- How a node of a program is referred to: by what it does and, if it works on
one slot, by that slot. -/
structure NodeLabel where
  name : String
  slot : Option SlotId
deriving DecidableEq

/-- The text of a node label: the name, followed by the slot in parentheses. -/
def NodeLabel.text (l : NodeLabel) : String :=
  match l.slot with
  | none => l.name
  | some s => l.name ++ "(" ++ s.text ++ ")"

/-- A failure that stops the program, with the node that raised it. -/
structure Fault where
  node : NodeLabel
  cause : Cause
deriving BEq, DecidableEq

/-- The wording of a `Fault`: the node, then the cause. -/
def Fault.message (r : Fault) : String := r.node.text ++ ": " ++ r.cause.message

/-! ## Failures of a typed evaluation -/

/-- How a typed evaluation fails. -/
inductive EvalError where
  /-- The expression has a value, but not of the type asked for. -/
  | mismatch (m : Mismatch)
  /-- The expression has no value. -/
  | fault (r : Fault)
deriving DecidableEq

namespace EvalError

/-- The wording of an `EvalError`. -/
def message : EvalError → String
  | .mismatch m => m.message
  | .fault r => r.message

/-- The fault that a node raises when it cannot use what a child yielded. A
mismatch becomes its own fault; a fault of the child is passed on. -/
def toFault (node : NodeLabel) : EvalError → Fault
  | .mismatch m => ⟨node, .mismatch m⟩
  | .fault r => r

/-- The value carried by a mismatch. -/
def carried? : EvalError → Option Value
  | .mismatch m => some m.value
  | .fault _ => none

end EvalError

/-- The datum of a value of the given primitive type; a value of another type is
a mismatch. -/
def Value.expect (p : Primitive) (v : Value) : Except EvalError p.Carrier :=
  match v.as? p with
  | some x => .ok x
  | none => .error (.mismatch ⟨p, v⟩)

end TaggedSlots
