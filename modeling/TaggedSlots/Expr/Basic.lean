import TaggedSlots.Operator

/-! # Expressions

An expression is a tree of literals, reads of slots and arrays, and binary
operators. Each node has a label, which is how a fault refers to it.
-/
namespace TaggedSlots

/-- A constant of a primitive type. -/
structure Literal where
  type : Primitive
  datum : type.Carrier

namespace Literal

/-- The literal of a long. -/
abbrev long (n : Int64) : Literal := ⟨.long, n⟩

/-- The literal of a double. -/
abbrev double (x : Float) : Literal := ⟨.double, x⟩

/-- The literal of a boolean. -/
abbrev boolean (b : Bool) : Literal := ⟨.boolean, b⟩

/-- The value of a literal. -/
def value (c : Literal) : Value := .of c.type c.datum

/-- The label of a literal node. -/
def label (c : Literal) : NodeLabel :=
  match c.type with
  | .long => ⟨"LongLiteral", none⟩
  | .double => ⟨"DoubleLiteral", none⟩
  | .boolean => ⟨"BooleanLiteral", none⟩

end Literal

/-- An expression. -/
inductive Expr where
  /-- A constant. -/
  | literal (c : Literal)
  /-- The value of a slot. -/
  | read (slot : SlotId)
  /-- The length of the array in a slot. -/
  | length (slot : SlotId)
  /-- An element of the array in a slot. -/
  | element (slot : SlotId) (index : Expr)
  /-- An operator applied to two expressions. -/
  | binary (op : Operator) (left right : Expr)

namespace Expr

/-- How the node at the root of an expression is referred to. -/
def label : Expr → NodeLabel
  | .literal c => c.label
  | .read s => ⟨"ReadLocal", some s⟩
  | .length s => ⟨"ArrayLength", some s⟩
  | .element s _ => ⟨"ReadArrayElement", some s⟩
  | .binary .. => ⟨"Binary", none⟩

/-- The slots that an expression reads, from left to right. -/
def slots : Expr → List SlotId
  | .literal _ => []
  | .read s => [s]
  | .length s => [s]
  | .element s i => s :: i.slots
  | .binary _ l r => l.slots ++ r.slots

end Expr

end TaggedSlots
