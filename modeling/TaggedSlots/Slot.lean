import TaggedSlots.Kind

/-! # Slots and their identifiers

A frame is a row of slots. A `SlotId` is a position in that row and may lie
outside of it; a `Slot` is what stands there, a kind and possibly a value.
-/
namespace TaggedSlots

/-- Identifies a slot of a frame by its position. -/
structure SlotId where
  index : Nat
deriving DecidableEq

/-- The text of a slot identifier: its position behind a number sign. -/
def SlotId.text (s : SlotId) : String := "#" ++ Decimal.natText s.index

/-- A slot: its kind, and its value once one has been stored. -/
structure Slot where
  kind : Kind
  value : Option Value
deriving DecidableEq

/-- A slot is consistent when its kind admits the value it holds: the slot is
generic, or of exactly the value's own kind. An empty slot is consistent. -/
def Slot.isConsistent (e : Slot) : Bool :=
  match e.value with
  | none => true
  | some v => e.kind == .object || e.kind == v.kind

end TaggedSlots
