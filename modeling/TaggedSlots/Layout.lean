import TaggedSlots.Frame.Basic

/-! # Frame layouts

A layout says which slots a frame has: each with a name and the kind it starts
with. Slots are numbered in the order of their declaration. Names may repeat,
and a name stands for the first slot that has it.
-/
namespace TaggedSlots

/-- The declaration of one slot. -/
structure SlotDeclaration where
  name : String
  kind : Kind
deriving DecidableEq

/-- The slots of a routine's frames, in order. -/
structure Layout where
  slots : List SlotDeclaration
deriving DecidableEq

namespace Layout

/-- The layout without slots. -/
def empty : Layout := ⟨[]⟩

/-- The number of slots. -/
def size (l : Layout) : Nat := l.slots.length

/-- Whether there are no slots. -/
def isEmpty (l : Layout) : Bool := l.slots.isEmpty

/-- Declares one more slot behind the others; it is identified by the number of
slots before it. -/
def declare (l : Layout) (name : String) (kind : Kind) : SlotId × Layout :=
  (⟨l.size⟩, ⟨l.slots ++ [⟨name, kind⟩]⟩)

/-- The first slot of a name. -/
def find? (l : Layout) (name : String) : Option SlotId :=
  (l.slots.findIdx? fun d => d.name == name).map SlotId.mk

/-- The name of a slot. -/
def nameOf? (l : Layout) (s : SlotId) : Option String := l.slots[s.index]?.map (·.name)

/-- A frame with these slots, each of its declared kind and without a value. -/
def newFrame (l : Layout) : Frame := ⟨l.slots.map fun d => ⟨d.kind, none⟩⟩

@[simp] theorem size_newFrame (l : Layout) : l.newFrame.size = l.size := by
  simp [newFrame, Frame.size, size]

theorem slot?_newFrame (l : Layout) (s : SlotId) :
    l.newFrame.slot? s = l.slots[s.index]?.map fun d => ⟨d.kind, none⟩ := by
  simp [newFrame, Frame.slot?]

end Layout

end TaggedSlots
