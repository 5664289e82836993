import TaggedSlots.Fault

/-! # Frames

A frame holds the local variables of one invocation: a row of slots whose number
never changes. This module has the frame itself and everything that reads it.

The view to reason with is `slot?`, the slot at a position if there is one;
`put` replaces a slot, and `ext_slot?` says that the view determines the frame.

Reading a slot *as* a primitive type (`readAs`) looks at its kind first and then
at its value. The two may disagree, as nothing forces a raw write to keep them
in step; `isConsistent` tells whether they do.
-/
namespace TaggedSlots

/-- The local variables of one invocation. -/
structure Frame where
  slots : List Slot
deriving DecidableEq

namespace Frame

/-! ## The view -/

/-- The number of slots. -/
def size (f : Frame) : Nat := f.slots.length

/-- Whether there are no slots. -/
def isEmpty (f : Frame) : Bool := f.slots.isEmpty

/-- The slot at a position, if the frame has it. -/
def slot? (f : Frame) (s : SlotId) : Option Slot := f.slots[s.index]?

/-- Replaces the slot at a position; without effect if the frame lacks it. -/
def put (f : Frame) (s : SlotId) (e : Slot) : Frame := ⟨f.slots.set s.index e⟩

@[simp] theorem size_put (f : Frame) (s : SlotId) (e : Slot) : (f.put s e).size = f.size := by
  simp [put, size]

theorem slot?_put_self {f : Frame} {s : SlotId} {old : Slot} (h : f.slot? s = some old)
    (e : Slot) : (f.put s e).slot? s = some e := by
  obtain ⟨hs, _⟩ := List.getElem?_eq_some_iff.1 h
  simp [put, slot?, hs]

theorem slot?_put_ne {f : Frame} {s t : SlotId} (h : t ≠ s) (e : Slot) :
    (f.put s e).slot? t = f.slot? t := by
  have hi : s.index ≠ t.index := fun hi => h (by cases s; cases t; simp_all)
  simp [put, slot?, List.getElem?_set_ne hi]

/-- Writing a slot back changes nothing. -/
theorem put_of_slot? {f : Frame} {s : SlotId} {e : Slot} (h : f.slot? s = some e) :
    f.put s e = f := by
  obtain ⟨hs, he⟩ := List.getElem?_eq_some_iff.1 h
  subst he
  simp [put]

@[simp] theorem put_put (f : Frame) (s : SlotId) (d e : Slot) :
    (f.put s d).put s e = f.put s e := by
  simp [put]

/-- A slot exists exactly below the size of the frame. -/
theorem slot?_eq_none_iff {f : Frame} {s : SlotId} : f.slot? s = none ↔ f.size ≤ s.index := by
  simp [slot?, size]

theorem exists_slot?_iff {f : Frame} {s : SlotId} :
    (∃ e, f.slot? s = some e) ↔ s.index < f.size := by
  rw [← Option.ne_none_iff_exists', ne_eq, slot?_eq_none_iff, Nat.not_le]

/-- A slot that does not exist cannot be replaced. -/
theorem put_of_none {f : Frame} {s : SlotId} (h : f.slot? s = none) (e : Slot) :
    f.put s e = f := by
  have hs : f.slots.length ≤ s.index := slot?_eq_none_iff.mp h
  rw [put, List.set_eq_of_length_le hs]

/-- What stands in a frame after a replacement is the new slot, or stood there
before. -/
theorem slot?_of_put {f : Frame} {s t : SlotId} {d e : Slot} (h : (f.put s d).slot? t = some e) :
    (t = s ∧ e = d) ∨ f.slot? t = some e := by
  by_cases hts : t = s
  · subst hts
    cases hs : f.slot? t with
    | none =>
      have hsize := slot?_eq_none_iff.mp hs
      rw [slot?_eq_none_iff.mpr (by rw [size_put]; exact hsize)] at h
      cases h
    | some old =>
      rw [slot?_put_self hs d] at h
      exact .inl ⟨rfl, (Option.some.inj h).symm⟩
  · rw [slot?_put_ne hts] at h
    exact .inr h

/-- Frames with the same slots are the same. -/
theorem ext_slot? {f g : Frame} (h : ∀ s, f.slot? s = g.slot? s) : f = g := by
  cases f with
  | mk xs =>
    cases g with
    | mk ys =>
      congr 1
      exact List.ext_getElem? fun i => h ⟨i⟩

/-! ## Reading -/

/-- The kind of a slot. -/
def kind (f : Frame) (s : SlotId) : Except AccessError Kind :=
  match f.slot? s with
  | none => .error (.invalidSlot s)
  | some e => .ok e.kind

/-- Whether the kind of a slot admits the value it holds. -/
def isConsistent (f : Frame) (s : SlotId) : Except AccessError Bool :=
  match f.slot? s with
  | none => .error (.invalidSlot s)
  | some e => .ok e.isConsistent

/-- The value of a slot, whatever its kind. -/
def read (f : Frame) (s : SlotId) : Except AccessError Value :=
  match f.slot? s with
  | none => .error (.invalidSlot s)
  | some e =>
    match e.value with
    | none => .error (.uninitialized s)
    | some v => .ok v

/-- The datum in a slot of a primitive kind. The slot must have exactly that
kind, and its value must be of that type. -/
def readAs (p : Primitive) (f : Frame) (s : SlotId) : Except AccessError p.Carrier :=
  match f.slot? s with
  | none => .error (.invalidSlot s)
  | some e =>
    if e.kind ≠ .primitive p then .error (.kindMismatch s (.primitive p) e.kind)
    else match e.value with
      | none => .error (.uninitialized s)
      | some v =>
        match v.as? p with
        | none => .error (.kindMismatch s (.primitive p) v.kind)
        | some x => .ok x

/-- The array in a slot, whatever the slot's kind. -/
def array (f : Frame) (s : SlotId) : Except AccessError LongArray :=
  match f.read s with
  | .error e => .error e
  | .ok v =>
    match v.array? with
    | none => .error (.notAnArray s v.typeName)
    | some a => .ok a

/-- A value is read exactly where a slot holds it. -/
theorem read_eq_ok_iff {f : Frame} {s : SlotId} {v : Value} :
    f.read s = .ok v ↔ ∃ e, f.slot? s = some e ∧ e.value = some v := by
  cases hs : f.slot? s with
  | none => simp [read, hs]
  | some e => cases hv : e.value <;> simp [read, hs, hv]

theorem read_put_ne {f : Frame} {s t : SlotId} (h : t ≠ s) (e : Slot) :
    (f.put s e).read t = f.read t := by
  simp only [read, slot?_put_ne h]

/-- An array is found exactly where a slot holds one. -/
theorem array_eq_ok_iff {f : Frame} {s : SlotId} {a : LongArray} :
    f.array s = .ok a ↔ ∃ e, f.slot? s = some e ∧ e.value = some (.array a) := by
  cases hs : f.slot? s with
  | none => simp [array, read, hs]
  | some e =>
    cases hv : e.value with
    | none => simp [array, read, hs, hv]
    | some v => cases v <;> simp [array, read, hs, hv, Value.array?]

end Frame

end TaggedSlots
