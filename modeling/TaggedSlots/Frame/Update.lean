import TaggedSlots.Outcome

/-! # Changing a frame

There are two primitive changes: `write` stores a value and leaves the kind
alone, and `setKind` widens the kind and leaves the value alone. A *tagged*
write does both, and first makes sure that the kind can be widened, so it either
does everything or nothing. Storing an element changes an array in place.

A write is reported when it is attempted, also if the slot turns out not to
exist; a change of kind is reported only if the kind is really different.

For each change there is a lemma that says what it leaves at the slot when it is
permitted (`write_of_slot?`, `setKind_of_canWidenTo`, `writeTagged_of_canWidenTo`).
-/
namespace TaggedSlots.Frame

/-- Stores a value in a slot, whatever the slot's kind. -/
def write (f : Frame) (s : SlotId) (v : Value) : Outcome AccessError :=
  Outcome.after (.writing v.typeName s)
    (match f.slot? s with
    | none => .fail (.invalidSlot s) f
    | some e => .done (f.put s { e with value := some v }))

/-- Widens the kind of a slot. -/
def setKind (f : Frame) (s : SlotId) (k : Kind) : Outcome AccessError :=
  match f.slot? s with
  | none => .fail (.invalidSlot s) f
  | some e =>
    if ¬ e.kind.canWidenTo k then .fail (.narrowing s e.kind k) f
    else if e.kind = k then .done f
    else Outcome.after (.widened s e.kind k) (.done (f.put s { e with kind := k }))

/-- Stores a value in a slot and widens the slot to a kind, if the slot's kind
can be widened to it. -/
def writeTagged (f : Frame) (s : SlotId) (v : Value) (k : Kind) : Outcome AccessError :=
  match f.slot? s with
  | none => .fail (.invalidSlot s) f
  | some e =>
    if ¬ e.kind.canWidenTo k then .fail (.narrowing s e.kind k) f
    else (f.write s v).andThen fun g => g.setKind s k

/-- A write to a slot that exists succeeds and changes nothing but its value. -/
theorem write_of_slot? {f : Frame} {s : SlotId} {e : Slot} (h : f.slot? s = some e) (v : Value) :
    f.write s v = ⟨.ok (), f.put s { e with value := some v }, [.writing v.typeName s]⟩ := by
  simp [write, h, Outcome.after, Outcome.done]

/-- A permitted change of kind succeeds and changes nothing but the kind. -/
theorem setKind_of_canWidenTo {f : Frame} {s : SlotId} {e : Slot} (h : f.slot? s = some e)
    {k : Kind} (hk : e.kind.canWidenTo k = true) :
    (f.setKind s k).result = .ok () ∧ (f.setKind s k).frame = f.put s { e with kind := k } := by
  by_cases he : e.kind = k
  · subst he
    simp [setKind, h, Outcome.done, put_of_slot? h]
  · simp [setKind, h, hk, he, Outcome.after, Outcome.done]

/-- A permitted tagged write succeeds and leaves the given kind and value. -/
theorem writeTagged_of_canWidenTo {f : Frame} {s : SlotId} {e : Slot} (h : f.slot? s = some e)
    (v : Value) {k : Kind} (hk : e.kind.canWidenTo k = true) :
    (f.writeTagged s v k).result = .ok () ∧ (f.writeTagged s v k).frame = f.put s ⟨k, some v⟩ := by
  have hput := slot?_put_self h { e with value := some v }
  have hset := setKind_of_canWidenTo hput hk
  simp [writeTagged, h, hk, write_of_slot? h, Outcome.andThen, hset]

/-- Stores a datum of a primitive type in a slot of that type. -/
def writeAs (p : Primitive) (f : Frame) (s : SlotId) (x : p.Carrier) : Outcome AccessError :=
  f.writeTagged s (.of p x) (.primitive p)

/-- Stores a value in a slot and makes the slot generic. -/
def writeObject (f : Frame) (s : SlotId) (v : Value) : Outcome AccessError :=
  f.writeTagged s v .object

/-- Puts an array in the place of a slot's value and keeps the slot's kind. -/
def replaceArray (f : Frame) (s : SlotId) (a : LongArray) : Frame :=
  match f.slot? s with
  | none => f
  | some e => f.put s { e with value := some (.array a) }

/-- Stores a long at a position of the array in a slot. The answer is `none` if
the position is out of bounds. -/
def storeElement? (f : Frame) (s : SlotId) (i : Nat) (n : Int64) :
    Except AccessError (Option Frame) :=
  match f.array s with
  | .error e => .error e
  | .ok a => .ok ((a.set? i n).map (f.replaceArray s))

end TaggedSlots.Frame
