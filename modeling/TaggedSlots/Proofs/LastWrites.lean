import TaggedSlots.Proofs.Atomicity
import TaggedSlots.Proofs.Widening

/-! # A frame stores the last writes

Seen from the outside a frame is a store: whatever its updates were, reading a slot gives
the value of the last write that was accepted for it, with the elements replaced that were
stored in it since (`frame_stores_last_writes`). It does not matter in which form the value
was written, how the kind of the slot was changed in between, whether kind and value were
brought apart and together again, or what was refused.

The store is described by the history of the frame alone. `Operation.accepted` lists the
updates that were accepted, and `Operation.lastStored` finds the value in this list, from
its end. The frame computes the same value from the beginning: each update replaces the
value or an element of it (`Operation.value?_after_update`). That the two ways agree is a
fact about lists (`Operation.storedFrom_eq`).
-/
namespace TaggedSlots

/-! ## Histories as stores -/

/-- A value with one element replaced, if it is an array that has such a position. -/
def Value.withElement (v : Value) (i : Nat) (n : Int64) : Value :=
  match v with
  | .array a => .array ((a.set? i n).getD a)
  | v => v

/-- A value with elements replaced, from the first to the last. -/
def Value.withElements (v : Value) (stores : List (Nat × Int64)) : Value :=
  stores.foldl (fun w store => w.withElement store.1 store.2) v

namespace Operation

/-- The value that an update writes to a slot, in whatever form. -/
def written? (s : SlotId) : Operation → Option Value
  | .write t v | .writeObject t v => if t = s then some v else none
  | .writeAs p t x => if t = s then some (.of p x) else none
  | .exec _ | .setKind .. | .storeElement .. => none

/-- The position and the element that an update stores in the array of a slot. -/
def element? (s : SlotId) : Operation → Option (Nat × Int64)
  | .storeElement t i n => if t = s then some (i, n) else none
  | _ => none

/-- What an update asks of a frame. A raw or generic write asks for the slot, a typed write
for a slot that is of its type or not specialised, a change of kind for a kind that can be
widened, and the store of an element for an array with such a position. Executing a
statement is no update, and asks for nothing. -/
def Permitted (f : Frame) : Operation → Prop
  | .write s _ | .writeObject s _ => s.index < f.size
  | .writeAs p s _ =>
    s.index < f.size ∧ (f.kind s = .ok .illegal ∨ f.kind s = .ok (.primitive p))
  | .setKind s k => s.index < f.size ∧ ∃ j, f.kind s = .ok j ∧ j.canWidenTo k = true
  | .storeElement s i _ => ∃ a, f.array s = .ok a ∧ i < a.length
  | .exec _ => True

/-- The operations of a history that were accepted, in order. -/
def accepted (mem : Allocator) (f : Frame) : List Operation → List Operation
  | [] => []
  | op :: ops =>
    match (op.perform mem f).result with
    | .ok () => op :: accepted mem (op.perform mem f).frame ops
    | .error _ => accepted mem (op.perform mem f).frame ops

/-- The value that was written last to a slot, with the elements replaced that were stored
in it afterwards; `none` if nothing was written. -/
def lastStored (s : SlotId) : List Operation → Option Value
  | [] => none
  | op :: ops =>
    match lastStored s ops with
    | some v => some v
    | none => (op.written? s).map fun v => v.withElements (ops.filterMap (element? s))

/-! ## From the first update to the last -/

/-- The value of a slot after an accepted update, given the value before. -/
def storedBy (s : SlotId) (op : Operation) (v : Option Value) : Option Value :=
  match op.written? s with
  | some w => some w
  | none => v.map fun w => w.withElements (op.element? s).toList

/-- The value of a slot after accepted updates, given the value before them. -/
def storedFrom (s : SlotId) (v : Option Value) (ops : List Operation) : Option Value :=
  ops.foldl (fun w op => op.storedBy s w) v

/-- **The last write decides.** Following the updates from the first to the last leads to
the value that is found from the end; without a write, the value of before is left, with
elements replaced. -/
theorem storedFrom_eq (s : SlotId) (ops : List Operation) (v : Option Value) :
    storedFrom s v ops =
      match lastStored s ops with
      | some w => some w
      | none => v.map fun w => w.withElements (ops.filterMap (element? s)) := by
  induction ops generalizing v with
  | nil => cases v <;> rfl
  | cons op ops ih =>
    have hstep : storedFrom s v (op :: ops) = storedFrom s (op.storedBy s v) ops := rfl
    rw [hstep, ih, lastStored]
    cases hlast : lastStored s ops with
    | some w => rfl
    | none =>
      cases hw : op.written? s with
      | some w => simp [storedBy, hw]
      | none =>
        -- The update stores an element or nothing, and the stores behind it come after it.
        cases v with
        | none => simp [storedBy, hw]
        | some w => cases he : op.element? s <;> simp [storedBy, hw, he, Value.withElements]

theorem storedFrom_none (s : SlotId) (ops : List Operation) :
    storedFrom s none ops = lastStored s ops := by
  rw [storedFrom_eq]
  cases lastStored s ops <;> rfl

end Operation

/-! ## Frames -/

namespace Frame
variable {f : Frame} {s : SlotId}

/-- The value in a slot, if there is one. -/
def value? (f : Frame) (s : SlotId) : Option Value := (f.slot? s).bind Slot.value

theorem value?_of_slot? {e : Slot} (h : f.slot? s = some e) : f.value? s = e.value := by
  rw [value?, h, Option.bind_some]

theorem lt_of_kind {k : Kind} (h : f.kind s = .ok k) : s.index < f.size := by
  obtain ⟨e, he, -⟩ := Option.map_eq_some_iff.mp (kind_eq_ok_iff.mp h)
  exact exists_slot?_iff.mp ⟨e, he⟩

/-- A raw write is accepted by every slot. -/
theorem write_ok_iff {v : Value} : (f.write s v).result = .ok () ↔ s.index < f.size := by
  rw [← exists_slot?_iff]
  cases hs : f.slot? s with
  | none => simp [write, hs, Outcome.after, Outcome.fail]
  | some e => simp [write_of_slot? hs]

/-- A change of kind is accepted exactly when it widens. -/
theorem setKind_ok_iff {k : Kind} :
    (f.setKind s k).result = .ok () ↔ ∃ j, f.kind s = .ok j ∧ j.canWidenTo k = true := by
  cases hs : f.slot? s with
  | none => simp [setKind, kind, hs, Outcome.fail]
  | some e =>
    by_cases hk : e.kind.canWidenTo k = true
    · simp [kind, hs, hk, (setKind_of_canWidenTo hs hk).1]
    · simp [setKind, kind, hs, hk, Outcome.fail]

/-- A tagged write is accepted exactly when the change of kind is. -/
theorem writeTagged_ok_iff {v : Value} {k : Kind} :
    (f.writeTagged s v k).result = .ok () ↔ ∃ j, f.kind s = .ok j ∧ j.canWidenTo k = true := by
  cases hs : f.slot? s with
  | none => simp [writeTagged, kind, hs, Outcome.fail]
  | some e =>
    by_cases hk : e.kind.canWidenTo k = true
    · simp [kind, hs, hk, (writeTagged_of_canWidenTo hs v hk).1]
    · simp [writeTagged, kind, hs, hk, Outcome.fail]

/-- A slot of the frame is read as the value it holds. -/
theorem read_eq_value? (h : s.index < f.size) :
    f.read s =
      match f.value? s with
      | some v => .ok v
      | none => .error (.uninitialized s) := by
  obtain ⟨⟨k, v⟩, he⟩ := exists_slot?_iff.mpr h
  rw [read, he, value?_of_slot? he]
  cases v <;> rfl

theorem array_eq_ok_iff_value? {a : LongArray} :
    f.array s = .ok a ↔ f.value? s = some (.array a) := by
  rw [array_eq_ok_iff, value?, Option.bind_eq_some_iff]

/-- A typed read looks at the kind of the slot, and then at its value. -/
theorem readAs_iff (h : s.index < f.size) (p : Primitive) :
    (∀ x, f.readAs p s = .ok x ↔ f.kind s = .ok (.primitive p) ∧ f.value? s = some (.of p x)) ∧
    (f.readAs p s = .error (.uninitialized s) ↔
      f.kind s = .ok (.primitive p) ∧ f.value? s = none) ∧
    ((∃ found, f.readAs p s = .error (.kindMismatch s (.primitive p) found)) ↔
      ¬ (f.kind s = .ok (.primitive p) ∧
        (f.value? s = none ∨ ∃ x, f.value? s = some (.of p x)))) := by
  obtain ⟨⟨k, v⟩, he⟩ := exists_slot?_iff.mpr h
  have hkind : f.kind s = .ok k := by rw [kind, he]
  rw [value?_of_slot? he, hkind, readAs, he]
  by_cases hk : k = .primitive p
  · subst hk
    cases v with
    | none => simp
    | some v =>
      cases hx : v.as? p with
      | some x =>
        obtain rfl := Value.as?_eq_some_iff.mp hx
        simp [Value.of_inj]
      | none =>
        have hne : ∀ x, v ≠ .of p x := fun x hv => by
          rw [hv, Value.as?_of] at hx
          cases hx
        simp [hx, hne]
  · simp [hk]

end Frame

/-- A fresh frame holds no values. -/
theorem Layout.value?_newFrame (l : Layout) (s : SlotId) : l.newFrame.value? s = none := by
  rw [Frame.value?, slot?_newFrame]
  cases l.slots[s.index]? <;> rfl

namespace Operation

/-! ## One update -/

section Update
variable {mem : Allocator} {f : Frame} {op : Operation} {s t : SlotId}

theorem ofUpdate_ok_iff {o : Outcome AccessError} :
    (ofUpdate o).result = .ok () ↔ o.result = .ok () := by
  obtain ⟨r, g, log⟩ := o
  cases r with
  | ok u => exact ⟨fun _ => rfl, fun _ => rfl⟩
  | error e =>
    constructor
    · intro h
      cases h
    · intro h
      cases h

/-- **Acceptance.** An update is accepted exactly when the frame has what it asks for. -/
theorem perform_ok_iff (hop : ∀ c, op ≠ .exec c) :
    (op.perform mem f).result = .ok () ↔ op.Permitted f := by
  cases op with
  | exec c => exact absurd rfl (hop c)
  | write u v => exact ofUpdate_ok_iff.trans Frame.write_ok_iff
  | setKind u k =>
    refine (ofUpdate_ok_iff.trans Frame.setKind_ok_iff).trans ⟨fun h => ?_, fun h => h.2⟩
    obtain ⟨j, hj, hwide⟩ := h
    exact ⟨Frame.lt_of_kind hj, j, hj, hwide⟩
  | writeAs p u x =>
    refine (ofUpdate_ok_iff.trans Frame.writeTagged_ok_iff).trans ⟨?_, ?_⟩
    · rintro ⟨j, hj, hwide⟩
      refine ⟨Frame.lt_of_kind hj, ?_⟩
      -- Only the kind itself and an undecided one widen to a primitive kind.
      simp only [Kind.canWidenTo, Bool.or_eq_true, beq_iff_eq, reduceCtorEq, or_false] at hwide
      rcases hwide with rfl | rfl
      · exact .inr hj
      · exact .inl hj
    · rintro ⟨-, hk | hk⟩
      · exact ⟨_, hk, Kind.illegal_canWidenTo _⟩
      · exact ⟨_, hk, Kind.canWidenTo_refl _⟩
  | writeObject u v =>
    refine (ofUpdate_ok_iff.trans Frame.writeTagged_ok_iff).trans ⟨?_, fun h => ?_⟩
    · rintro ⟨j, hj, -⟩
      exact Frame.lt_of_kind hj
    · obtain ⟨e, he⟩ := Frame.exists_slot?_iff.mpr h
      exact ⟨e.kind, by rw [Frame.kind, he], Kind.canWidenTo_object _⟩
  | storeElement u i n =>
    rw [perform, Frame.storeElement?, Permitted]
    cases ha : f.array u with
    | error err => simp [Outcome.fail]
    | ok a =>
      cases hb : a.set? i n with
      | none =>
        have hlen := LongArray.set?_eq_none_iff.mp hb
        simpa [hb, Outcome.fail] using hlen
      | some b =>
        have hlen : ¬ a.length ≤ i := fun h => by
          rw [LongArray.set?_eq_none_iff.mpr h] at hb
          cases hb
        simpa [hb, Outcome.done] using hlen

/-- An update of another slot writes nothing to a slot and stores no element in it. -/
theorem storedBy_of_ne (hop : op.target? = some t) (hts : t ≠ s) (v : Option Value) :
    op.storedBy s v = v := by
  have hid : (v.map fun w => w.withElements []) = v := by cases v <;> rfl
  cases op with
  | exec c => cases hop
  | setKind u k => exact hid
  | write u _ | writeAs _ u _ | writeObject u _ | storeElement u _ _ =>
    obtain rfl : u = t := Option.some.inj hop
    simpa [storedBy, written?, element?, hts] using hid

/-- The value that an update leaves in its slot is the one it writes, or the one of before
with an element replaced. -/
theorem Replaces.value_eq {old new : Slot} (h : Replaces old op new) (hop : op.target? = some s) :
    new.value = op.storedBy s old.value := by
  cases h with
  | @write u _ | @writeAs _ u _ _ | @writeObject u _ =>
    obtain rfl : u = s := Option.some.inj hop
    simp [storedBy, written?]
  | setKind widens =>
    cases hv : old.value <;> simp [storedBy, written?, element?, Value.withElements]
  | @storeElement u i n a b held replaced =>
    obtain rfl : u = s := Option.some.inj hop
    simp [storedBy, written?, element?, held, Value.withElements, Value.withElement, replaced]

/-- **One update.** An accepted update does to the value of every slot what its form says. -/
theorem value?_after_update (hop : op.target? = some t)
    (hok : (op.perform mem f).result = .ok ()) :
    (op.perform mem f).frame.value? s = op.storedBy s (f.value? s) := by
  rcases op.perform_cases mem f hop with ⟨r, hrefused, -⟩ | ⟨old, new, hold, hrep, -, hframe⟩
  · rw [hrefused] at hok
    cases hok
  · by_cases hts : t = s
    · subst hts
      rw [hframe, Frame.value?_of_slot? (Frame.slot?_put_self hold new),
        Frame.value?_of_slot? hold, hrep.value_eq hop]
    · rw [hframe, Frame.value?, Frame.slot?_put_ne (Ne.symm hts), storedBy_of_ne hop hts]
      rfl

end Update

/-! ## All updates -/

/-- **A history.** The value of every slot is what the accepted updates have made of the
value it had before. -/
theorem value?_after_history (mem : Allocator) {ops : List Operation}
    (hops : ∀ op ∈ ops, ∀ c, op ≠ .exec c) (f : Frame) (s : SlotId) :
    (performAll mem f ops).1.value? s = storedFrom s (f.value? s) (accepted mem f ops) := by
  induction ops generalizing f with
  | nil => rfl
  | cons op ops ih =>
    have hrest := ih (fun op' hop' => hops op' (List.mem_cons_of_mem op hop'))
      (op.perform mem f).frame
    obtain ⟨t, ht⟩ := exists_target_of_ne_exec (hops op List.mem_cons_self)
    rw [performAll, accepted, hrest]
    cases hr : (op.perform mem f).result with
    | ok u =>
      rw [value?_after_update ht hr]
      rfl
    | error r => rw [frame_of_refusal ht hr]

end Operation

/-- **A frame stores the last writes.** A fresh frame has been through any updates. It still
has the slots of its layout, and it accepts an update next exactly when it has what the
update asks for. Every slot is read as the value that was written last to it in an accepted
write, with the elements replaced that were stored since, and as uninitialized if there was
no such write. It is an array exactly when that value is one. Read as a primitive type, the
slot must have that kind: then the answer is the datum of the value, or that there is none;
every other read is refused because of a kind. -/
theorem frame_stores_last_writes (mem : Allocator) (l : Layout) {ops : List Operation}
    (hops : ∀ op ∈ ops, ∀ c, op ≠ .exec c) :
    let f := (Operation.performAll mem l.newFrame ops).1
    let kept := Operation.accepted mem l.newFrame ops
    f.size = l.size ∧
    (∀ op : Operation, (∀ c, op ≠ .exec c) →
      ((op.perform mem f).result = .ok () ↔ op.Permitted f)) ∧
    ∀ s, s.index < l.size →
      let stored := Operation.lastStored s kept
      (f.read s =
        match stored with
        | some v => .ok v
        | none => .error (.uninitialized s)) ∧
      (∀ a, f.array s = .ok a ↔ stored = some (.array a)) ∧
      ∀ p,
        (∀ x, f.readAs p s = .ok x ↔ f.kind s = .ok (.primitive p) ∧ stored = some (.of p x)) ∧
        (f.readAs p s = .error (.uninitialized s) ↔
          f.kind s = .ok (.primitive p) ∧ stored = none) ∧
        ((∃ found, f.readAs p s = .error (.kindMismatch s (.primitive p) found)) ↔
          ¬ (f.kind s = .ok (.primitive p) ∧
            (stored = none ∨ ∃ x, stored = some (.of p x)))) := by
  intro f kept
  have hsize : f.size = l.size :=
    (Operation.path_visitedAll mem l.newFrame ops).evolves.size_eq.trans l.size_newFrame
  refine ⟨hsize, fun op hop => Operation.perform_ok_iff hop, ?_⟩
  intro s hs stored
  have hvalue : f.value? s = stored := by
    have hhistory := Operation.value?_after_history mem hops l.newFrame s
    rw [l.value?_newFrame, Operation.storedFrom_none] at hhistory
    exact hhistory
  have hlt : s.index < f.size := hsize ▸ hs
  rw [← hvalue]
  exact ⟨Frame.read_eq_value? hlt, fun a => Frame.array_eq_ok_iff_value?,
    fun p => Frame.readAs_iff hlt p⟩

/-- A slot for longs receives a long, and by a raw write an array; one element is stored in
it. A boolean, another kind and an element behind the end are refused. The slot is read as
the array with the new element, and not as a long, although it is of that kind; its
neighbour has never been written. -/
theorem last_writes_of_torn_slot :
    let a : SlotId := ⟨0⟩
    let b : SlotId := ⟨1⟩
    let l : Layout := ⟨[⟨"a", .primitive .long⟩, ⟨"b", .illegal⟩]⟩
    let ops : List Operation := [.writeAs .long a 5, .writeAs .boolean a true,
      .write a (.array ⟨#[1, 2]⟩), .storeElement a 1 9, .setKind a (.primitive .double),
      .storeElement a 2 7]
    let f := (Operation.performAll .unlimited l.newFrame ops).1
    let kept := Operation.accepted .unlimited l.newFrame ops
    let boolean := Operation.writeAs .boolean a true
    ((∀ op ∈ ops, ∀ c, op ≠ .exec c) ∧ kept.length = 3 ∧
        Operation.lastStored a kept = some (.array ⟨#[1, 9]⟩) ∧
        Operation.lastStored b kept = none) ∧
      f.read a = .ok (.array ⟨#[1, 9]⟩) ∧ f.array a = .ok ⟨#[1, 9]⟩ ∧
      f.kind a = .ok (.primitive .long) ∧
      (∃ found, f.readAs .long a = .error (.kindMismatch a (.primitive .long) found)) ∧
      f.read b = .error (.uninitialized b) ∧
      (boolean.perform .unlimited f).result ≠ .ok () := by
  intro a b l ops f kept boolean
  have hops : ∀ op ∈ ops, ∀ c, op ≠ .exec c := by simp [ops]
  have ha : Operation.lastStored a kept = some (.array ⟨#[1, 9]⟩) := by decide +kernel
  have hb : Operation.lastStored b kept = none := by decide +kernel
  have hkind : f.kind a = .ok (.primitive .long) :=
    Frame.kind_eq_ok_iff.mpr (by decide +kernel)
  obtain ⟨-, haccept, hread⟩ := frame_stores_last_writes .unlimited l hops
  obtain ⟨hra, haa, htyped⟩ := hread a (by decide)
  obtain ⟨hrb, -, -⟩ := hread b (by decide)
  refine ⟨⟨hops, by decide +kernel, ha, hb⟩, ?_, (haa _).mpr ha, hkind, ?_, ?_, fun hok => ?_⟩
  · rw [hra, ha]
  · refine (htyped .long).2.2.mpr ?_
    rintro ⟨-, hnone | ⟨x, hx⟩⟩
    · rw [ha] at hnone
      cases hnone
    · rw [ha] at hx
      cases hx
  · rw [hrb, hb]
  · obtain ⟨-, hillegal | hboolean⟩ := (haccept boolean nofun).mp hok
    · rw [hkind] at hillegal
      cases hillegal
    · rw [hkind] at hboolean
      cases hboolean

end TaggedSlots
