import TaggedSlots.Operation
import TaggedSlots.Proofs.Steps

/-! # What a history of operations does

The updates of a frame follow the same pattern as single statements: an update is
refused and leaves the frame as it was, or it is carried out and replaces the
content of one slot, in one of the ways of `Operation.Replaces`
(`Operation.perform_cases`). So a fact about every change of a frame is a fact
about `Stmt.Replaces` and `Operation.Replaces`.

A history is a list of operations, each performed whatever became of the others.
What every operation respects, every history respects
(`Operation.performAll_related`).
-/
namespace TaggedSlots.Operation

/-! ## Single updates -/

/-- The slot that an update of a frame is about; executing a statement is no
update. -/
def target? : Operation → Option SlotId
  | .exec _ => none
  | .write s _ | .setKind s _ | .writeAs _ s _ | .writeObject s _ | .storeElement s _ _ => some s

/-- How an update that is carried out replaces the content of its slot, where the
slot held `old` before. -/
inductive Replaces (old : Slot) : Operation → Slot → Prop where
  /-- A raw write keeps the kind, whether or not it fits the value. -/
  | write {s : SlotId} {v : Value} : Replaces old (.write s v) ⟨old.kind, some v⟩
  /-- The kind is widened, and the value is kept. -/
  | setKind {s : SlotId} {k : Kind} (widens : old.kind.canWidenTo k = true) :
    Replaces old (.setKind s k) ⟨k, old.value⟩
  /-- A typed write needs a slot that is of its type or not specialised. -/
  | writeAs {p : Primitive} {s : SlotId} {x : p.Carrier}
    (widens : old.kind.canWidenTo (.primitive p) = true) :
    Replaces old (.writeAs p s x) ⟨.primitive p, some (.of p x)⟩
  /-- A generic write is always permitted. -/
  | writeObject {s : SlotId} {v : Value} : Replaces old (.writeObject s v) ⟨.object, some v⟩
  /-- One element of the array is replaced, and the kind of the slot is kept. -/
  | storeElement {s : SlotId} {i : Nat} {n : Int64} {a b : LongArray}
    (held : old.value = some (.array a)) (replaced : a.set? i n = some b) :
    Replaces old (.storeElement s i n) ⟨old.kind, some (.array b)⟩

section Updates
variable {f : Frame} {s : SlotId} {old : Slot}

theorem quiet_ofUpdate (o : Outcome AccessError) : (ofUpdate o).quiet = ofUpdate o.quiet := rfl

@[simp] theorem ofUpdate_done (f : Frame) : ofUpdate (.done f) = .done f := rfl

@[simp] theorem ofUpdate_fail (e : AccessError) (f : Frame) :
    ofUpdate (.fail e f) = .fail (.access e) f := rfl

/-- A tagged write as an operation, whatever the value and the kind. -/
theorem writeTagged_cases (f : Frame) (s : SlotId) (v : Value) (k : Kind) :
    (∃ r, (ofUpdate (f.writeTagged s v k)).quiet = .fail r f) ∨
      ∃ old, f.slot? s = some old ∧ old.kind.canWidenTo k = true ∧
        (ofUpdate (f.writeTagged s v k)).quiet = .done (f.put s ⟨k, some v⟩) := by
  rw [quiet_ofUpdate]
  cases hs : f.slot? s with
  | none => exact .inl ⟨.access (.invalidSlot s), by simp [Frame.writeTagged, hs]⟩
  | some old =>
    by_cases hk : old.kind.canWidenTo k = true
    · exact .inr ⟨old, rfl, hk, by rw [Frame.writeTagged_quiet hs v hk, ofUpdate_done]⟩
    · exact .inl ⟨.access (.narrowing s old.kind k), by simp [Frame.writeTagged, hs, hk]⟩

end Updates

/-- **An update does everything or nothing**: it is refused and leaves the frame as
it was, or it is carried out and replaces the content of its slot. -/
theorem perform_cases (mem : Allocator) (f : Frame) {op : Operation} {s : SlotId}
    (hop : op.target? = some s) :
    (∃ r, (op.perform mem f).result = .error r ∧ (op.perform mem f).frame = f) ∨
      ∃ old new, f.slot? s = some old ∧ Replaces old op new ∧
        (op.perform mem f).result = .ok () ∧ (op.perform mem f).frame = f.put s new := by
  simp only [← Outcome.quiet_eq_fail_iff, ← Outcome.quiet_eq_done_iff]
  cases op with
  | exec c => cases hop
  | write t v =>
    obtain rfl : t = s := Option.some.inj hop
    rw [perform, quiet_ofUpdate]
    cases hs : f.slot? t with
    | none => exact .inl ⟨.access (.invalidSlot t), by simp [Frame.write, hs]⟩
    | some old => exact .inr ⟨old, _, rfl, .write, by rw [Frame.write_quiet hs, ofUpdate_done]⟩
  | setKind t k =>
    obtain rfl : t = s := Option.some.inj hop
    rw [perform, quiet_ofUpdate]
    cases hs : f.slot? t with
    | none => exact .inl ⟨.access (.invalidSlot t), by simp [Frame.setKind, hs]⟩
    | some old =>
      by_cases hk : old.kind.canWidenTo k = true
      · exact .inr ⟨old, _, rfl, .setKind hk, by rw [Frame.setKind_quiet hs hk, ofUpdate_done]⟩
      · exact .inl ⟨.access (.narrowing t old.kind k), by simp [Frame.setKind, hs, hk]⟩
  | writeAs p t x =>
    obtain rfl : t = s := Option.some.inj hop
    rcases writeTagged_cases f t (.of p x) (.primitive p) with hr | ⟨old, hs, hk, hf⟩
    · exact .inl hr
    · exact .inr ⟨old, _, hs, .writeAs hk, hf⟩
  | writeObject t v =>
    obtain rfl : t = s := Option.some.inj hop
    rcases writeTagged_cases f t v .object with hr | ⟨old, hs, -, hf⟩
    · exact .inl hr
    · exact .inr ⟨old, _, hs, .writeObject, hf⟩
  | storeElement t i n =>
    obtain rfl : t = s := Option.some.inj hop
    rw [perform, Frame.storeElement?]
    cases ha : f.array t with
    | error err => exact .inl ⟨.access err, rfl⟩
    | ok a =>
      obtain ⟨old, hs, hold⟩ := Frame.array_eq_ok_iff.mp ha
      cases hb : a.set? i n with
      | none => exact .inl ⟨.outOfBounds, by simp [hb]⟩
      | some b =>
        refine .inr ⟨old, _, hs, .storeElement hold hb, ?_⟩
        simp [hb, Frame.replaceArray_of_slot? hs]

/-! ## Histories -/

/-- What every operation respects, every history respects. -/
theorem performAll_related {mem : Allocator} {R : Frame → Frame → Prop} (hrefl : ∀ f, R f f)
    (htrans : ∀ f g h, R f g → R g h → R f h) {ops : List Operation}
    (hop : ∀ op ∈ ops, ∀ f, R f (op.perform mem f).frame) (f : Frame) :
    R f (performAll mem f ops).1 := by
  induction ops generalizing f with
  | nil => exact hrefl f
  | cons op ops ih =>
    have hfirst := hop op List.mem_cons_self f
    have hrest := ih (fun op' hop' => hop op' (List.mem_cons_of_mem op hop')) (op.perform mem f).frame
    exact htrans _ _ _ hfirst hrest

end TaggedSlots.Operation
