import TaggedSlots.Proofs.Effect

/-! # What a single statement reports

The rules about single statements leave out what is reported on the way; this module has the
other half. All that is reported about a slot has one form (`Event.account`): first that a
specialised slot is generalised, then that a value is written, and at last that the kind of
the slot has changed, each of them only where it is the case. An assignment that stores a
value gives such an account (`Stmt.execAssign_log`), and so does the creation of an array,
which reports the array before (`Stmt.execCreate_log`). The store of an element reports nothing
(`Stmt.execStore_log`). In any case the reports are about the slot of the statement
(`Stmt.slot?_of_mem_log`).

What fails before anything is stored reports nothing. The one exception is an array that has
been created for a slot which does not exist.
-/
namespace TaggedSlots

/-- The type of a value that makes a slot of this kind generic; none if the slot is not
specialised, or to the type of the value. -/
def Kind.generalizedBy? (k : Kind) (v : Value) : Option String :=
  match k with
  | .primitive p => if v.kind = .primitive p then none else some v.typeName
  | _ => none

namespace Event

/-- The report of a slot's kind becoming another one; nothing if it stays the same. -/
def retagging (s : SlotId) (a b : Kind) : List Event :=
  if a = b then [] else [.widened s a b]

/-- The account of a slot: the type for which it was generalised, the type that was written,
and its kinds before and afterwards. -/
def account (s : SlotId) (generalized written : Option String) (a b : Kind) : List Event :=
  generalized.toList.map (.generalizing s) ++ written.toList.map (.writing · s) ++ retagging s a b

/-- The slot that an event is about. -/
def slot? : Event → Option SlotId
  | .writing _ s | .widened s .. | .generalizing s _ | .allocated _ s => some s
  | .executing _ | .running _ | .invoking .. | .completed _ | .interpreted | .failed _ => none

theorem slot?_of_mem_retagging {e : Event} {s : SlotId} {a b : Kind}
    (h : e ∈ retagging s a b) : e.slot? = some s := by
  unfold retagging at h
  split at h
  · cases h
  · rw [List.mem_singleton.mp h, slot?]

theorem slot?_of_mem_account {e : Event} {s : SlotId} {generalized written : Option String}
    {a b : Kind} (h : e ∈ account s generalized written a b) : e.slot? = some s := by
  simp only [account, List.mem_append, List.mem_map] at h
  rcases h with (⟨type, -, rfl⟩ | ⟨type, -, rfl⟩) | h
  · rfl
  · rfl
  · exact slot?_of_mem_retagging h

end Event

/-! ## Changes of a frame -/

namespace Frame
variable {f : Frame} {s : SlotId} {old : Slot}

/-- A write is reported whether or not the slot exists. -/
theorem write_log (f : Frame) (s : SlotId) (v : Value) :
    (f.write s v).log = [.writing v.typeName s] := by
  unfold write
  cases f.slot? s <;> rfl

theorem setKind_log (h : f.slot? s = some old) {k : Kind} (hk : old.kind.canWidenTo k = true) :
    (f.setKind s k).log = Event.retagging s old.kind k := by
  by_cases he : old.kind = k
  · simp [setKind, h, he, Event.retagging, Outcome.done]
  · simp [setKind, h, hk, he, Event.retagging, Outcome.after, Outcome.done]

theorem setKind_log_of_narrowing (h : f.slot? s = some old) {k : Kind}
    (hk : ¬ old.kind.canWidenTo k = true) : (f.setKind s k).log = [] := by
  simp [setKind, h, hk, Outcome.fail]

theorem writeTagged_log (h : f.slot? s = some old) (v : Value) {k : Kind}
    (hk : old.kind.canWidenTo k = true) :
    (f.writeTagged s v k).log = Event.account s none (some v.typeName) old.kind k := by
  have hput := slot?_put_self h { old with value := some v }
  simp [writeTagged, h, hk, write_of_slot? h, Outcome.andThen, setKind_log hput hk, Event.account]

theorem writeTagged_log_of_narrowing (h : f.slot? s = some old) (v : Value) {k : Kind}
    (hk : ¬ old.kind.canWidenTo k = true) : (f.writeTagged s v k).log = [] := by
  simp [writeTagged, h, hk, Outcome.fail]

/-- A change of kind is reported about its slot only, whether or not the slot exists. -/
theorem slot?_of_mem_setKind_log {k : Kind} {e : Event} (h : e ∈ (f.setKind s k).log) :
    e.slot? = some s := by
  cases hs : f.slot? s with
  | none => simp [setKind, hs, Outcome.fail] at h
  | some old =>
    by_cases hk : old.kind.canWidenTo k = true
    · rw [setKind_log hs hk] at h
      exact Event.slot?_of_mem_retagging h
    · rw [setKind_log_of_narrowing hs hk] at h
      cases h

theorem slot?_of_mem_writeTagged_log {v : Value} {k : Kind} {e : Event}
    (h : e ∈ (f.writeTagged s v k).log) : e.slot? = some s := by
  cases hs : f.slot? s with
  | none => simp [writeTagged, hs, Outcome.fail] at h
  | some old =>
    by_cases hk : old.kind.canWidenTo k = true
    · rw [writeTagged_log hs v hk] at h
      exact Event.slot?_of_mem_account h
    · rw [writeTagged_log_of_narrowing hs v hk] at h
      cases h

end Frame

/-! ## Statements -/

namespace Stmt

/-- **Assignment.** What is stored is reported, with what that does to the kind of the slot. -/
theorem execAssign_log (f : Frame) (s : SlotId) (e : Expr) :
    (execAssign f s e).log =
      match f.slot? s with
      | none => []
      | some old =>
        match e.eval f with
        | .error _ => []
        | .ok v => Event.account s (old.kind.generalizedBy? v) (some v.typeName) old.kind
            (old.kind.join v.kind) := by
  cases hs : f.slot? s with
  | none => simp [execAssign, Frame.kind, hs, Outcome.fail]
  | some old =>
    obtain ⟨k, w⟩ := old
    cases k with
    | illegal =>
      cases he : e.eval f with
      | error r => simp [execAssign, Frame.kind, hs, he, Outcome.fail]
      | ok v =>
        have hw := Frame.writeTagged_log hs v (Kind.illegal_canWidenTo v.kind)
        simp [execAssign, Frame.kind, hs, he, Outcome.raisedBy, hw, Kind.generalizedBy?]
    | object =>
      cases he : e.eval f with
      | error r => simp [execAssign, Frame.kind, hs, he, Outcome.fail]
      | ok v =>
        have hw := Frame.writeTagged_log hs v (Kind.canWidenTo_refl .object)
        simp [execAssign, Frame.kind, hs, he, Frame.writeObject, Outcome.raisedBy, hw,
          Kind.generalizedBy?]
    | primitive p =>
      have has : e.evalAs p f = Expr.expect p (e.eval f) := Expr.evalAs_eq_expect p f e
      cases he : e.eval f with
      | error r =>
        rw [he] at has
        simp [execAssign, Frame.kind, hs, has, Expr.expect, Outcome.fail]
      | ok v =>
        rw [he] at has
        cases hv : v.as? p with
        | some x =>
          obtain rfl := Value.as?_eq_some_iff.mp hv
          have hw := Frame.writeTagged_log hs (.of p x) (Kind.canWidenTo_refl (.primitive p))
          simp [execAssign, Frame.kind, hs, has, Expr.expect, Value.expect, Frame.writeAs,
            Outcome.raisedBy, hw, Kind.generalizedBy?]
        | none =>
          have hne : v.kind ≠ Kind.primitive p := fun hk => by
            obtain ⟨x, rfl⟩ := Value.kind_eq_primitive_iff.mp hk
            simp at hv
          have hw := Frame.writeTagged_log hs v (Kind.canWidenTo_object (.primitive p))
          simp [execAssign, Frame.kind, hs, has, Expr.expect, Value.expect, hv, Frame.writeObject,
            Outcome.after, Outcome.raisedBy, hw, Kind.generalizedBy?, hne, Event.account,
            Kind.join_of_ne (by simp) v.kind_ne_illegal (Ne.symm hne)]

/-- **Creation.** The array is reported once it has been provided, and then its write. -/
theorem execCreate_log (mem : Allocator) (f : Frame) (s : SlotId) (e : Expr) :
    (execCreate mem f s e).log =
      match createdArray mem f s e with
      | .error _ => []
      | .ok a => .allocated a.length s ::
          match f.slot? s with
          | none => [.writing "long[]" s]
          | some old => Event.account s none (some "long[]") old.kind .object := by
  unfold execCreate createdArray
  cases e.evalAs .long f with
  | error err => rfl
  | ok size =>
    cases hn : LongArray.lengthOfSize size with
    | error c => simp [hn, Outcome.fail]
    | ok n =>
      cases hm : mem n with
      | false => simp [hn, hm, Allocator.zeroed?, Outcome.fail]
      | true =>
        simp only [hn, hm, Allocator.zeroed?, if_true, Outcome.after, Outcome.raisedBy,
          LongArray.length_zeroed]
        cases hs : f.slot? s with
        | none =>
          simp [Frame.write, hs, Outcome.after, Outcome.fail, Outcome.andThen, Value.typeName]
        | some old =>
          have hput := Frame.slot?_put_self hs { old with value := some (.array (.zeroed n)) }
          have hset := Frame.setKind_log hput (Kind.canWidenTo_object old.kind)
          simp [Frame.write_of_slot? hs, Outcome.andThen, hset, Value.typeName, Event.account]

/-- **Store.** An element is stored without a report. -/
theorem execStore_log (f : Frame) (s : SlotId) (i v : Expr) : (execStore f s i v).log = [] := by
  unfold execStore
  cases i.evalAs .long f with
  | error err => rfl
  | ok index =>
    cases v.evalAs .long f with
    | error err => rfl
    | ok n =>
      cases f.array s with
      | error err => rfl
      | ok a => cases hb : (Long.toIndex? index).bind fun k => a.set? k n <;> simp [hb] <;> rfl

/-- **A single statement reports about its own slot only.** -/
theorem slot?_of_mem_log {mem : Allocator} {f : Frame} {d : Stmt} {s : SlotId}
    (hd : d.target? = some s) {e : Event} (h : e ∈ (d.exec mem f).log) : e.slot? = some s := by
  cases d with
  | assign t x =>
    obtain rfl : t = s := Option.some.inj hd
    rw [exec, execAssign_log] at h
    cases hs : f.slot? t with
    | none => simp [hs] at h
    | some old =>
      cases hx : x.eval f with
      | error r => simp [hs, hx] at h
      | ok v =>
        simp only [hs, hx] at h
        exact Event.slot?_of_mem_account h
  | create t x =>
    obtain rfl : t = s := Option.some.inj hd
    rw [exec, execCreate_log] at h
    cases ha : createdArray mem f t x with
    | error r => simp [ha] at h
    | ok a =>
      simp only [ha] at h
      rcases List.mem_cons.mp h with rfl | h
      · rfl
      · cases hs : f.slot? t with
        | none =>
          simp only [hs] at h
          rw [List.mem_singleton.mp h, Event.slot?]
        | some old =>
          simp only [hs] at h
          exact Event.slot?_of_mem_account h
  | store t i v =>
    rw [exec, execStore_log] at h
    cases h
  | block body => cases hd

end Stmt

end TaggedSlots
