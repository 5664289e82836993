import TaggedSlots.Stmt.Exec

/-! # What a single statement does

An assignment looks at the kind of its slot, evaluates its expression through the
entry point of that kind, and stores through one of several writes. All of these
ways amount to one rule: the slot ends up with the value of the expression and
with the *join* of its kind and the value's kind (`Stmt.execAssign_quiet`). The
creation of an array and the store of an element have a rule of this form too
(`Stmt.execCreate_quiet`, `Stmt.execStore_quiet`).

The rules are about the result and the frame. What is reported on the way is left
out of an outcome by `Outcome.quiet`.

Facts about all executions start from `Stmt.exec_cases`: a single statement either
faults and leaves the frame as it was, or succeeds and replaces one slot, in one
of the three ways of `Stmt.Replaces`.
-/
namespace TaggedSlots

/-! ## Outcomes without their log -/

namespace Outcome
variable {ε : Type}

/-- An outcome without what it reported. -/
def quiet (o : Outcome ε) : Outcome ε := { o with log := [] }

@[simp] theorem result_quiet (o : Outcome ε) : o.quiet.result = o.result := rfl

@[simp] theorem frame_quiet (o : Outcome ε) : o.quiet.frame = o.frame := rfl

@[simp] theorem quiet_done (f : Frame) : (done f : Outcome ε).quiet = done f := rfl

@[simp] theorem quiet_fail (e : ε) (f : Frame) : (fail e f).quiet = fail e f := rfl

@[simp] theorem quiet_after (e : Event) (o : Outcome ε) : (o.after e).quiet = o.quiet := rfl

theorem quiet_eq_done_iff {o : Outcome ε} {f : Frame} :
    o.quiet = .done f ↔ o.result = .ok () ∧ o.frame = f := by
  simp [quiet, done]

theorem quiet_eq_fail_iff {o : Outcome ε} {e : ε} {f : Frame} :
    o.quiet = .fail e f ↔ o.result = .error e ∧ o.frame = f := by
  simp [quiet, fail]

theorem quiet_andThen (o : Outcome ε) (next : Frame → Outcome ε) :
    (o.andThen next).quiet = o.quiet.andThen fun f => (next f).quiet := by
  obtain ⟨r, f, log⟩ := o
  cases r <;> rfl

theorem quiet_raisedBy (node : NodeLabel) (o : Outcome AccessError) :
    (o.raisedBy node).quiet = o.quiet.raisedBy node := rfl

@[simp] theorem done_raisedBy (node : NodeLabel) (f : Frame) :
    (done f).raisedBy node = done f := rfl

@[simp] theorem fail_raisedBy (node : NodeLabel) (e : AccessError) (f : Frame) :
    (fail e f).raisedBy node = fail ⟨node, .access e⟩ f := rfl

end Outcome

/-! ## One rule for each statement -/

namespace Frame
variable {f : Frame} {s : SlotId} {e : Slot}

theorem write_quiet (h : f.slot? s = some e) (v : Value) :
    (f.write s v).quiet = .done (f.put s { e with value := some v }) := by
  rw [write_of_slot? h v]
  rfl

theorem setKind_quiet (h : f.slot? s = some e) {k : Kind} (hk : e.kind.canWidenTo k = true) :
    (f.setKind s k).quiet = .done (f.put s { e with kind := k }) := by
  obtain ⟨hr, hf⟩ := setKind_of_canWidenTo h hk
  simp only [Outcome.quiet, Outcome.done, hr, hf]

theorem writeTagged_quiet (h : f.slot? s = some e) (v : Value) {k : Kind}
    (hk : e.kind.canWidenTo k = true) :
    (f.writeTagged s v k).quiet = .done (f.put s ⟨k, some v⟩) := by
  obtain ⟨hr, hf⟩ := writeTagged_of_canWidenTo h v hk
  simp only [Outcome.quiet, Outcome.done, hr, hf]

end Frame

namespace Stmt

/-- **Assignment.** Whatever the kind of the slot, the value of the expression is
stored and the kinds are joined. The slot is looked up before the expression is
evaluated. -/
theorem execAssign_quiet (f : Frame) (s : SlotId) (e : Expr) :
    (execAssign f s e).quiet =
      match f.slot? s with
      | none => .fail ⟨(Stmt.assign s e).label, .access (.invalidSlot s)⟩ f
      | some old =>
        match e.eval f with
        | .error r => .fail r f
        | .ok v => .done (f.put s ⟨old.kind.join v.kind, some v⟩) := by
  cases hs : f.slot? s with
  | none => simp [execAssign, Frame.kind, hs]
  | some old =>
    obtain ⟨k, w⟩ := old
    cases k with
    | illegal =>
      cases he : e.eval f with
      | error r => simp [execAssign, Frame.kind, hs, he]
      | ok v =>
        have hw := Frame.writeTagged_quiet hs v (Kind.illegal_canWidenTo v.kind)
        simp [execAssign, Frame.kind, hs, he, Outcome.quiet_raisedBy, hw]
    | object =>
      cases he : e.eval f with
      | error r => simp [execAssign, Frame.kind, hs, he]
      | ok v =>
        have hw := Frame.writeTagged_quiet hs v (Kind.canWidenTo_refl .object)
        simp [execAssign, Frame.kind, hs, he, Frame.writeObject, Outcome.quiet_raisedBy, hw]
    | primitive p =>
      -- The typed answer decides between the typed and the generic write.
      have has : e.evalAs p f = Expr.expect p (e.eval f) := Expr.evalAs_eq_expect p f e
      cases he : e.eval f with
      | error r =>
        rw [he] at has
        simp [execAssign, Frame.kind, hs, has, Expr.expect]
      | ok v =>
        rw [he] at has
        cases hv : v.as? p with
        | some x =>
          obtain rfl := Value.as?_eq_some_iff.mp hv
          have hw := Frame.writeTagged_quiet hs (.of p x) (Kind.canWidenTo_refl (.primitive p))
          simp [execAssign, Frame.kind, hs, has, Expr.expect, Value.expect, Frame.writeAs,
            Outcome.quiet_raisedBy, hw]
        | none =>
          have hne : Kind.primitive p ≠ v.kind := fun hk => by
            obtain ⟨x, rfl⟩ := Value.kind_eq_primitive_iff.mp hk.symm
            simp at hv
          have hw := Frame.writeTagged_quiet hs v (Kind.canWidenTo_object (.primitive p))
          simp [execAssign, Frame.kind, hs, has, Expr.expect, Value.expect, hv, Frame.writeObject,
            Outcome.quiet_raisedBy, hw, Kind.join_of_ne (by simp) v.kind_ne_illegal hne]

/-- The array that a creation provides for its slot, or the fault that keeps it
from being provided. -/
def createdArray (mem : Allocator) (f : Frame) (s : SlotId) (e : Expr) :
    Except Fault LongArray :=
  let node := (Stmt.create s e).label
  match e.evalAs .long f with
  | .error err => .error (err.toFault node)
  | .ok size =>
    match LongArray.lengthOfSize size with
    | .error c => .error ⟨node, c⟩
    | .ok n =>
      match mem.zeroed? n with
      | none => .error ⟨node, .allocationFailed n⟩
      | some a => .ok a

/-- **Creation.** The array is provided before the slot is looked up; the slot
becomes generic, whatever its kind. -/
theorem execCreate_quiet (mem : Allocator) (f : Frame) (s : SlotId) (e : Expr) :
    (execCreate mem f s e).quiet =
      match createdArray mem f s e with
      | .error r => .fail r f
      | .ok a =>
        match f.slot? s with
        | none => .fail ⟨(Stmt.create s e).label, .access (.invalidSlot s)⟩ f
        | some _ => .done (f.put s ⟨.object, some (.array a)⟩) := by
  unfold execCreate createdArray
  cases e.evalAs .long f with
  | error err => rfl
  | ok size =>
    cases hn : LongArray.lengthOfSize size with
    | error c => simp [hn]
    | ok n =>
      cases hm : mem.zeroed? n with
      | none => simp [hn, hm]
      | some a =>
        simp only [hn, hm, Outcome.quiet_after, Outcome.quiet_raisedBy, Outcome.quiet_andThen]
        cases hs : f.slot? s with
        | none => simp [Frame.write, hs]
        | some old =>
          -- The value is in place; widening to the generic kind is always permitted.
          have hput := Frame.slot?_put_self hs { old with value := some (.array a) }
          have hset := Frame.setKind_quiet hput (Kind.canWidenTo_object old.kind)
          simp [Frame.write_quiet hs, hset]

/-- The array that the store of an element leaves in its slot, or the fault that
keeps it from being stored. -/
def storedArray (f : Frame) (s : SlotId) (i v : Expr) : Except Fault LongArray :=
  let node := (Stmt.store s i v).label
  match i.evalAs .long f with
  | .error err => .error (err.toFault node)
  | .ok index =>
    match v.evalAs .long f with
    | .error err => .error (err.toFault node)
    | .ok n =>
      match f.array s with
      | .error err => .error ⟨node, .access err⟩
      | .ok a =>
        match (Long.toIndex? index).bind fun k => a.set? k n with
        | none => .error ⟨node, .indexOutOfBounds index a.length⟩
        | some b => .ok b

/-- **Store.** The array is replaced and the kind of the slot is kept. -/
theorem execStore_quiet (f : Frame) (s : SlotId) (i v : Expr) :
    (execStore f s i v).quiet =
      match storedArray f s i v with
      | .error r => .fail r f
      | .ok b => .done (f.replaceArray s b) := by
  unfold execStore storedArray
  cases i.evalAs .long f with
  | error err => rfl
  | ok index =>
    cases v.evalAs .long f with
    | error err => rfl
    | ok n =>
      cases f.array s with
      | error err => rfl
      | ok a => cases hb : (Long.toIndex? index).bind fun k => a.set? k n <;> simp [hb]

end Stmt

/-! ## Success and failure -/

namespace Frame

theorem replaceArray_of_slot? {f : Frame} {s : SlotId} {e : Slot} (h : f.slot? s = some e)
    (a : LongArray) : f.replaceArray s a = f.put s { e with value := some (.array a) } := by
  simp only [replaceArray, h]

end Frame

namespace Stmt

/-- The array that a store leaves is the one it found, with one element replaced. -/
theorem storedArray_eq_ok {f : Frame} {s : SlotId} {i v : Expr} {b : LongArray}
    (h : storedArray f s i v = .ok b) :
    ∃ old a k n, f.slot? s = some old ∧ old.value = some (.array a) ∧ a.set? k n = some b := by
  unfold storedArray at h
  cases hi : i.evalAs .long f with
  | error err => simp [hi] at h
  | ok index =>
    cases hv : v.evalAs .long f with
    | error err => simp [hi, hv] at h
    | ok n =>
      cases ha : f.array s with
      | error err => simp [hi, hv, ha] at h
      | ok a =>
        obtain ⟨old, hs, hold⟩ := Frame.array_eq_ok_iff.mp ha
        cases hb : (Long.toIndex? index).bind fun k => a.set? k n with
        | none => simp [hi, hv, ha, hb] at h
        | some b' =>
          simp only [hi, hv, ha, hb, Except.ok.injEq] at h
          obtain ⟨k, -, hk⟩ := Option.bind_eq_some_iff.mp hb
          exact ⟨old, a, k, n, hs, hold, h ▸ hk⟩

/-- How a single statement that succeeds replaces the content of its slot, where
the slot held `old` before. -/
inductive Replaces (mem : Allocator) (f : Frame) (old : Slot) : Stmt → Slot → Prop where
  /-- The kind of the slot is joined with the kind of the value. -/
  | assign {s : SlotId} {e : Expr} {v : Value} (value : e.eval f = .ok v) :
    Replaces mem f old (.assign s e) ⟨old.kind.join v.kind, some v⟩
  /-- A fresh array makes the slot generic. -/
  | create {s : SlotId} {e : Expr} {a : LongArray} (created : createdArray mem f s e = .ok a) :
    Replaces mem f old (.create s e) ⟨.object, some (.array a)⟩
  /-- One element of the array is replaced, and the kind of the slot is kept. -/
  | store {s : SlotId} {i v : Expr} {a b : LongArray} {k : Nat} {n : Int64}
    (held : old.value = some (.array a)) (replaced : a.set? k n = some b) :
    Replaces mem f old (.store s i v) ⟨old.kind, some (.array b)⟩

/-- **A single statement does everything or nothing**: it faults and leaves the
frame as it was, or it succeeds and replaces the content of its slot. -/
theorem exec_cases (mem : Allocator) (f : Frame) {d : Stmt} {s : SlotId}
    (hd : d.target? = some s) :
    (∃ r, (d.exec mem f).result = .error r ∧ (d.exec mem f).frame = f) ∨
      ∃ old new, f.slot? s = some old ∧ Replaces mem f old d new ∧
        (d.exec mem f).result = .ok () ∧ (d.exec mem f).frame = f.put s new := by
  simp only [← Outcome.quiet_eq_fail_iff, ← Outcome.quiet_eq_done_iff]
  cases d with
  | assign t e =>
    obtain rfl : t = s := Option.some.inj hd
    rw [exec, execAssign_quiet]
    cases hs : f.slot? t with
    | none => exact .inl ⟨_, rfl⟩
    | some old =>
      cases he : e.eval f with
      | error r => exact .inl ⟨r, rfl⟩
      | ok v => exact .inr ⟨old, _, rfl, .assign he, rfl⟩
  | create t e =>
    obtain rfl : t = s := Option.some.inj hd
    rw [exec, execCreate_quiet]
    cases ha : createdArray mem f t e with
    | error r => exact .inl ⟨r, rfl⟩
    | ok a =>
      cases hs : f.slot? t with
      | none => exact .inl ⟨_, rfl⟩
      | some old => exact .inr ⟨old, _, rfl, .create ha, rfl⟩
  | store t i v =>
    obtain rfl : t = s := Option.some.inj hd
    rw [exec, execStore_quiet]
    cases hb : storedArray f t i v with
    | error r => exact .inl ⟨r, rfl⟩
    | ok b =>
      obtain ⟨old, a, k, n, hs, hold, hset⟩ := storedArray_eq_ok hb
      refine .inr ⟨old, _, hs, .store hold hset, ?_⟩
      show Outcome.done (f.replaceArray t b) = _
      rw [Frame.replaceArray_of_slot? hs]
  | block body => cases hd

end Stmt

end TaggedSlots
