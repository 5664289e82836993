import TaggedSlots.Layout
import TaggedSlots.Proofs.History

/-! # Array lengths can be used as sizes again

The length of an array is handed out as a long, without a check. This is right because no
array in a frame is longer than the largest length: arrays come into a frame by creation,
which refuses larger sizes, and from there they are only copied from slot to slot and
changed element by element. For the same reason there is memory for another array of every
length that is found in a frame. An array of which both is true is *renewable*
(`LongArray.Renewable`).

That all arrays of a frame are renewable is an invariant of execution, also of one that
faults halfway through a block (`Stmt.exec_renewable`). So the length of an array in a slot
is a long of that very value, and creating an array of this size succeeds in every slot,
the slot of the array itself included (`array_lengths_reusable`).
-/
namespace TaggedSlots

/-- An array that could be created again: its length is allowed, and there is memory for
it. -/
structure LongArray.Renewable (mem : Allocator) (a : LongArray) : Prop where
  allowed : a.length ≤ maxLength
  provided : mem a.length = true

/-- All arrays in a frame are renewable. -/
def Frame.Renewable (mem : Allocator) (f : Frame) : Prop :=
  ∀ s a, f.array s = .ok a → a.Renewable mem

/-! ## Where arrays come from -/

/-- Operators do not yield arrays. -/
theorem Operator.apply_ne_array (op : Operator) (v w : Value) (a : LongArray) :
    op.apply v w ≠ .ok (.array a) := by
  have hfit : ∀ i, op.fit i ≠ .ok (.array a) := fun i => by
    cases hi : Long.ofInt? i <;> simp [fit, hi]
  cases v with
  | long m =>
    cases w with
    | long n =>
      cases op with
      | add => exact hfit _
      | sub => exact hfit _
      | mul => exact hfit _
      | div =>
        rw [apply, onLongs]
        split
        · simp
        · exact hfit _
      | lt => simp [apply, onLongs]
      | eq => simp [apply, onLongs]
    | _ => simp [apply]
  | double x =>
    cases w with
    | double y => cases op <;> simp [apply, onDoubles]
    | _ => simp [apply]
  | boolean b =>
    cases w with
    | boolean c => cases op <;> simp [apply]
    | _ => simp [apply]
  | array b => cases w <;> simp [apply]

namespace Expr

/-- An operator has a value only if both operands do, and then it is the operator's. -/
theorem combine_eq_ok {op : Operator} {node : NodeLabel} {x y : Except Fault Value} {u : Value}
    (h : combine op node x y = .ok u) : ∃ v w, x = .ok v ∧ y = .ok w ∧ op.apply v w = .ok u := by
  cases x with
  | error r => cases h
  | ok v =>
    cases y with
    | error r => cases h
    | ok w =>
      refine ⟨v, w, rfl, rfl, ?_⟩
      rw [combine] at h
      cases hop : op.apply v w with
      | error c =>
        rw [hop] at h
        cases h
      | ok u' =>
        rw [hop] at h
        rw [Except.ok.inj h]

theorem map_long_ne_array (result : Except Fault Int64) (a : LongArray) :
    result.map Value.long ≠ .ok (.array a) := by
  cases result with
  | error r =>
    intro h
    cases h
  | ok n =>
    intro h
    cases h

/-- An array that is the value of an expression stands in some slot. -/
theorem array_of_eval {f : Frame} {e : Expr} {a : LongArray} (h : e.eval f = .ok (.array a)) :
    ∃ s, f.array s = .ok a := by
  cases e with
  | literal c =>
    obtain ⟨p, x⟩ := c
    cases p <;> cases h
  | read s =>
    have hread : f.read s = .ok (.array a) := by
      rw [eval, Frame.readLocal] at h
      split at h
      next v hv => rw [hv, Except.ok.inj h]
      next => cases h
    exact ⟨s, Frame.array_eq_ok_iff.mpr (Frame.read_eq_ok_iff.mp hread)⟩
  | length s => exact absurd h (map_long_ne_array _ a)
  | element s i => exact absurd h (map_long_ne_array _ a)
  | binary op l r =>
    obtain ⟨v, w, -, -, hop⟩ := combine_eq_ok h
    exact absurd hop (op.apply_ne_array v w a)

end Expr

/-- An array that is created has the size that was asked for, with memory for it. -/
theorem Stmt.createdArray_renewable {mem : Allocator} {f : Frame} {s : SlotId} {e : Expr}
    {a : LongArray} (h : createdArray mem f s e = .ok a) : a.Renewable mem := by
  unfold createdArray at h
  cases he : e.evalAs .long f with
  | error err =>
    rw [he] at h
    cases h
  | ok size =>
    cases hn : LongArray.lengthOfSize size with
    | error c => simp [he, hn] at h
    | ok n =>
      cases hm : mem n with
      | false => simp [he, hn, Allocator.zeroed?, hm] at h
      | true =>
        obtain rfl : LongArray.zeroed n = a := by simpa [he, hn, Allocator.zeroed?, hm] using h
        exact ⟨by simpa using (LongArray.lengthOfSize_eq_ok_iff.mp hn).2, by simpa using hm⟩

/-! ## The invariant -/

/-- A fresh frame holds no arrays. -/
theorem Layout.newFrame_renewable (mem : Allocator) (l : Layout) : l.newFrame.Renewable mem := by
  intro s a ha
  obtain ⟨e, he, hv⟩ := Frame.array_eq_ok_iff.mp ha
  rw [slot?_newFrame] at he
  obtain ⟨d, -, rfl⟩ := Option.map_eq_some_iff.mp he
  cases hv

/-- A frame in which one slot is replaced has the arrays of before, and the new one. -/
theorem Frame.Renewable.put {mem : Allocator} {f : Frame} (h : f.Renewable mem) {new : Slot}
    (hnew : ∀ a, new.value = some (.array a) → a.Renewable mem) (s : SlotId) :
    (f.put s new).Renewable mem := by
  intro t a ha
  obtain ⟨e, he, hv⟩ := Frame.array_eq_ok_iff.mp ha
  rcases Frame.slot?_of_put he with ⟨-, rfl⟩ | he
  · exact hnew a hv
  · exact h t a (Frame.array_eq_ok_iff.mpr ⟨e, he, hv⟩)

namespace Stmt

/-- **One step.** An array that a single statement puts in its slot comes from another slot,
or has been created, or is the one that was there with another element. -/
theorem Replaces.renewable {mem : Allocator} {f : Frame} {s : SlotId} {old new : Slot} {d : Stmt}
    (hf : f.Renewable mem) (hold : f.slot? s = some old) (h : Replaces mem f old d new)
    {a : LongArray} (ha : new.value = some (.array a)) : a.Renewable mem := by
  cases h with
  | @assign _ e v value =>
    obtain rfl : v = .array a := Option.some.inj ha
    obtain ⟨t, ht⟩ := Expr.array_of_eval value
    exact hf t a ht
  | @create _ e b created =>
    obtain rfl : b = a := Value.array.inj (Option.some.inj ha)
    exact createdArray_renewable created
  | @store _ i v b c k n held replaced =>
    obtain rfl : c = a := Value.array.inj (Option.some.inj ha)
    have hb : b.Renewable mem := hf s b (Frame.array_eq_ok_iff.mpr ⟨old, hold, held⟩)
    have hlength : c.length = b.length := LongArray.length_of_set? replaced
    exact ⟨hlength ▸ hb.allowed, hlength ▸ hb.provided⟩

/-- **A run.** Execution keeps all arrays renewable, also if it faults halfway. -/
theorem exec_renewable (mem : Allocator) (c : Stmt) {f : Frame} (h : f.Renewable mem) :
    (c.exec mem f).frame.Renewable mem := by
  have hstep : ∀ d ∈ c.steps, ∀ g : Frame, g.Renewable mem →
      (d.exec mem g).frame.Renewable mem := by
    intro d hd g hg
    obtain ⟨s, hs⟩ := c.target?_of_mem_steps hd
    rcases d.exec_cases mem g hs with ⟨r, -, hframe⟩ | ⟨old, new, hold, hrep, -, hframe⟩
    · rw [hframe]
      exact hg
    · rw [hframe]
      exact hg.put (fun a ha => hrep.renewable hg hold ha) s
  exact exec_related (R := fun f g => f.Renewable mem → g.Renewable mem) (fun _ h => h)
    (fun _ _ _ hfg hgh h => hgh (hfg h)) c hstep f h

/-- All arrays in a frame are renewable that statements leave which are executed one after
the other on a fresh frame. -/
theorem history_renewable (mem : Allocator) (l : Layout) (cs : List Stmt) :
    (Operation.performAll mem l.newFrame (cs.map .exec)).1.Renewable mem := by
  refine Operation.performAll_related (R := fun f g => f.Renewable mem → g.Renewable mem)
    (fun _ h => h) (fun _ _ _ hfg hgh h => hgh (hfg h)) ?_ l.newFrame (l.newFrame_renewable mem)
  intro op hop g hg
  obtain ⟨c, -, rfl⟩ := List.mem_map.mp hop
  exact c.exec_renewable mem hg

end Stmt

/-! ## Lengths as sizes -/

section Lengths
variable {mem : Allocator} {f : Frame} {s : SlotId} {a : LongArray}

/-- The length of a renewable array is a long of that value. -/
theorem LongArray.Renewable.toInt_length (h : a.Renewable mem) :
    (Int64.ofNat a.length).toInt = a.length := by
  have hmax := h.allowed
  unfold maxLength at hmax
  exact Int64.toInt_ofNat_of_lt (by omega)

theorem Expr.eval_length (ha : f.array s = .ok a) :
    (Expr.length s).eval f = .ok (.long (Int64.ofNat a.length)) := by
  rw [eval, Frame.arrayLength, ha]
  rfl

theorem Expr.evalAs_length (ha : f.array s = .ok a) :
    (Expr.length s).evalAs .long f = .ok (Int64.ofNat a.length) := by
  rw [evalAs_eq_expect, eval_length ha]
  rfl

/-- Creating an array of the length of a renewable one succeeds in every slot that there
is. -/
theorem Stmt.exec_create_length (ha : f.array s = .ok a) (h : a.Renewable mem) {t : SlotId}
    (ht : t.index < f.size) :
    ∃ old, f.slot? t = some old ∧ ((Stmt.create t (.length s)).exec mem f).quiet =
      .done (f.put t ⟨.object, some (.array (.zeroed a.length))⟩) := by
  obtain ⟨old, hold⟩ := Frame.exists_slot?_iff.mpr ht
  have hlength : LongArray.lengthOfSize (Int64.ofNat a.length) = .ok a.length :=
    LongArray.lengthOfSize_eq_ok_iff.mpr ⟨h.toInt_length, h.allowed⟩
  have hcreated : createdArray mem f t (.length s) = .ok (.zeroed a.length) := by
    simp [createdArray, Expr.evalAs_length ha, hlength, Allocator.zeroed?, h.provided]
  refine ⟨old, hold, ?_⟩
  rw [exec, execCreate_quiet, hcreated, hold]

end Lengths

/-- **Array lengths can be used as sizes again.** Statements are executed one after the
other on a fresh frame, each whatever became of the ones before it. Whenever a slot then
holds an array, its length is at most the largest one and there is memory for another array
of that length; the length evaluates to a long of exactly this value; and creating an array
of this size succeeds in every slot of the frame and leaves that many zeros there. -/
theorem array_lengths_reusable (mem : Allocator) (l : Layout) (cs : List Stmt) :
    let f := (Operation.performAll mem l.newFrame (cs.map .exec)).1
    ∀ s a, f.array s = .ok a →
      (a.length ≤ LongArray.maxLength ∧ mem.zeroed? a.length = some (.zeroed a.length)) ∧
      (∃ n : Int64, n.toInt = a.length ∧ (Expr.length s).eval f = .ok (.long n) ∧
        (Expr.length s).evalAs .long f = .ok n) ∧
      ∀ t, t.index < f.size →
        let o := (Stmt.create t (.length s)).exec mem f
        o.result = .ok () ∧ o.frame.array t = .ok (.zeroed a.length) := by
  intro f s a ha
  have hren : a.Renewable mem := Stmt.history_renewable mem l cs s a ha
  refine ⟨⟨hren.allowed, ?_⟩, ?_, fun t ht => ?_⟩
  · rw [Allocator.zeroed?, if_pos hren.provided]
  · exact ⟨_, hren.toInt_length, Expr.eval_length ha, Expr.evalAs_length ha⟩
  · obtain ⟨old, hold, hexec⟩ := Stmt.exec_create_length ha hren ht
    obtain ⟨hok, hframe⟩ := Outcome.quiet_eq_done_iff.mp hexec
    refine ⟨hok, ?_⟩
    rw [hframe]
    exact Frame.array_eq_ok_iff.mpr ⟨_, Frame.slot?_put_self hold _, rfl⟩

/-- With memory for four elements an array of three is created, filled, and copied to a slot
for longs, in a block that then asks for an array of nine and faults. The length of the copy
is still three, and an array of that size can be created in the place of the copy. -/
theorem length_of_copied_array_reusable :
    let a : SlotId := ⟨0⟩
    let b : SlotId := ⟨1⟩
    let l : Layout := ⟨[⟨"a", .illegal⟩, ⟨"b", .primitive .long⟩]⟩
    let cs : List Stmt := [.create a (.literal (.long 3)),
      .block [.store a (.literal (.long 1)) (.literal (.long 5)), .assign b (.read a),
        .create a (.literal (.long 9)), .assign b (.literal (.long 0))]]
    let f := (Operation.performAll (.atMost 4) l.newFrame (cs.map .exec)).1
    let o := (Stmt.create b (.length b)).exec (.atMost 4) f
    (f.array b = .ok ⟨#[0, 5, 0]⟩ ∧ b.index < f.size) ∧
      (∃ n : Int64, n.toInt = 3 ∧ (Expr.length b).eval f = .ok (.long n)) ∧
      o.result = .ok () ∧ o.frame.array b = .ok (.zeroed 3) := by
  intro a b l cs f o
  have hslot : f.slot? b = some ⟨.object, some (.array ⟨#[0, 5, 0]⟩)⟩ := by decide +kernel
  have harray : f.array b = .ok ⟨#[0, 5, 0]⟩ := Frame.array_eq_ok_iff.mpr ⟨_, hslot, rfl⟩
  have hsize : b.index < f.size := by decide +kernel
  obtain ⟨-, ⟨n, hn, heval, -⟩, hcreate⟩ := array_lengths_reusable (.atMost 4) l cs b _ harray
  exact ⟨⟨harray, hsize⟩, ⟨n, hn, heval⟩, hcreate b hsize⟩

end TaggedSlots
