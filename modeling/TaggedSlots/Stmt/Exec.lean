import TaggedSlots.Expr.Eval
import TaggedSlots.Frame.Update
import TaggedSlots.Stmt.Basic

/-! # Executing statements

Executing a statement on a frame leads to an `Outcome` with a `Fault` as the
possible failure. How much memory there is for arrays is a parameter.

An assignment **specialises** on the kind of its slot. The first value stored in
an `illegal` slot decides its kind. A slot of a primitive kind keeps it as long
as the expression yields that type; a value of another type makes the slot
generic. A generic slot takes every value as it is.

Creating an array stores the array first and makes the slot generic afterwards.
The only thing that can fail once the array exists is that the slot does not,
and then the frame is unchanged.
-/
namespace TaggedSlots

/-! ## Array sizes -/

/-- The array length that a size stands for. A size is neither cut off nor
brought into range: a negative or too large one is refused. -/
def LongArray.lengthOfSize (size : Int64) : Except Cause Nat :=
  match Long.toIndex? size with
  | none => .error (.negativeArraySize size)
  | some n => if n ≤ maxLength then .ok n else .error (.arraySizeTooLarge size maxLength)

/-- A size stands for a length exactly when it has that value and the length is allowed. -/
theorem LongArray.lengthOfSize_eq_ok_iff {size : Int64} {n : Nat} :
    lengthOfSize size = .ok n ↔ size.toInt = n ∧ n ≤ maxLength := by
  unfold lengthOfSize Long.toIndex?
  by_cases hneg : size.toInt < 0
  · simp only [if_pos hneg, reduceCtorEq, false_iff]
    omega
  · by_cases hmax : size.toInt.toNat ≤ maxLength
    · simp only [if_neg hneg, if_pos hmax, Except.ok.injEq]
      omega
    · simp only [if_neg hneg, if_neg hmax, reduceCtorEq, false_iff]
      omega

namespace Stmt

/-! ## Single statements -/

/-- Executes an assignment. -/
def execAssign (f : Frame) (s : SlotId) (e : Expr) : Outcome Fault :=
  let node := (Stmt.assign s e).label
  match f.kind s with
  | .error err => .fail ⟨node, .access err⟩ f
  | .ok .illegal =>
    match e.eval f with
    | .error r => .fail r f
    | .ok v => (f.writeTagged s v v.kind).raisedBy node
  | .ok (.primitive p) =>
    match e.evalAs p f with
    | .ok x => (f.writeAs p s x).raisedBy node
    | .error (.fault r) => .fail r f
    | .error (.mismatch m) =>
      Outcome.after (.generalizing s m.value.typeName)
        ((f.writeObject s m.value).raisedBy node)
  | .ok .object =>
    match e.eval f with
    | .error r => .fail r f
    | .ok v => (f.writeObject s v).raisedBy node

/-- Executes the creation of an array. -/
def execCreate (mem : Allocator) (f : Frame) (s : SlotId) (e : Expr) : Outcome Fault :=
  let node := (Stmt.create s e).label
  match e.evalAs .long f with
  | .error err => .fail (err.toFault node) f
  | .ok size =>
    match LongArray.lengthOfSize size with
    | .error c => .fail ⟨node, c⟩ f
    | .ok n =>
      match mem.zeroed? n with
      | none => .fail ⟨node, .allocationFailed n⟩ f
      | some a =>
        Outcome.after (.allocated n s)
          (((f.write s (.array a)).andThen fun g => g.setKind s .object).raisedBy node)

/-- Executes the store of an element. The index is evaluated before the value,
and both before the array is looked at. -/
def execStore (f : Frame) (s : SlotId) (i v : Expr) : Outcome Fault :=
  let node := (Stmt.store s i v).label
  match i.evalAs .long f with
  | .error err => .fail (err.toFault node) f
  | .ok index =>
    match v.evalAs .long f with
    | .error err => .fail (err.toFault node) f
    | .ok n =>
      match f.array s with
      | .error err => .fail ⟨node, .access err⟩ f
      | .ok a =>
        match (Long.toIndex? index).bind fun k => a.set? k n with
        | none => .fail ⟨node, .indexOutOfBounds index a.length⟩ f
        | some b => .done (f.replaceArray s b)

/-! ## Whole statements -/

mutual

/-- Executes a statement. -/
def exec (mem : Allocator) (f : Frame) : Stmt → Outcome Fault
  | .assign s e => execAssign f s e
  | .create s e => execCreate mem f s e
  | .store s i v => execStore f s i v
  | .block body => execAll mem f body

/-- Executes statements in order until one of them faults. Each is announced
before it is executed. -/
def execAll (mem : Allocator) (f : Frame) : List Stmt → Outcome Fault
  | [] => .done f
  | c :: rest =>
    Outcome.after (.executing c.label) ((exec mem f c).andThen fun g => execAll mem g rest)

end

end Stmt

end TaggedSlots
