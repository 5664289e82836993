import TaggedSlots.Stmt.Exec

/-! # Operations on a frame

Everything that can be done to change a frame from the outside, as data: execute
a statement, or use one of the frame's own updates. With operations as data a
whole history of a frame is a list, and a fact about all histories is an
induction over lists.

Each operation is performed whatever became of the ones before it; a refused one
leaves a `Refusal` behind.
-/
namespace TaggedSlots

/-- A change of a frame. -/
inductive Operation where
  | exec (stmt : Stmt)
  | write (slot : SlotId) (value : Value)
  | setKind (slot : SlotId) (kind : Kind)
  | writeAs (type : Primitive) (slot : SlotId) (datum : type.Carrier)
  | writeObject (slot : SlotId) (value : Value)
  | storeElement (slot : SlotId) (index : Nat) (value : Int64)

/-- Why an operation did not succeed. -/
inductive Refusal where
  /-- A statement faulted. -/
  | fault (r : Fault)
  /-- The frame refused the access. -/
  | access (e : AccessError)
  /-- The array has no such position. -/
  | outOfBounds

namespace Operation

/-- Makes a failure of a frame's own update a refusal. -/
def ofUpdate (o : Outcome AccessError) : Outcome Refusal :=
  ⟨o.result.mapError .access, o.frame, o.log⟩

/-- Performs an operation. -/
def perform (mem : Allocator) (f : Frame) : Operation → Outcome Refusal
  | .exec c =>
    let o := c.exec mem f
    ⟨o.result.mapError .fault, o.frame, o.log⟩
  | .write s v => ofUpdate (f.write s v)
  | .setKind s k => ofUpdate (f.setKind s k)
  | .writeAs p s x => ofUpdate (f.writeAs p s x)
  | .writeObject s v => ofUpdate (f.writeObject s v)
  | .storeElement s i n =>
    match f.storeElement? s i n with
    | .error e => .fail (.access e) f
    | .ok none => .fail .outOfBounds f
    | .ok (some g) => .done g

/-- Performs operations in order, each whatever became of the others. The answer
is the frame they leave behind and everything they reported. -/
def performAll (mem : Allocator) (f : Frame) : List Operation → Frame × List Event
  | [] => (f, [])
  | op :: ops =>
    let o := op.perform mem f
    let rest := performAll mem o.frame ops
    (rest.1, o.log ++ rest.2)

end Operation

end TaggedSlots
