import TaggedSlots.Layout
import TaggedSlots.Stmt.Exec

/-! # Routines

A routine is a name, a layout and a body. It holds no state: every invocation
starts on a fresh frame of the layout, so running a routine again gives the same
result again. A run that succeeds hands out its frame; a run that faults drops
it and hands out the fault, with the routine's name as the context.
-/
namespace TaggedSlots

/-- A named body of statements with the layout of its frames. -/
structure Routine where
  name : String
  layout : Layout
  body : List Stmt

/-- A run that ended in a fault. -/
structure Failure where
  routine : String
  fault : Fault

namespace Failure

/-- The sentence that introduces the fault. -/
def context (x : Failure) : String := "Function '" ++ x.routine ++ "' failed"

/-- The wording of a failed run: the context, then the fault. -/
def message (x : Failure) : String := x.context ++ ": " ++ x.fault.message

end Failure

/-- What a run of a routine leads to. -/
structure Run (ε : Type) where
  result : Except ε Frame
  log : List Event

namespace Routine

/-- The slot of a name. -/
def slot? (r : Routine) (name : String) : Option SlotId := r.layout.find? name

/-- Executes the body on a fresh frame. -/
def invoke (mem : Allocator) (r : Routine) : Run Fault :=
  let start := Event.invoking r.name r.layout.size
  let o := Stmt.exec mem r.layout.newFrame (.block r.body)
  match o.result with
  | .error x => ⟨.error x, start :: o.log⟩
  | .ok () => ⟨.ok o.frame, start :: o.log ++ [.completed r.name]⟩

/-- Runs a routine: invokes it and puts a fault into the context of its name. -/
def run (mem : Allocator) (r : Routine) : Run Failure :=
  let i := r.invoke mem
  ⟨i.result.mapError fun x => ⟨r.name, x⟩, .running r.name :: i.log⟩

end Routine

end TaggedSlots
