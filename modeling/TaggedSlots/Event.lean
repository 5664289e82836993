import TaggedSlots.Fault

/-! # Log events

Running a program reports what it does, as a list of events beside the result.
An event is data; its level and its wording are functions of it (`Event.level`,
`Event.message`), so that the log can be reasoned about without reading text.
-/
namespace TaggedSlots

/-- How important an event is. -/
inductive Level where
  | debug
  | info
  | error
deriving DecidableEq

/-- The name of a level. -/
def Level.name : Level → String
  | .debug => "DEBUG"
  | .info => "INFO"
  | .error => "ERROR"

/-- Something that a run reports. -/
inductive Event where
  /-- A value of the named type is about to be stored in a slot. -/
  | writing (type : String) (slot : SlotId)
  /-- A slot has changed its kind. -/
  | widened (slot : SlotId) (source target : Kind)
  /-- A specialised slot was given a value of another type. -/
  | generalizing (slot : SlotId) (type : String)
  /-- An array of the given length was created for a slot. -/
  | allocated (length : Nat) (slot : SlotId)
  /-- A block is about to execute one of its statements. -/
  | executing (node : NodeLabel)
  /-- A routine was asked to run. -/
  | running (name : String)
  /-- A routine starts on a fresh frame with that many slots. -/
  | invoking (name : String) (slots : Nat)
  /-- A routine has executed all of its statements. -/
  | completed (name : String)
  /-- A session has run its routine. -/
  | interpreted
  /-- A session has failed for the given reason. -/
  | failed (reason : String)
deriving DecidableEq

namespace Event

/-- Steps inside a routine are details; its start and end are information; the
failure of a session is an error. -/
def level : Event → Level
  | .writing .. | .widened .. | .generalizing .. | .allocated .. | .executing _ => .debug
  | .running _ | .invoking .. | .completed _ | .interpreted => .info
  | .failed _ => .error

/-- The wording of an event. -/
def message : Event → String
  | .writing type s => "Writing " ++ type ++ " to slot " ++ s.text
  | .widened s source target =>
    "Slot " ++ s.text ++ " widened from " ++ source.name ++ " to " ++ target.name
  | .generalizing s type => "Slot " ++ s.text ++ " got " ++ type ++ ", generalizing to object"
  | .allocated length s =>
    "Allocated long[" ++ Decimal.natText length ++ "] for slot " ++ s.text
  | .executing node => "Executing statement: " ++ node.text
  | .running name => "Running function: " ++ name
  | .invoking name slots => "Invoking " ++ name ++ " (" ++ Decimal.natText slots ++ " slots)"
  | .completed name => name ++ " completed"
  | .interpreted => "Interpretation completed"
  | .failed reason => "Interpretation failed: " ++ reason

/-- The line an event is reported in: its level, then its message. -/
def line (e : Event) : String := e.level.name ++ " " ++ e.message

end Event

end TaggedSlots
