import TaggedSlots.Event
import TaggedSlots.Frame.Basic

/-! # Outcomes

Whatever changes a frame yields an `Outcome`: whether it succeeded, the frame it
leaves behind, and what it reported on the way. A failure has a frame and a log
as well, because the steps before it have been taken.

`andThen` continues after a success and stops at the first failure. It is
associative, and `done` is neutral for it, so a sequence of steps can be grouped
in any way.
-/
namespace TaggedSlots

/-- What a step on a frame leads to. -/
structure Outcome (ε : Type) where
  result : Except ε Unit
  frame : Frame
  log : List Event

namespace Outcome
variable {ε : Type}

/-- Success without any change or report. -/
def done (f : Frame) : Outcome ε := ⟨.ok (), f, []⟩

/-- Failure without any change or report. -/
def fail (e : ε) (f : Frame) : Outcome ε := ⟨.error e, f, []⟩

/-- Reports an event before everything else. -/
def after (e : Event) (o : Outcome ε) : Outcome ε := { o with log := e :: o.log }

/-- Continues with another step if this one succeeded. -/
def andThen (o : Outcome ε) (next : Frame → Outcome ε) : Outcome ε :=
  match o.result with
  | .error _ => o
  | .ok () =>
    let o' := next o.frame
    ⟨o'.result, o'.frame, o.log ++ o'.log⟩

/-- Makes the refusal of a slot the fault of the node that asked for the access. -/
def raisedBy (node : NodeLabel) (o : Outcome AccessError) : Outcome Fault :=
  ⟨o.result.mapError fun e => ⟨node, .access e⟩, o.frame, o.log⟩

@[simp] theorem done_andThen (f : Frame) (next : Frame → Outcome ε) :
    (done f).andThen next = next f := by
  simp [done, andThen]

@[simp] theorem fail_andThen (e : ε) (f : Frame) (next : Frame → Outcome ε) :
    (fail e f).andThen next = fail e f := rfl

theorem andThen_done (o : Outcome ε) : o.andThen done = o := by
  obtain ⟨r, f, log⟩ := o
  cases r with
  | error e => rfl
  | ok u => simp [andThen, done]

theorem andThen_assoc (o : Outcome ε) (g h : Frame → Outcome ε) :
    (o.andThen g).andThen h = o.andThen fun f => (g f).andThen h := by
  obtain ⟨r, f, log⟩ := o
  cases r with
  | error e => rfl
  | ok u =>
    cases hg : (g f).result with
    | error e => simp [andThen, hg]
    | ok u => simp [andThen, hg, List.append_assoc]

@[simp] theorem after_andThen (e : Event) (o : Outcome ε) (next : Frame → Outcome ε) :
    (o.after e).andThen next = (o.andThen next).after e := by
  obtain ⟨r, f, log⟩ := o
  cases r <;> rfl

end Outcome

end TaggedSlots
