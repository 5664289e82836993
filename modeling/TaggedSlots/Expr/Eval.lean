import TaggedSlots.Expr.Basic
import TaggedSlots.Frame.Basic

/-! # Evaluating expressions

An expression is evaluated on a frame, which it cannot change, in one of two
ways. *Generic* evaluation (`Expr.eval`) yields a value. *Typed* evaluation
(`Expr.evalAs`) asks for a datum of a primitive type; if the expression has a
value of another type, the answer is a mismatch that carries the value.

Typed evaluation has short cuts. A literal knows its type and answers at once.
A slot of the requested kind is read directly, and only if the direct read finds
another kind does the read fall back on the slot's value. Array elements and
lengths are computed as longs, and become values only where a value is asked for.
The short cuts change nothing: typed evaluation is generic evaluation followed by
a look at the type of the value, also where the kind of a slot and its value
disagree (`Expr.evalAs_eq_expect`).

Operands are evaluated from left to right, and the first fault is the result. All that
an expression learns about a frame it learns by reading the slots it mentions
(`Expr.eval_congr`).
-/
namespace TaggedSlots

/-! ## Single nodes -/

/-- The datum of a literal, for whoever asks for it as a primitive type. -/
def Literal.evalAs : (p : Primitive) → Literal → Except EvalError p.Carrier
  | .long, ⟨.long, n⟩ => .ok n
  | .double, ⟨.double, x⟩ => .ok x
  | .boolean, ⟨.boolean, b⟩ => .ok b
  | p, c => .error (.mismatch ⟨p, c.value⟩)

namespace Frame

/-- The value of a slot, for an expression that reads it. -/
def readLocal (f : Frame) (s : SlotId) : Except Fault Value :=
  match f.read s with
  | .ok v => .ok v
  | .error e => .error ⟨(Expr.read s).label, .access e⟩

/-- The datum of a slot, for an expression that reads it as a primitive type.
The direct read is tried first; when it finds another kind, the value decides. -/
def readLocalAs (p : Primitive) (f : Frame) (s : SlotId) : Except EvalError p.Carrier :=
  match f.readAs p s with
  | .ok x => .ok x
  | .error (.kindMismatch ..) =>
    match f.readLocal s with
    | .ok v => v.expect p
    | .error r => .error (.fault r)
  | .error e => .error (.fault ⟨(Expr.read s).label, .access e⟩)

/-- The length of the array in a slot, as a long. -/
def arrayLength (f : Frame) (s : SlotId) : Except Fault Int64 :=
  match f.array s with
  | .ok a => .ok (Int64.ofNat a.length)
  | .error e => .error ⟨(Expr.length s).label, .access e⟩

/-- An element of the array in a slot, once the index has been evaluated. -/
def elementAt (f : Frame) (node : NodeLabel) (s : SlotId) (i : Int64) : Except Fault Int64 :=
  match f.array s with
  | .error e => .error ⟨node, .access e⟩
  | .ok a =>
    match (Long.toIndex? i).bind a.get? with
    | some n => .ok n
    | none => .error ⟨node, .indexOutOfBounds i a.length⟩

end Frame

namespace Expr

/-- An element of the array in a slot, given what evaluating the index led to. -/
def elementOf (f : Frame) (s : SlotId) (node : NodeLabel) :
    Except EvalError Int64 → Except Fault Int64
  | .ok i => f.elementAt node s i
  | .error e => .error (e.toFault node)

/-- The value of an operator, given what evaluating the operands led to. A fault
of the left operand comes first. -/
def combine (op : Operator) (node : NodeLabel) :
    Except Fault Value → Except Fault Value → Except Fault Value
  | .error r, _ => .error r
  | .ok _, .error r => .error r
  | .ok v, .ok w =>
    match op.apply v w with
    | .ok u => .ok u
    | .error c => .error ⟨node, c⟩

/-! ## Whole expressions -/

/-- Asks a generic result for a datum of a primitive type. -/
def expect (p : Primitive) : Except Fault Value → Except EvalError p.Carrier
  | .ok v => v.expect p
  | .error r => .error (.fault r)

mutual

/-- Generic evaluation. -/
def eval (f : Frame) : Expr → Except Fault Value
  | .literal c => .ok c.value
  | .read s => f.readLocal s
  | .length s => (f.arrayLength s).map .long
  | .element s i => (elementOf f s (Expr.element s i).label (i.evalLong f)).map .long
  | .binary op l r => combine op (Expr.binary op l r).label (l.eval f) (r.eval f)

/-- Typed evaluation for longs. -/
def evalLong (f : Frame) : Expr → Except EvalError Int64
  | .literal c => c.evalAs .long
  | .read s => f.readLocalAs .long s
  | .length s => (f.arrayLength s).mapError .fault
  | .element s i => (elementOf f s (Expr.element s i).label (i.evalLong f)).mapError .fault
  | .binary op l r => expect .long (combine op (Expr.binary op l r).label (l.eval f) (r.eval f))

end

/-- Typed evaluation. -/
def evalAs (p : Primitive) (f : Frame) (e : Expr) : Except EvalError p.Carrier :=
  match p, e with
  | .long, e => e.evalLong f
  | p, .literal c => c.evalAs p
  | p, .read s => f.readLocalAs p s
  | p, e => expect p (e.eval f)

/-! ## The short cuts change nothing -/

/-- A literal answers as its value would. -/
theorem literal_evalAs_eq_expect (p : Primitive) (c : Literal) :
    c.evalAs p = c.value.expect p := by
  obtain ⟨q, x⟩ := c
  cases p <;> cases q <;> rfl

/-- Reading a slot as a primitive type is reading it and then looking at the
type of its value, whatever the kind of the slot. -/
theorem readLocalAs_eq_expect (p : Primitive) (f : Frame) (s : SlotId) :
    f.readLocalAs p s = expect p (f.readLocal s) := by
  unfold Frame.readLocalAs Frame.readLocal Frame.readAs Frame.read expect Value.expect
  cases f.slot? s with
  | none => rfl
  | some e =>
    obtain ⟨k, v⟩ := e
    by_cases hk : k = .primitive p
    · subst hk
      cases v with
      | none => simp
      | some v => cases h : v.as? p <;> simp [h]
    · cases v <;> simp [hk]

/-- Typed evaluation for longs is generic evaluation followed by a look at the
type. -/
theorem evalLong_eq_expect (f : Frame) : ∀ e : Expr, e.evalLong f = expect .long (e.eval f)
  | .literal c => by simp only [evalLong, eval, expect, literal_evalAs_eq_expect]
  | .read s => by simp only [evalLong, eval, readLocalAs_eq_expect]
  | .length s => by
    simp only [evalLong, eval]
    cases f.arrayLength s <;> rfl
  | .element s i => by
    simp only [evalLong, eval]
    cases elementOf f s (Expr.element s i).label (i.evalLong f) <;> rfl
  | .binary .. => rfl

/-- Typed evaluation is generic evaluation followed by a look at the type. -/
theorem evalAs_eq_expect (p : Primitive) (f : Frame) (e : Expr) :
    e.evalAs p f = expect p (e.eval f) := by
  unfold evalAs
  cases p <;> cases e <;>
    simp [evalLong_eq_expect, readLocalAs_eq_expect, literal_evalAs_eq_expect, eval, expect]

/-! ## What an expression depends on -/

/-- An expression depends on nothing but what is read from its slots. -/
theorem eval_congr {f g : Frame} {e : Expr} (h : ∀ s ∈ e.slots, f.read s = g.read s) :
    e.eval f = e.eval g := by
  induction e with
  | literal c => rfl
  | read s =>
    have hs := h s List.mem_cons_self
    simp only [eval, Frame.readLocal, hs]
  | length s =>
    have hs := h s List.mem_cons_self
    simp only [eval, Frame.arrayLength, Frame.array, hs]
  | element s i ih =>
    have hs := h s List.mem_cons_self
    have hi := ih fun t ht => h t (List.mem_cons_of_mem s ht)
    -- The index is evaluated as a long, which is its value and a look at the type.
    simp only [eval, evalLong_eq_expect, hi]
    cases expect .long (i.eval g) with
    | error err => rfl
    | ok index => simp only [elementOf, Frame.elementAt, Frame.array, hs]
  | binary op l r ihl ihr =>
    have hl := ihl fun t ht => h t (List.mem_append_left _ ht)
    have hr := ihr fun t ht => h t (List.mem_append_right _ ht)
    simp only [eval, hl, hr]

theorem evalAs_congr {f g : Frame} {e : Expr} (h : ∀ s ∈ e.slots, f.read s = g.read s)
    (p : Primitive) : e.evalAs p f = e.evalAs p g := by
  rw [evalAs_eq_expect, evalAs_eq_expect, eval_congr h]

end Expr

end TaggedSlots
