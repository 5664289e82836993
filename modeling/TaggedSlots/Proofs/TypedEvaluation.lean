import TaggedSlots.Expr.Eval

/-! # Typed and generic evaluation agree

An expression can be asked for a value, or for a datum of a primitive type, and
the two questions take different ways through the tree. `Expr.evalAs_eq_expect`
says that the second is the first followed by a look at the type. This module
reads that equation as the contract that callers rely on: which answer of one
entry point goes with which answer of the other (`Expr.evalAs_iff_eval`).

Evaluation is a function of the frame, so it has no way of changing it. Nodes
could also be read as steps that are given a frame and leave one behind, each
child working on what the child before it left. `Expr.run` and `Expr.runAs` are
that reading, and the frame comes out of them as it went in (`Expr.run_eq`,
`Expr.runAs_eq`).
-/
namespace TaggedSlots.Expr

/-! ## Answers of the typed entry points -/

section Expect
variable {p : Primitive} {result : Except Fault Value}

theorem expect_eq_ok_iff {x : p.Carrier} :
    expect p result = .ok x ↔ result = .ok (.of p x) := by
  cases result with
  | error r => simp [expect]
  | ok v =>
    rw [Except.ok.injEq, ← Value.as?_eq_some_iff]
    cases h : v.as? p <;> simp [expect, Value.expect, h]

/-- Only a value of another type is a mismatch, and the mismatch says which type
was asked for and which value was found. -/
theorem expect_eq_mismatch_iff {q : Primitive} {v : Value} :
    expect p result = .error (.mismatch ⟨q, v⟩) ↔
      q = p ∧ result = .ok v ∧ ∀ x, v ≠ .of p x := by
  have none_iff : ∀ w : Value, w.as? p = none ↔ ∀ x, w ≠ .of p x := fun w => by
    simp [Option.eq_none_iff_forall_ne_some, Value.as?_eq_some_iff]
  cases result with
  | error r => simp [expect]
  | ok w =>
    cases h : w.as? p with
    | none =>
      have hw := (none_iff w).mp h
      simp only [expect, Value.expect, h, Except.error.injEq, EvalError.mismatch.injEq,
        Mismatch.mk.injEq, Except.ok.injEq]
      constructor
      · rintro ⟨rfl, rfl⟩
        exact ⟨rfl, rfl, hw⟩
      · rintro ⟨rfl, rfl, -⟩
        exact ⟨rfl, rfl⟩
    | some x =>
      have hw := Value.as?_eq_some_iff.mp h
      simp only [expect, Value.expect, h, reduceCtorEq, Except.ok.injEq, false_iff]
      rintro ⟨-, rfl, hne⟩
      exact hne x hw

theorem expect_eq_fault_iff {r : Fault} :
    expect p result = .error (.fault r) ↔ result = .error r := by
  cases result with
  | error r' => simp [expect]
  | ok v => cases h : v.as? p <;> simp [expect, Value.expect, h]

end Expect

/-! ## Handing the frame on -/

mutual

/-- Generic evaluation as a step: the answer, and the frame that is left behind.
A right operand is evaluated only if the left one has a value, on the frame that
the left one leaves. -/
def run (f : Frame) : Expr → Except Fault Value × Frame
  | .literal c => (.ok c.value, f)
  | .read s => (f.readLocal s, f)
  | .length s => ((f.arrayLength s).map .long, f)
  | .element s i =>
    -- The array is looked up in the frame that the index leaves.
    let (index, g) := i.runLong f
    ((elementOf g s (Expr.element s i).label index).map .long, g)
  | .binary op l r =>
    match l.run f with
    | (.error x, g) => (.error x, g)
    | (.ok v, g) =>
      let (w, h) := r.run g
      (combine op (Expr.binary op l r).label (.ok v) w, h)

/-- Typed evaluation for longs as a step. -/
def runLong (f : Frame) : Expr → Except EvalError Int64 × Frame
  | .literal c => (c.evalAs .long, f)
  | .read s => (f.readLocalAs .long s, f)
  | .length s => ((f.arrayLength s).mapError .fault, f)
  | .element s i =>
    let (index, g) := i.runLong f
    ((elementOf g s (Expr.element s i).label index).mapError .fault, g)
  | .binary op l r =>
    match l.run f with
    | (.error x, g) => (.error (.fault x), g)
    | (.ok v, g) =>
      let (w, h) := r.run g
      (expect .long (combine op (Expr.binary op l r).label (.ok v) w), h)

end

/-- Typed evaluation as a step. -/
def runAs (p : Primitive) (f : Frame) (e : Expr) : Except EvalError p.Carrier × Frame :=
  match p, e with
  | .long, e => e.runLong f
  | p, .literal c => (c.evalAs p, f)
  | p, .read s => (f.readLocalAs p s, f)
  | p, e =>
    let (v, g) := e.run f
    (expect p v, g)

mutual

/-- **Generic evaluation leaves its frame alone**, and gives the same answer when
the frame is handed from child to child. -/
theorem run_eq (f : Frame) : ∀ e : Expr, e.run f = (e.eval f, f)
  | .literal _ => rfl
  | .read _ => rfl
  | .length _ => rfl
  | .element s i => by simp only [run, eval, runLong_eq f i]
  | .binary op l r => by
    simp only [run, eval, run_eq f l]
    cases l.eval f with
    | error x => rfl
    | ok v => simp only [run_eq f r]

/-- Typed evaluation for longs leaves its frame alone. -/
theorem runLong_eq (f : Frame) : ∀ e : Expr, e.runLong f = (e.evalLong f, f)
  | .literal _ => rfl
  | .read _ => rfl
  | .length _ => rfl
  | .element s i => by simp only [runLong, evalLong, runLong_eq f i]
  | .binary op l r => by
    simp only [runLong, evalLong, run_eq f l]
    cases l.eval f with
    | error x => rfl
    | ok v => simp only [run_eq f r]

end

/-- **Typed evaluation leaves its frame alone.** -/
theorem runAs_eq (p : Primitive) (f : Frame) (e : Expr) : e.runAs p f = (e.evalAs p f, f) := by
  unfold runAs evalAs
  cases p <;> cases e <;> simp only [run_eq, runLong_eq]

/-! ## The contract -/

/-- **The typed entry points agree with the generic one**, on every frame, for
every expression and type. A datum is answered exactly when the value holds that
datum, a mismatch exactly when there is a value of another type, a fault exactly
when there is no value, and then it is the same fault. No entry point changes
the frame it is given. -/
theorem evalAs_iff_eval (p : Primitive) (f : Frame) (e : Expr) :
    (∀ x, e.evalAs p f = .ok x ↔ e.eval f = .ok (.of p x)) ∧
    (∀ q v, e.evalAs p f = .error (.mismatch ⟨q, v⟩) ↔
      q = p ∧ e.eval f = .ok v ∧ ∀ x, v ≠ .of p x) ∧
    (∀ r, e.evalAs p f = .error (.fault r) ↔ e.eval f = .error r) ∧
    e.run f = (e.eval f, f) ∧ e.runAs p f = (e.evalAs p f, f) := by
  refine ⟨fun x => ?_, fun q v => ?_, fun r => ?_, run_eq f e, runAs_eq p f e⟩
  · rw [evalAs_eq_expect, expect_eq_ok_iff]
  · rw [evalAs_eq_expect, expect_eq_mismatch_iff]
  · rw [evalAs_eq_expect, expect_eq_fault_iff]

end TaggedSlots.Expr
