import TaggedSlots.Expr.Eval

/-! # Arithmetic on longs is exact, or it overflows

An operator on longs gives a long or it overflows; nothing wraps around. For a whole
expression this has to hold at every operator in it, also where a later one would bring
the result back into range. What it should compute is said by a second evaluation, in which
the long operators work on unbounded integers (`Expr.evalExact`). Everything else is as in
ordinary evaluation: the order, the faults, and what is done with doubles, booleans and
arrays. Division by zero is a fault here too, but there is no overflow.

An exact run has a result, and it remembers the integers that operators have computed on
the way, in order (`ExactRun.computed`). Ordinary evaluation does what the exact run does for
as long as these are longs. So it has the result of the exact run if all of them are, and
otherwise it faults with the overflow of the first that is none
(`arithmetic_exact_or_overflows`). Cutting a run off in this way is `ExactRun.checked`, and
it is compatible with sequencing (`ExactRun.checked_andThen`); the induction over
expressions rests on that.
-/
namespace TaggedSlots

/-! ## Exact results -/

/-- A value of exact evaluation: in the place of longs there are integers. -/
inductive ExactValue where
  | integer (i : Int)
  | double (x : Float)
  | boolean (b : Bool)
  | array (a : LongArray)
deriving DecidableEq

/-- The name of a value's type, as in messages about operands. -/
def ExactValue.typeName : ExactValue → String
  | .integer _ => "long"
  | .double _ => "double"
  | .boolean _ => "boolean"
  | .array _ => "long[]"

/-- Why a node could not complete in exact evaluation. An index that is out of bounds may
be any integer; all other causes are those of ordinary evaluation. -/
inductive ExactCause where
  | indexOutOfBounds (index : Int) (length : Nat)
  | ordinary (c : Cause)
deriving DecidableEq

/-- A fault of exact evaluation. -/
structure ExactFault where
  node : NodeLabel
  cause : ExactCause
deriving DecidableEq

/-- A value, seen as one of exact evaluation. -/
def Value.exact : Value → ExactValue
  | .long n => .integer n.toInt
  | .double x => .double x
  | .boolean b => .boolean b
  | .array a => .array a

/-- A cause, seen as one of exact evaluation. -/
def Cause.exact : Cause → ExactCause
  | .indexOutOfBounds index length => .indexOutOfBounds index.toInt length
  | c => .ordinary c

/-- A fault, seen as one of exact evaluation. -/
def Fault.exact (r : Fault) : ExactFault := ⟨r.node, r.cause.exact⟩

/-- A result of evaluation, seen as one of exact evaluation. -/
def Expr.exactResult : Except Fault Value → Except ExactFault ExactValue
  | .ok v => .ok v.exact
  | .error r => .error r.exact

theorem Value.exact_injective {v w : Value} (h : v.exact = w.exact) : v = w := by
  cases v <;> cases w <;> simp_all [exact, Int64.toInt_inj]

theorem Cause.exact_injective {c d : Cause} (h : c.exact = d.exact) : c = d := by
  cases c <;> cases d <;> simp_all [exact, Int64.toInt_inj]

theorem Fault.exact_injective {r x : Fault} (h : r.exact = x.exact) : r = x := by
  obtain ⟨node, cause⟩ := r
  obtain ⟨node', cause'⟩ := x
  simp only [exact, ExactFault.mk.injEq] at h
  rw [h.1, Cause.exact_injective h.2]

/-- Results that are the same in exact evaluation are the same. -/
theorem Expr.exactResult_injective {x y : Except Fault Value}
    (h : exactResult x = exactResult y) : x = y := by
  cases x with
  | ok v =>
    cases y with
    | ok w => rw [Value.exact_injective (Except.ok.inj h)]
    | error r => cases h
  | error r =>
    cases y with
    | ok w => cases h
    | error r' => rw [Fault.exact_injective (Except.error.inj h)]

/-! ## Exact runs -/

/-- An integer that an operator on longs has computed. -/
structure Computed where
  op : Operator
  value : Int
deriving DecidableEq

/-- An exact evaluation: its result, and what operators on longs have computed on the way,
from the first to the last. -/
structure ExactRun where
  result : Except ExactFault ExactValue
  computed : List Computed

namespace ExactRun

/-- A run without operators. -/
def leaf (result : Except ExactFault ExactValue) : ExactRun := ⟨result, []⟩

/-- Continues with the value of a run. Behind a fault nothing is evaluated. -/
def andThen (run : ExactRun) (next : ExactValue → ExactRun) : ExactRun :=
  match run.result with
  | .error _ => run
  | .ok v => ⟨(next v).result, run.computed ++ (next v).computed⟩

/-- The first integer that is no long. -/
def overflow? (run : ExactRun) : Option Computed :=
  run.computed.find? fun c => ¬ Long.InRange c.value

/-- What is left of a run if it has to stop at the first integer that is no long: the
overflow there, or the result of the run if there is none. -/
def checked (run : ExactRun) : Except ExactFault ExactValue :=
  match run.overflow? with
  | some c => .error ⟨⟨"Binary", none⟩, .ordinary (.arithmeticOverflow c.op.name)⟩
  | none => run.result

end ExactRun

/-! ## Exact evaluation -/

/-- An operator on two integers. -/
def Operator.onIntegers (op : Operator) (i j : Int) : Except Cause ExactValue :=
  match op with
  | .add => .ok (.integer (i + j))
  | .sub => .ok (.integer (i - j))
  | .mul => .ok (.integer (i * j))
  | .div => if j = 0 then .error .divisionByZero else .ok (.integer (i.tdiv j))
  | .lt => .ok (.boolean (i < j))
  | .eq => .ok (.boolean (i = j))

/-- An operator on two values of exact evaluation. -/
def Operator.applyExact (op : Operator) (v w : ExactValue) : Except Cause ExactValue :=
  match v, w with
  | .integer i, .integer j => op.onIntegers i j
  | .double x, .double y => .ok (op.onDoubles x y).exact
  | .boolean b, .boolean c =>
    if op = .eq then .ok (.boolean (b == c))
    else .error (.unsupportedOperands op.name v.typeName w.typeName)
  | v, w => .error (.unsupportedOperands op.name v.typeName w.typeName)

namespace ExactRun

/-- The run of an operator, with the integer that it computes. -/
def binary (op : Operator) (node : NodeLabel) (v w : ExactValue) : ExactRun :=
  match op.applyExact v w with
  | .ok (.integer i) => ⟨.ok (.integer i), [⟨op, i⟩]⟩
  | .ok u => leaf (.ok u)
  | .error c => leaf (.error ⟨node, .ordinary c⟩)

/-- The run of an access to the array in a slot, given the value of the index. -/
def element (f : Frame) (s : SlotId) (node : NodeLabel) : ExactValue → ExactRun
  | .integer i =>
    match f.array s with
    | .error e => leaf (.error ⟨node, .ordinary (.access e)⟩)
    | .ok a =>
      match if i < 0 then none else a.get? i.toNat with
      | some n => leaf (.ok (.integer n.toInt))
      | none => leaf (.error ⟨node, .indexOutOfBounds i a.length⟩)
  | .double x => leaf (.error ⟨node, .ordinary (.mismatch ⟨.long, .double x⟩)⟩)
  | .boolean b => leaf (.error ⟨node, .ordinary (.mismatch ⟨.long, .boolean b⟩)⟩)
  | .array a => leaf (.error ⟨node, .ordinary (.mismatch ⟨.long, .array a⟩)⟩)

end ExactRun

/-- Evaluation with unbounded integers. -/
def Expr.evalExact (f : Frame) : Expr → ExactRun
  | .literal c => .leaf (.ok c.value.exact)
  | .read s => .leaf (exactResult (f.readLocal s))
  | .length s => .leaf (exactResult ((f.arrayLength s).map .long))
  | .element s i => (i.evalExact f).andThen (.element f s (Expr.element s i).label)
  | .binary op l r =>
    (l.evalExact f).andThen fun v =>
      (r.evalExact f).andThen (.binary op (Expr.binary op l r).label v)

/-! ## Cutting runs off -/

namespace ExactRun

@[simp] theorem checked_leaf (result : Except ExactFault ExactValue) :
    (leaf result).checked = result := rfl

theorem checked_of_inRange {run : ExactRun} (h : ∀ c ∈ run.computed, Long.InRange c.value) :
    run.checked = run.result := by
  have hnone : run.overflow? = none := by
    rw [overflow?, List.find?_eq_none]
    intro c hc
    simpa using h c hc
  rw [checked, hnone]

theorem checked_of_overflow {run : ExactRun} {before after : List Computed} {c : Computed}
    (hrun : run.computed = before ++ c :: after)
    (hbefore : ∀ d ∈ before, Long.InRange d.value) (hc : ¬ Long.InRange c.value) :
    run.checked = .error ⟨⟨"Binary", none⟩, .ordinary (.arithmeticOverflow c.op.name)⟩ := by
  have hsome : run.overflow? = some c := by
    rw [overflow?, hrun, List.find?_append, List.find?_eq_none.mpr, Option.none_or,
      List.find?_cons_of_pos (by simpa using hc)]
    intro d hd
    simpa using hbefore d hd
  rw [checked, hsome]

/-- A run that gives a value when it is cut off has computed nothing but longs. -/
theorem result_of_checked_eq_ok {run : ExactRun} {v : ExactValue} (h : run.checked = .ok v) :
    run.result = .ok v ∧ ∀ c ∈ run.computed, Long.InRange c.value := by
  cases ho : run.overflow? with
  | some c =>
    rw [checked, ho] at h
    cases h
  | none =>
    rw [checked, ho] at h
    refine ⟨h, fun c hc => ?_⟩
    simpa using List.find?_eq_none.mp ho c hc

/-- **Sequencing.** A run that is continued is cut off before the continuation, or in it. -/
theorem checked_andThen (run : ExactRun) (next : ExactValue → ExactRun) :
    (run.andThen next).checked =
      match run.checked with
      | .error x => .error x
      | .ok v => (next v).checked := by
  obtain ⟨result, computed⟩ := run
  cases result with
  | error x =>
    -- Nothing is continued, so there is nothing but the run itself.
    cases ho : overflow? ⟨.error x, computed⟩ <;> simp only [andThen, checked, ho]
  | ok v =>
    cases ho : overflow? ⟨.ok v, computed⟩ with
    | some c =>
      have happ : overflow? ⟨(next v).result, computed ++ (next v).computed⟩ = some c := by
        rw [overflow?] at ho ⊢
        rw [List.find?_append, ho, Option.some_or]
      simp only [andThen, checked, ho, happ]
    | none =>
      have happ : overflow? ⟨(next v).result, computed ++ (next v).computed⟩ =
          (next v).overflow? := by
        rw [overflow?] at ho ⊢
        rw [List.find?_append, ho, Option.none_or, overflow?]
      simp only [andThen, checked, ho, happ]

/-- A fault that neither a run nor its continuation ends in is none of both together. -/
theorem result_andThen_ne {run : ExactRun} {next : ExactValue → ExactRun} {x : ExactFault}
    (hrun : run.result ≠ .error x) (hnext : ∀ v, (next v).result ≠ .error x) :
    (run.andThen next).result ≠ .error x := by
  obtain ⟨result, computed⟩ := run
  cases result with
  | error y => exact hrun
  | ok v => exact hnext v

/-! ## Single nodes -/

/-- One integer that is computed is a long, or it overflows. -/
theorem checked_single (op : Operator) (i : Int) :
    (⟨.ok (.integer i), [⟨op, i⟩]⟩ : ExactRun).checked =
      Expr.exactResult
        (match op.fit i with
        | .ok v => .ok v
        | .error c => .error ⟨⟨"Binary", none⟩, c⟩) := by
  cases hi : Long.ofInt? i with
  | some n =>
    obtain rfl := Long.ofInt?_eq_some_iff.mp hi
    rw [checked_of_inRange (by simp [Long.inRange_toInt]), Operator.fit, hi]
    rfl
  | none =>
    rw [checked_of_overflow (List.nil_append _).symm (by simp) (Long.ofInt?_eq_none_iff.mp hi),
      Operator.fit, hi]
    rfl

/-- Division by another integer than zero computes an integer. -/
theorem binary_div {i j : Int} (h : j ≠ 0) (node : NodeLabel) :
    binary .div node (.integer i) (.integer j) =
      ⟨.ok (.integer (i.tdiv j)), [⟨.div, i.tdiv j⟩]⟩ := by
  simp only [binary, Operator.applyExact, Operator.onIntegers, if_neg h]

/-- **Operators.** What is left of the run of an operator on two values is what the operator
gives. -/
theorem checked_binary (op : Operator) (v w : Value) :
    (binary op ⟨"Binary", none⟩ v.exact w.exact).checked =
      Expr.exactResult (Expr.combine op ⟨"Binary", none⟩ (.ok v) (.ok w)) := by
  cases v with
  | long m =>
    cases w with
    | long n =>
      cases op with
      | add => exact checked_single .add (m.toInt + n.toInt)
      | sub => exact checked_single .sub (m.toInt - n.toInt)
      | mul => exact checked_single .mul (m.toInt * n.toInt)
      | div =>
        by_cases hn : n.toInt = 0
        · simp [binary, Operator.applyExact, Operator.onIntegers, Value.exact, hn, Expr.combine,
            Operator.apply, Operator.onLongs, Expr.exactResult, Fault.exact, Cause.exact]
        · have hrun := checked_single .div (m.toInt.tdiv n.toInt)
          rewrite [Value.exact, Value.exact, binary_div hn, hrun, Expr.combine, Operator.apply,
            Operator.onLongs, if_neg hn]
          rfl
      | lt => rfl
      | eq => rfl
    | _ => rfl
  | double x =>
    cases w with
    | double y => cases op <;> rfl
    | _ => rfl
  | boolean b =>
    cases w with
    | boolean c => cases op <;> rfl
    | _ => rfl
  | array a => cases w <;> rfl

/-- **Elements.** What is left of the run of an access is what the access gives. -/
theorem checked_element (f : Frame) (s : SlotId) (node : NodeLabel) (v : Value) :
    (element f s node v.exact).checked =
      Expr.exactResult ((Expr.elementOf f s node (v.expect .long)).map .long) := by
  cases v with
  | long n =>
    have hexpect : (Value.long n).expect .long = .ok n := rfl
    rw [hexpect, Expr.elementOf, Frame.elementAt, Value.exact, element]
    cases f.array s with
    | error e => rfl
    | ok a =>
      by_cases hn : n.toInt < 0
      · simp only [Long.toIndex?, if_pos hn, Option.bind_none]
        rfl
      · simp only [Long.toIndex?, if_neg hn, Option.bind_some]
        cases a.get? n.toInt.toNat <;> rfl
  | _ => rfl

theorem binary_ne_overflow (op : Operator) (node : NodeLabel) (v w : ExactValue)
    (node' : NodeLabel) (name : String) :
    (binary op node v w).result ≠ .error ⟨node', .ordinary (.arithmeticOverflow name)⟩ := by
  have happly : op.applyExact v w ≠ .error (.arithmeticOverflow name) := by
    unfold Operator.applyExact Operator.onIntegers
    repeat' split
    all_goals simp
  rw [binary]
  cases hop : op.applyExact v w with
  | ok u => cases u <;> simp [leaf]
  | error c =>
    rw [hop] at happly
    simpa [leaf] using fun _ hc => happly (congrArg _ hc)

theorem element_ne_overflow (f : Frame) (s : SlotId) (node : NodeLabel) (v : ExactValue)
    (node' : NodeLabel) (name : String) :
    (element f s node v).result ≠ .error ⟨node', .ordinary (.arithmeticOverflow name)⟩ := by
  cases v with
  | integer i =>
    rw [element]
    cases f.array s with
    | error e => simp [leaf]
    | ok a => cases hi : (if i < 0 then none else a.get? i.toNat) <;> simp [leaf, hi]
  | _ => simp [element, leaf]

end ExactRun

/-! ## Whole expressions -/

namespace Expr

/-- **Evaluation is exact evaluation, cut off at the first overflow.** -/
theorem exactResult_eval (f : Frame) (e : Expr) :
    exactResult (e.eval f) = (e.evalExact f).checked := by
  induction e with
  | literal c => rfl
  | read s => rfl
  | length s => rfl
  | element s i ih =>
    rw [evalExact, ExactRun.checked_andThen, ← ih, eval, evalLong_eq_expect]
    cases i.eval f with
    | error r => rfl
    | ok v => exact (ExactRun.checked_element f s (Expr.element s i).label v).symm
  | binary op l r ihl ihr =>
    rw [evalExact, ExactRun.checked_andThen, ← ihl, eval]
    cases l.eval f with
    | error x => rfl
    | ok v =>
      simp only [exactResult]
      rw [ExactRun.checked_andThen, ← ihr]
      cases r.eval f with
      | error x => rfl
      | ok w => exact (ExactRun.checked_binary op v w).symm

/-- Exact evaluation never overflows. -/
theorem evalExact_ne_overflow (f : Frame) (e : Expr) (node : NodeLabel) (op : String) :
    (e.evalExact f).result ≠ .error ⟨node, .ordinary (.arithmeticOverflow op)⟩ := by
  induction e with
  | literal c =>
    intro h
    cases h
  | read s =>
    rw [evalExact, ExactRun.leaf, Frame.readLocal]
    cases f.read s <;> simp [exactResult, Fault.exact, Cause.exact]
  | length s =>
    rw [evalExact, ExactRun.leaf, Frame.arrayLength]
    cases f.array s <;> simp [Except.map, exactResult, Fault.exact, Cause.exact]
  | element s i ih => exact ExactRun.result_andThen_ne ih (ExactRun.element_ne_overflow f s _ · _ _)
  | binary o l r ihl ihr =>
    refine ExactRun.result_andThen_ne ihl fun v => ?_
    exact ExactRun.result_andThen_ne ihr (ExactRun.binary_ne_overflow o _ v · _ _)

end Expr

/-- **Arithmetic on longs is exact, or it overflows.** If exact evaluation computes nothing
but longs, evaluation has the same result, value or fault, and it does not overflow.
Otherwise it faults at the first operator whose exact result is no long, with the overflow of
that operator, whatever comes behind it. So a long that is the value of an expression is its
exact value. -/
theorem arithmetic_exact_or_overflows (f : Frame) (e : Expr) :
    let run := e.evalExact f
    ((∀ c ∈ run.computed, Long.InRange c.value) →
      (∀ result, e.eval f = result ↔ run.result = Expr.exactResult result) ∧
      ∀ node op, e.eval f ≠ .error ⟨node, .arithmeticOverflow op⟩) ∧
    (∀ before c after, run.computed = before ++ c :: after →
      (∀ d ∈ before, Long.InRange d.value) → ¬ Long.InRange c.value →
      e.eval f = .error ⟨⟨"Binary", none⟩, .arithmeticOverflow c.op.name⟩) ∧
    ∀ n, e.eval f = .ok (.long n) →
      run.result = .ok (.integer n.toInt) ∧ ∀ c ∈ run.computed, Long.InRange c.value := by
  intro run
  have heval : Expr.exactResult (e.eval f) = run.checked := e.exactResult_eval f
  refine ⟨fun hrange => ?_, fun before c after hrun hbefore hc => ?_, fun n hn => ?_⟩
  · have hsame : Expr.exactResult (e.eval f) = run.result :=
      heval.trans (ExactRun.checked_of_inRange hrange)
    refine ⟨fun result => ⟨?_, fun h => ?_⟩, fun node op h => ?_⟩
    · rintro rfl
      exact hsame.symm
    · exact Expr.exactResult_injective (hsame.trans h)
    · rw [h] at hsame
      exact e.evalExact_ne_overflow f node op hsame.symm
  · rw [ExactRun.checked_of_overflow hrun hbefore hc] at heval
    exact Expr.exactResult_injective heval
  · rw [hn] at heval
    exact ExactRun.result_of_checked_eq_ok heval.symm

/-- An index that is computed from the least and the greatest long, with every intermediate
result a long, finds the first element of an array. Twice the greatest long minus the
greatest long is a long again, but the product is none, and neither is the quotient of the
least long and minus one. -/
theorem exact_up_to_the_range_of_longs :
    let a : SlotId := ⟨0⟩
    let f : Frame := ⟨[⟨.object, some (.array ⟨#[7, 8]⟩)⟩]⟩
    let least := Expr.literal (.long (-9223372036854775808))
    let greatest := Expr.literal (.long 9223372036854775807)
    let index := Expr.binary .add (.binary .add least greatest) (.literal (.long 1))
    let back := Expr.binary .sub (.binary .mul greatest (.literal (.long 2))) greatest
    let quotient := Expr.binary .div least (.literal (.long (-1)))
    ((index.evalExact f).computed = [⟨.add, -1⟩, ⟨.add, 0⟩] ∧
      (Expr.element a index).eval f = .ok (.long 7) ∧
      ((Expr.element a index).evalExact f).result = .ok (.integer 7)) ∧
    ((back.evalExact f).computed =
        [⟨.mul, 18446744073709551614⟩, ⟨.sub, 9223372036854775807⟩] ∧
      (back.evalExact f).result = .ok (.integer 9223372036854775807) ∧
      back.eval f = .error ⟨⟨"Binary", none⟩, .arithmeticOverflow "multiplication"⟩) ∧
    (quotient.evalExact f).result = .ok (.integer 9223372036854775808) ∧
      quotient.eval f = .error ⟨⟨"Binary", none⟩, .arithmeticOverflow "division"⟩ := by
  intro a f least greatest index back quotient
  have hindex : ((Expr.element a index).evalExact f).computed = [⟨.add, -1⟩, ⟨.add, 0⟩] := rfl
  have hfits : ∀ c ∈ ((Expr.element a index).evalExact f).computed, Long.InRange c.value := by
    rw [hindex]
    decide
  have hvalue : (Expr.element a index).eval f = .ok (.long 7) :=
    (((arithmetic_exact_or_overflows f (.element a index)).1 hfits).1 _).mpr rfl
  have hback : (back.evalExact f).computed =
      [⟨.mul, 18446744073709551614⟩, ⟨.sub, 9223372036854775807⟩] := rfl
  refine ⟨⟨rfl, hvalue, ?_⟩, ⟨hback, rfl, ?_⟩, rfl, ?_⟩
  · exact ((arithmetic_exact_or_overflows f _).2.2 7 hvalue).1
  · exact (arithmetic_exact_or_overflows f back).2.1 [] _ _ hback (by simp) (by decide)
  · exact (arithmetic_exact_or_overflows f quotient).2.1 [] ⟨.div, 9223372036854775808⟩ [] rfl
      (by simp) (by decide)

end TaggedSlots
