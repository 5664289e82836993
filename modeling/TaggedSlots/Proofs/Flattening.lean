import TaggedSlots.Proofs.Atomicity
import TaggedSlots.Routine

/-! # A block leaves what it got done

Blocks may be nested in any way, and a fault may occur anywhere in them. All that
matters is the row of single statements from left to right (`Stmt.steps`). They are
executed one by one, each on the frame that the one before has left. If all of them
succeed, so does the whole statement, and it leaves the frame behind the last one
(`Stmt.inTurn?`). Otherwise there is a first one that faults (`Stmt.FaultsAt`). Its
fault is the fault of the whole statement, nothing behind it is executed, and nothing
before it is undone: the frame that is left is the one on which it faulted, because a
single statement that faults changes nothing.

A routine hands out its frame in the first case, and the fault with its own name as the
context in the second (`executes_as_steps_in_turn`).
-/
namespace TaggedSlots

namespace Stmt

/-- The frame that statements leave which are executed in turn, each on the frame that
the one before has left; `none` if one of them faults. -/
def inTurn? (mem : Allocator) (f : Frame) : List Stmt → Option Frame
  | [] => some f
  | d :: ds =>
    match (d.exec mem f).result with
    | .error _ => none
    | .ok () => inTurn? mem (d.exec mem f).frame ds

/-- Of statements that are executed in turn, the one at position `k` is the first to
fault: those before it all succeed and leave the frame `g`, and on this frame it has the
fault `r`. -/
structure FaultsAt (mem : Allocator) (f : Frame) (ds : List Stmt) (k : Nat) (r : Fault)
    (g : Frame) : Prop where
  reached : inTurn? mem f (ds.take k) = some g
  faults : ∃ d, ds[k]? = some d ∧ (d.exec mem g).result = .error r

/-! ## Rows of statements -/

section Rows
variable {mem : Allocator} {f g : Frame} {d : Stmt} {ds : List Stmt} {r : Fault} {k : Nat}

theorem inTurn?_cons_of_ok (h : (d.exec mem f).result = .ok ()) (ds : List Stmt) :
    inTurn? mem f (d :: ds) = inTurn? mem (d.exec mem f).frame ds := by
  simp only [inTurn?, h]

theorem inTurn?_cons_of_error (h : (d.exec mem f).result = .error r) (ds : List Stmt) :
    inTurn? mem f (d :: ds) = none := by
  simp only [inTurn?, h]

/-- If the first statement faults, it is the first to fault. -/
theorem faultsAt_cons_of_error {r' : Fault} (h : (d.exec mem f).result = .error r') :
    FaultsAt mem f (d :: ds) k r g ↔ k = 0 ∧ r = r' ∧ g = f := by
  constructor
  · rintro ⟨hreached, d', hd', hfault⟩
    cases k with
    | zero =>
      obtain rfl : f = g := Option.some.inj hreached
      obtain rfl : d = d' := Option.some.inj hd'
      rw [h] at hfault
      exact ⟨rfl, (Except.error.inj hfault).symm, rfl⟩
    | succ k =>
      rw [List.take_succ_cons, inTurn?_cons_of_error h] at hreached
      cases hreached
  · rintro ⟨rfl, rfl, rfl⟩
    exact ⟨rfl, d, rfl, h⟩

/-- If the first statement succeeds, the first to fault is found behind it. -/
theorem faultsAt_cons_of_ok (h : (d.exec mem f).result = .ok ()) :
    FaultsAt mem f (d :: ds) k r g ↔
      ∃ j, k = j + 1 ∧ FaultsAt mem (d.exec mem f).frame ds j r g := by
  constructor
  · rintro ⟨hreached, d', hd', hfault⟩
    cases k with
    | zero =>
      obtain rfl : f = g := Option.some.inj hreached
      obtain rfl : d = d' := Option.some.inj hd'
      rw [h] at hfault
      cases hfault
    | succ k =>
      rw [List.take_succ_cons, inTurn?_cons_of_ok h] at hreached
      exact ⟨k, rfl, hreached, d', hd', hfault⟩
  · rintro ⟨j, rfl, hreached, d', hd', hfault⟩
    refine ⟨?_, d', hd', hfault⟩
    rw [List.take_succ_cons, inTurn?_cons_of_ok h]
    exact hreached

end Rows

/-- A row of statements succeeds exactly when all of them succeed in turn. -/
theorem execAll_eq_done_iff {mem : Allocator} {ds : List Stmt} {f g : Frame} :
    (execAll mem f ds).quiet = .done g ↔ inTurn? mem f ds = some g := by
  induction ds generalizing f with
  | nil =>
    rw [execAll, Outcome.quiet_done, inTurn?, Option.some.injEq]
    simp [Outcome.done]
  | cons d ds ih =>
    cases hd : (d.exec mem f).result with
    | error r =>
      rw [execAll_cons_of_error hd, inTurn?_cons_of_error hd]
      constructor
      · intro h
        cases h
      · intro h
        cases h
    | ok u => rw [execAll_cons_of_ok hd, inTurn?_cons_of_ok hd, ih]

/-- A row of single statements faults exactly when there is a first one to fault, with its
fault and on the frame that it found. -/
theorem execAll_eq_fail_iff {mem : Allocator} {ds : List Stmt}
    (hds : ∀ d ∈ ds, ∃ s, d.target? = some s) {f g : Frame} {r : Fault} :
    (execAll mem f ds).quiet = .fail r g ↔ ∃ k, FaultsAt mem f ds k r g := by
  induction ds generalizing f with
  | nil =>
    constructor
    · intro h
      cases h
    · rintro ⟨k, -, d, hd, -⟩
      cases hd
  | cons d ds ih =>
    have hrest : ∀ d' ∈ ds, ∃ s, d'.target? = some s :=
      fun d' hd' => hds d' (List.mem_cons_of_mem d hd')
    cases hd : (d.exec mem f).result with
    | error r' =>
      -- The frame of the fault is the one before, so it is the frame that was reached.
      obtain ⟨s, hs⟩ := hds d List.mem_cons_self
      rw [execAll_cons_of_error hd, frame_of_fault hs hd]
      simp only [faultsAt_cons_of_error hd]
      constructor
      · intro h
        cases h
        exact ⟨0, rfl, rfl, rfl⟩
      · rintro ⟨k, -, rfl, rfl⟩
        rfl
    | ok u =>
      rw [execAll_cons_of_ok hd, ih hrest]
      simp only [faultsAt_cons_of_ok hd]
      constructor
      · rintro ⟨k, hk⟩
        exact ⟨k + 1, k, rfl, hk⟩
      · rintro ⟨-, k, -, hk⟩
        exact ⟨k, hk⟩

/-! ## Trees of statements -/

/-- A statement succeeds exactly when all of its steps succeed in turn. -/
theorem exec_eq_done_iff {mem : Allocator} {c : Stmt} {f g : Frame} :
    (c.exec mem f).quiet = .done g ↔ inTurn? mem f c.steps = some g := by
  rw [exec_eq_steps, execAll_eq_done_iff]

/-- A statement faults exactly when one of its steps is the first to fault. -/
theorem exec_eq_fail_iff {mem : Allocator} {c : Stmt} {f g : Frame} {r : Fault} :
    (c.exec mem f).quiet = .fail r g ↔ ∃ k, FaultsAt mem f c.steps k r g := by
  rw [exec_eq_steps, execAll_eq_fail_iff fun d hd => c.target?_of_mem_steps hd]

/-- **The culprit.** When a statement faults, one of its single statements has this very
fault on the frame that is left behind. -/
theorem exists_faulting_step {mem : Allocator} {f : Frame} {c : Stmt} {r : Fault}
    (h : (c.exec mem f).result = .error r) :
    ∃ d ∈ c.steps, (d.exec mem (c.exec mem f).frame).result = .error r := by
  have hfail : (c.exec mem f).quiet = .fail r (c.exec mem f).frame :=
    Outcome.quiet_eq_fail_iff.mpr ⟨h, rfl⟩
  obtain ⟨k, -, d, hd, hfault⟩ := exec_eq_fail_iff.mp hfail
  exact ⟨d, List.mem_of_getElem? hd, hfault⟩

end Stmt

/-! ## Routines -/

namespace Routine
variable {mem : Allocator} {routine : Routine}

/-- A run hands out a frame exactly when the body succeeds and leaves it. -/
theorem run_eq_ok_iff {g : Frame} :
    (routine.run mem).result = .ok g ↔
      ((Stmt.block routine.body).exec mem routine.layout.newFrame).quiet = .done g := by
  rw [Outcome.quiet_eq_done_iff, run, invoke]
  cases (Stmt.exec mem routine.layout.newFrame (.block routine.body)).result with
  | error r =>
    constructor
    · intro h
      cases h
    · rintro ⟨h, -⟩
      cases h
  | ok u =>
    constructor
    · intro h
      exact ⟨rfl, Except.ok.inj h⟩
    · rintro ⟨-, rfl⟩
      rfl

/-- A run fails exactly when the body faults; the failure is the fault in the context of
the routine's name. -/
theorem run_eq_error_iff {x : Failure} :
    (routine.run mem).result = .error x ↔
      x.routine = routine.name ∧
        ∃ g, ((Stmt.block routine.body).exec mem routine.layout.newFrame).quiet = .fail x.fault g := by
  simp only [Outcome.quiet_eq_fail_iff]
  rw [run, invoke]
  cases (Stmt.exec mem routine.layout.newFrame (.block routine.body)).result with
  | error r =>
    constructor
    · intro h
      cases h
      exact ⟨rfl, _, rfl, rfl⟩
    · rintro ⟨hname, g, hr, -⟩
      obtain ⟨name, fault⟩ := x
      cases hname
      cases hr
      rfl
  | ok u =>
    constructor
    · intro h
      cases h
    · rintro ⟨-, g, hr, -⟩
      cases hr

end Routine

/-- **Statements are executed as their steps in turn.** The steps of a statement are its
single statements. The statement succeeds and leaves a frame exactly when its steps
succeed in turn and leave it. It faults and leaves a frame exactly when one of the steps
is the first to fault, with this very fault and on this very frame. So a routine hands out
a frame exactly when the steps of its body succeed in turn on a fresh frame and leave it,
and it fails exactly when one of them is the first to fault, with this fault and with a
context that names the routine. -/
theorem executes_as_steps_in_turn (mem : Allocator) :
    (∀ (c : Stmt) (f : Frame),
      (∀ d ∈ c.steps, ∀ body, d ≠ .block body) ∧
      (∀ g, (c.exec mem f).result = .ok () ∧ (c.exec mem f).frame = g ↔
        Stmt.inTurn? mem f c.steps = some g) ∧
      (∀ r g, (c.exec mem f).result = .error r ∧ (c.exec mem f).frame = g ↔
        ∃ k, Stmt.FaultsAt mem f c.steps k r g)) ∧
    ∀ routine : Routine,
      (∀ g, (routine.run mem).result = .ok g ↔
        Stmt.inTurn? mem routine.layout.newFrame (Stmt.block routine.body).steps = some g) ∧
      (∀ x, (routine.run mem).result = .error x ↔
        x.routine = routine.name ∧ x.context = "Function '" ++ routine.name ++ "' failed" ∧
        ∃ k g, Stmt.FaultsAt mem routine.layout.newFrame (Stmt.block routine.body).steps
          k x.fault g) := by
  refine ⟨fun c f => ⟨?_, fun g => ?_, fun r g => ?_⟩, fun routine => ⟨fun g => ?_, fun x => ?_⟩⟩
  · rintro d hd body rfl
    obtain ⟨s, hs⟩ := c.target?_of_mem_steps hd
    cases hs
  · rw [← Outcome.quiet_eq_done_iff, Stmt.exec_eq_done_iff]
  · rw [← Outcome.quiet_eq_fail_iff, Stmt.exec_eq_fail_iff]
  · rw [Routine.run_eq_ok_iff, Stmt.exec_eq_done_iff]
  · simp only [Routine.run_eq_error_iff, Stmt.exec_eq_fail_iff]
    constructor
    · rintro ⟨hname, g, k, hk⟩
      exact ⟨hname, by rw [Failure.context, hname], k, g, hk⟩
    · rintro ⟨hname, -, k, g, hk⟩
      exact ⟨hname, g, k, hk⟩

/-- A routine whose body is nested and has empty blocks in it. Its second step divides by
zero, three blocks deep: the first step has been executed, the two creations behind the
division have not. -/
theorem executes_until_nested_division :
    let a : SlotId := ⟨0⟩
    let b : SlotId := ⟨1⟩
    let first := Stmt.assign a (.literal (.long 7))
    let second := Stmt.assign b (.binary .div (.read a) (.literal (.long 0)))
    let create := Stmt.create a (.read a)
    let routine : Routine := ⟨"main", ⟨[⟨"a", .illegal⟩, ⟨"b", .primitive .boolean⟩]⟩,
      [.block [.block [], first], .block [.block [.block [second], create]], create]⟩
    let c := Stmt.block routine.body
    let f := routine.layout.newFrame
    let g : Frame := ⟨[⟨.primitive .long, some (.long 7)⟩, ⟨.primitive .boolean, none⟩]⟩
    let fault : Fault := ⟨⟨"Binary", none⟩, .divisionByZero⟩
    c.steps = [first, second, create, create] ∧
      (second ∈ c.steps ∧ ∀ body, second ≠ .block body) ∧
      Stmt.FaultsAt .unlimited f c.steps 1 fault g ∧
      ((c.exec .unlimited f).result = .error fault ∧ (c.exec .unlimited f).frame = g) ∧
      (routine.run .unlimited).result = .error ⟨"main", fault⟩ := by
  intro a b first second create routine c f g fault
  have hsteps : c.steps = [first, second, create, create] := rfl
  have hfaults : Stmt.FaultsAt .unlimited f c.steps 1 fault g := by
    refine ⟨?_, second, rfl, rfl⟩
    decide +kernel
  have hsecond : second ∈ c.steps := by simp [hsteps]
  obtain ⟨hexec, hrun⟩ := executes_as_steps_in_turn .unlimited
  refine ⟨hsteps, ⟨hsecond, ?_⟩, hfaults, ?_, ?_⟩
  · exact (hexec c f).1 second hsecond
  · exact ((hexec c f).2.2 fault g).mpr ⟨1, hfaults⟩
  · exact ((hrun routine).2 ⟨"main", fault⟩).mpr ⟨rfl, rfl, 1, g, hfaults⟩

end TaggedSlots
