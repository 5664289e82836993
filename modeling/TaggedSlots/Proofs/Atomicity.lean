import TaggedSlots.Proofs.History
import TaggedSlots.Proofs.TypedEvaluation

/-! # Failed steps leave the frame alone

A step is a single statement, the evaluation of an expression, or an update of the
frame. A step that fails has changed nothing, wherever in it the failure occurred
and whatever the frame was like (`failed_step_leaves_frame`). For most steps this is
because everything that can fail comes before the first change. The creation of an
array is different: it stores the array and widens the slot only then, and nothing
would take the array back if the slot could not be widened. But every slot can be
made generic, so the second change never fails where the first has succeeded
(`Stmt.execCreate_quiet`).

A block is no step: what it did before a fault stays done.
-/
namespace TaggedSlots

namespace Stmt

theorem exists_target_of_ne_block {d : Stmt} (hd : ∀ body, d ≠ .block body) :
    ∃ s, d.target? = some s := by
  cases d with
  | assign s e => exact ⟨s, rfl⟩
  | create s e => exact ⟨s, rfl⟩
  | store s i v => exact ⟨s, rfl⟩
  | block body => exact absurd rfl (hd body)

/-- A single statement that faults leaves the frame as it was. -/
theorem frame_of_fault {mem : Allocator} {f : Frame} {d : Stmt} {s : SlotId} {r : Fault}
    (hd : d.target? = some s) (h : (d.exec mem f).result = .error r) :
    (d.exec mem f).frame = f := by
  rcases d.exec_cases mem f hd with ⟨r', -, hframe⟩ | ⟨old, new, -, -, hok, -⟩
  · exact hframe
  · rw [hok] at h
    cases h

end Stmt

namespace Operation

theorem exists_target_of_ne_exec {op : Operation} (hop : ∀ c, op ≠ .exec c) :
    ∃ s, op.target? = some s := by
  cases op with
  | exec c => exact absurd rfl (hop c)
  | write s v => exact ⟨s, rfl⟩
  | setKind s k => exact ⟨s, rfl⟩
  | writeAs p s x => exact ⟨s, rfl⟩
  | writeObject s v => exact ⟨s, rfl⟩
  | storeElement s i n => exact ⟨s, rfl⟩

/-- An update that is refused leaves the frame as it was. -/
theorem frame_of_refusal {mem : Allocator} {f : Frame} {op : Operation} {s : SlotId}
    {r : Refusal} (hop : op.target? = some s) (h : (op.perform mem f).result = .error r) :
    (op.perform mem f).frame = f := by
  rcases op.perform_cases mem f hop with ⟨r', -, hframe⟩ | ⟨old, new, -, -, hok, -⟩
  · exact hframe
  · rw [hok] at h
    cases h

end Operation

/-- **Failed steps leave the frame alone.** A statement other than a block that
faults, an expression that cannot be evaluated or is of another type than it was
asked for, and an update that is refused or finds no such position in the array: each
of them leaves the whole frame as it was. Nothing is assumed about the frame. -/
theorem failed_step_leaves_frame (mem : Allocator) (f : Frame) :
    (∀ (d : Stmt) (r : Fault), (∀ body, d ≠ .block body) →
      (d.exec mem f).result = .error r → (d.exec mem f).frame = f) ∧
    (∀ (e : Expr) (r : Fault), (e.run f).1 = .error r → (e.run f).2 = f) ∧
    (∀ (p : Primitive) (e : Expr) (err : EvalError),
      (e.runAs p f).1 = .error err → (e.runAs p f).2 = f) ∧
    (∀ (op : Operation) (r : Refusal), (∀ c, op ≠ .exec c) →
      (op.perform mem f).result = .error r → (op.perform mem f).frame = f) := by
  refine ⟨fun d r hd h => ?_, fun e r _ => ?_, fun p e err _ => ?_, fun op r hop h => ?_⟩
  · obtain ⟨s, hs⟩ := Stmt.exists_target_of_ne_block hd
    exact Stmt.frame_of_fault hs h
  · rw [Expr.run_eq]
  · rw [Expr.runAs_eq]
  · obtain ⟨s, hs⟩ := Operation.exists_target_of_ne_exec hop
    exact Operation.frame_of_refusal hs h

/-- A frame in which a boolean stands behind the kind `long`, next to an array. An
array is created for a slot that does not exist, an element is stored at a negative
index, a boolean is used as an index, the slot for longs is made one for booleans,
and an element is stored behind the end of the array: each fails and changes nothing.
A block that fails behind an assignment does not undo the assignment. -/
theorem failed_steps_on_torn_frame :
    let torn : SlotId := ⟨0⟩
    let array : SlotId := ⟨1⟩
    let f : Frame := ⟨[⟨.primitive .long, some (.boolean true)⟩,
      ⟨.object, some (.array ⟨#[3, 4]⟩)⟩]⟩
    let create := Stmt.create ⟨9⟩ (.length array)
    let store := Stmt.store array (.literal (.long (-1))) (.literal (.long 7))
    let element := Expr.element array (.read torn)
    let retag := Operation.setKind torn (.primitive .boolean)
    let behind := Operation.storeElement array 2 7
    let block := Stmt.block [.assign torn (.literal (.long 5)), store]
    ((create.exec .unlimited f).result = .error ⟨create.label, .access (.invalidSlot ⟨9⟩)⟩ ∧
      (create.exec .unlimited f).frame = f) ∧
    ((store.exec .unlimited f).result = .error ⟨store.label, .indexOutOfBounds (-1) 2⟩ ∧
      (store.exec .unlimited f).frame = f) ∧
    ((element.run f).1 = .error ⟨element.label, .mismatch ⟨.long, .boolean true⟩⟩ ∧
      (element.run f).2 = f) ∧
    ((retag.perform .unlimited f).result =
        .error (.access (.narrowing torn (.primitive .long) (.primitive .boolean))) ∧
      (retag.perform .unlimited f).frame = f) ∧
    ((behind.perform .unlimited f).result = .error .outOfBounds ∧
      (behind.perform .unlimited f).frame = f) ∧
    (block.exec .unlimited f).result = .error ⟨store.label, .indexOutOfBounds (-1) 2⟩ ∧
      (block.exec .unlimited f).frame ≠ f := by
  intro torn array f create store element retag behind block
  obtain ⟨hstmt, hrun, -, hupdate⟩ := failed_step_leaves_frame .unlimited f
  have hcreate : (create.exec .unlimited f).result =
      .error ⟨create.label, .access (.invalidSlot ⟨9⟩)⟩ := rfl
  have hstore : (store.exec .unlimited f).result =
      .error ⟨store.label, .indexOutOfBounds (-1) 2⟩ := rfl
  have helement : (element.run f).1 =
      .error ⟨element.label, .mismatch ⟨.long, .boolean true⟩⟩ := rfl
  have hretag : (retag.perform .unlimited f).result =
      .error (.access (.narrowing torn (.primitive .long) (.primitive .boolean))) := rfl
  have hbehind : (behind.perform .unlimited f).result = .error .outOfBounds := rfl
  exact ⟨⟨hcreate, hstmt create _ nofun hcreate⟩, ⟨hstore, hstmt store _ nofun hstore⟩,
    ⟨helement, hrun element _ helement⟩, ⟨hretag, hupdate retag _ nofun hretag⟩,
    ⟨hbehind, hupdate behind _ nofun hbehind⟩, rfl, by decide +kernel⟩

end TaggedSlots
