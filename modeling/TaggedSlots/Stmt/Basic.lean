import TaggedSlots.Expr.Basic

/-! # Statements

A statement assigns a slot, creates an array in a slot, stores an element of the
array in a slot, or is a block of statements. Blocks may be nested; they group
statements and mean nothing else.

Beside the tree stand its plain views: the single statements in it from left to
right (`steps`), the labels in the order in which blocks announce them
(`announced`), and the slots it changes (`targets`) or mentions at all (`slots`).
-/
namespace TaggedSlots

/-- A statement. -/
inductive Stmt where
  /-- Stores the value of an expression in a slot. -/
  | assign (slot : SlotId) (value : Expr)
  /-- Creates an array of zeros of the given size in a slot. -/
  | create (slot : SlotId) (size : Expr)
  /-- Stores a long at an index of the array in a slot. -/
  | store (slot : SlotId) (index value : Expr)
  /-- Executes statements one after the other. -/
  | block (body : List Stmt)

namespace Stmt

/-- How the node at the root of a statement is referred to. -/
def label : Stmt → NodeLabel
  | .assign s _ => ⟨"WriteLocal", some s⟩
  | .create s _ => ⟨"CreateLocalLongArray", some s⟩
  | .store s .. => ⟨"WriteArrayElement", some s⟩
  | .block _ => ⟨"Block", none⟩

/-! ## Views -/

mutual

/-- The single statements in a statement, from left to right. -/
def steps : Stmt → List Stmt
  | .assign s e => [.assign s e]
  | .create s e => [.create s e]
  | .store s i v => [.store s i v]
  | .block body => stepsAll body

/-- The single statements in a list of statements. -/
def stepsAll : List Stmt → List Stmt
  | [] => []
  | c :: rest => c.steps ++ stepsAll rest

end

mutual

/-- The labels of all statements strictly inside a statement, each before those
inside of it. -/
def announced : Stmt → List NodeLabel
  | .assign .. => []
  | .create .. => []
  | .store .. => []
  | .block body => announcedAll body

/-- The labels of all statements of a list and inside of them. -/
def announcedAll : List Stmt → List NodeLabel
  | [] => []
  | c :: rest => c.label :: (c.announced ++ announcedAll rest)

end

/-- The slot that a single statement changes; a block has none of its own. -/
def target? : Stmt → Option SlotId
  | .assign s _ => some s
  | .create s _ => some s
  | .store s .. => some s
  | .block _ => none

/-- The slots that the expressions of a single statement read. -/
def operands : Stmt → List SlotId
  | .assign _ e => e.slots
  | .create _ e => e.slots
  | .store _ i v => i.slots ++ v.slots
  | .block _ => []

/-- The slots that a statement may change. -/
def targets (c : Stmt) : List SlotId := c.steps.filterMap target?

/-- The slots that a statement mentions, to change or to read them. -/
def slots (c : Stmt) : List SlotId := c.steps.flatMap fun d => d.target?.toList ++ d.operands

@[simp] theorem steps_block (body : List Stmt) : (block body).steps = stepsAll body := by
  simp [steps]

theorem mem_targets_iff {c : Stmt} {s : SlotId} :
    s ∈ c.targets ↔ ∃ d ∈ c.steps, d.target? = some s :=
  List.mem_filterMap

theorem mem_slots_iff {c : Stmt} {s : SlotId} :
    s ∈ c.slots ↔ ∃ d ∈ c.steps, d.target? = some s ∨ s ∈ d.operands := by
  simp only [slots, List.mem_flatMap, List.mem_append, Option.mem_toList]

/-- What a statement changes it also mentions. -/
theorem mem_slots_of_mem_targets {c : Stmt} {s : SlotId} (h : s ∈ c.targets) : s ∈ c.slots := by
  obtain ⟨d, hd, hs⟩ := mem_targets_iff.mp h
  exact mem_slots_iff.mpr ⟨d, hd, .inl hs⟩

end Stmt

end TaggedSlots
