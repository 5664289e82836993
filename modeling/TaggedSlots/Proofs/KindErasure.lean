import TaggedSlots.Proofs.Steps

/-! # Kinds do not change what a program computes

The kind of a slot decides which way an assignment and a read take, and it is
allowed to disagree with the value in the slot. Neither has an effect on what
comes out. On two frames with the same values, whatever their kinds, every
expression has the same answer and every statement the same result, and the
statement leaves the same values behind (`computes_alike_of_sameValues`).

The proof is a simulation. Everything that an expression finds out about a frame
it finds out through `Frame.read`, which does not look at kinds; so expressions
agree. Single statements agree by their rules (`Stmt.execAssign_quiet` and the
like), in which the kind of a slot occurs only in the kind that the slot ends up
with. Whole statements agree by `Stmt.exec_matches`.
-/
namespace TaggedSlots

/-! ## Frames with the same values -/

namespace Frame

/-- The values of a frame, slot by slot, without the kinds. -/
def values (f : Frame) : List (Option Value) := f.slots.map Slot.value

/-- Two frames have the same number of slots and hold the same values in them. -/
def SameValues (f g : Frame) : Prop := f.values = g.values

instance (f g : Frame) : Decidable (f.SameValues g) := inferInstanceAs (Decidable (_ = _))

theorem map_value_slot? (f : Frame) (s : SlotId) :
    (f.slot? s).map Slot.value = f.values[s.index]? := by
  simp [slot?, values]

theorem values_put (f : Frame) (s : SlotId) (e : Slot) :
    (f.put s e).values = f.values.set s.index e.value := by
  simp [put, values, List.map_set]

namespace SameValues
variable {f g : Frame}

theorem map_value (h : f.SameValues g) (s : SlotId) :
    (f.slot? s).map Slot.value = (g.slot? s).map Slot.value := by
  rw [map_value_slot?, map_value_slot?, show f.values = g.values from h]

theorem put (h : f.SameValues g) (s : SlotId) (k k' : Kind) (v : Option Value) :
    (f.put s ⟨k, v⟩).SameValues (g.put s ⟨k', v⟩) := by
  show (f.put s ⟨k, v⟩).values = (g.put s ⟨k', v⟩).values
  rw [values_put, values_put, show f.values = g.values from h]

/-- Both frames have a slot, with the same value in it, or neither has. -/
theorem slot?_cases (h : f.SameValues g) (s : SlotId) :
    (f.slot? s = none ∧ g.slot? s = none) ∨
      ∃ k k' v, f.slot? s = some ⟨k, v⟩ ∧ g.slot? s = some ⟨k', v⟩ := by
  have hm := h.map_value s
  cases hf : f.slot? s with
  | none =>
    rw [hf] at hm
    exact .inl ⟨rfl, Option.map_eq_none_iff.mp hm.symm⟩
  | some e =>
    rw [hf] at hm
    obtain ⟨e', he', hv⟩ := Option.map_eq_some_iff.mp hm.symm
    exact .inr ⟨e.kind, e'.kind, e.value, rfl, by rw [he', ← hv]⟩

theorem read_eq (h : f.SameValues g) (s : SlotId) : f.read s = g.read s := by
  rcases h.slot?_cases s with ⟨hf, hg⟩ | ⟨k, k', v, hf, hg⟩
  · simp only [read, hf, hg]
  · simp only [read, hf, hg]

theorem array_eq (h : f.SameValues g) (s : SlotId) : f.array s = g.array s := by
  simp only [array, h.read_eq s]

theorem replaceArray (h : f.SameValues g) (s : SlotId) (a : LongArray) :
    (f.replaceArray s a).SameValues (g.replaceArray s a) := by
  rcases h.slot?_cases s with ⟨hf, hg⟩ | ⟨k, k', v, hf, hg⟩
  · simpa only [Frame.replaceArray, hf, hg] using h
  · rw [replaceArray_of_slot? hf, replaceArray_of_slot? hg]
    exact h.put s k k' _

end SameValues

end Frame

/-! ## Expressions -/

/-- An expression has the same value, or the same fault, on frames with the same
values. -/
theorem Expr.eval_of_sameValues {f g : Frame} (h : f.SameValues g) (e : Expr) :
    e.eval f = e.eval g :=
  eval_congr fun s _ => h.read_eq s

theorem Expr.evalAs_of_sameValues {f g : Frame} (h : f.SameValues g) (p : Primitive) (e : Expr) :
    e.evalAs p f = e.evalAs p g :=
  evalAs_congr (fun s _ => h.read_eq s) p

/-! ## Statements -/

namespace Stmt
variable {f g : Frame}

theorem execAssign_of_sameValues (h : f.SameValues g) (s : SlotId) (e : Expr) :
    (execAssign f s e).Matches Frame.SameValues (execAssign g s e) := by
  show (execAssign f s e).quiet.Matches _ (execAssign g s e).quiet
  rw [execAssign_quiet, execAssign_quiet, e.eval_of_sameValues h]
  rcases h.slot?_cases s with ⟨hf, hg⟩ | ⟨k, k', v, hf, hg⟩
  · rw [hf, hg]
    exact ⟨rfl, h⟩
  · rw [hf, hg]
    cases e.eval g with
    | error r => exact ⟨rfl, h⟩
    | ok w => exact ⟨rfl, h.put s _ _ _⟩

theorem execCreate_of_sameValues (mem : Allocator) (h : f.SameValues g) (s : SlotId) (e : Expr) :
    (execCreate mem f s e).Matches Frame.SameValues (execCreate mem g s e) := by
  have hc : createdArray mem f s e = createdArray mem g s e := by
    simp only [createdArray, e.evalAs_of_sameValues h]
  show (execCreate mem f s e).quiet.Matches _ (execCreate mem g s e).quiet
  rw [execCreate_quiet, execCreate_quiet, hc]
  cases createdArray mem g s e with
  | error r => exact ⟨rfl, h⟩
  | ok a =>
    rcases h.slot?_cases s with ⟨hf, hg⟩ | ⟨k, k', v, hf, hg⟩
    · rw [hf, hg]
      exact ⟨rfl, h⟩
    · rw [hf, hg]
      exact ⟨rfl, h.put s _ _ _⟩

theorem execStore_of_sameValues (h : f.SameValues g) (s : SlotId) (i v : Expr) :
    (execStore f s i v).Matches Frame.SameValues (execStore g s i v) := by
  have hb : storedArray f s i v = storedArray g s i v := by
    simp only [storedArray, i.evalAs_of_sameValues h, v.evalAs_of_sameValues h, h.array_eq s]
  show (execStore f s i v).quiet.Matches _ (execStore g s i v).quiet
  rw [execStore_quiet, execStore_quiet, hb]
  cases storedArray g s i v with
  | error r => exact ⟨rfl, h⟩
  | ok b => exact ⟨rfl, h.replaceArray s b⟩

/-- A single statement does the same to frames with the same values. -/
theorem exec_step_of_sameValues (mem : Allocator) {d : Stmt} {s : SlotId}
    (hd : d.target? = some s) (h : f.SameValues g) :
    (d.exec mem f).Matches Frame.SameValues (d.exec mem g) := by
  cases d with
  | assign t e =>
    rw [exec, exec]
    exact execAssign_of_sameValues h t e
  | create t e =>
    rw [exec, exec]
    exact execCreate_of_sameValues mem h t e
  | store t i v =>
    rw [exec, exec]
    exact execStore_of_sameValues h t i v
  | block body => cases hd

end Stmt

/-- **Kinds do not change what a program computes.** On two frames with the same
values every statement ends with the same result, success or fault, and leaves
the same values behind, and every expression gives the same answer through each
of its entry points. Nothing is assumed about the kinds of either frame. -/
theorem computes_alike_of_sameValues (mem : Allocator) {f g : Frame} (h : f.SameValues g) :
    (∀ c : Stmt, (c.exec mem f).result = (c.exec mem g).result ∧
      (c.exec mem f).frame.SameValues (c.exec mem g).frame) ∧
    ∀ e : Expr, e.eval f = e.eval g ∧ ∀ p, e.evalAs p f = e.evalAs p g := by
  refine ⟨fun c => ?_, fun e => ⟨e.eval_of_sameValues h, fun p => e.evalAs_of_sameValues h p⟩⟩
  refine Stmt.exec_matches c (fun d hd f' g' h' => ?_) h
  obtain ⟨s, hs⟩ := c.target?_of_mem_steps hd
  exact Stmt.exec_step_of_sameValues mem hs h'

/-- A long behind the kind `boolean`, and the same long in a slot that has not
been specialised: adding one to it in a nested block, and then creating an array
of that size, ends alike. -/
theorem computes_alike_on_mistagged_long :
    let f : Frame := ⟨[⟨.primitive .boolean, some (.long 5)⟩]⟩
    let g : Frame := ⟨[⟨.illegal, some (.long 5)⟩]⟩
    let increment := Stmt.assign ⟨0⟩ (.binary .add (.read ⟨0⟩) (.literal (.long 1)))
    let c := Stmt.block [.block [increment], .create ⟨0⟩ (.read ⟨0⟩)]
    (f.SameValues g ∧ f ≠ g) ∧
      (c.exec .unlimited f).result = (c.exec .unlimited g).result ∧
      (c.exec .unlimited f).frame.SameValues (c.exec .unlimited g).frame := by
  intro f g increment c
  have h : f.SameValues g := rfl
  exact ⟨⟨h, by decide⟩, (computes_alike_of_sameValues .unlimited h).1 c⟩

end TaggedSlots
