import TaggedSlots.Proofs.Effect

/-! # An assigned slot stands for its expression

After an assignment has succeeded, reading the slot is as good as evaluating the
expression that was assigned, on the frame before. This holds for every reading of the
slot, generic or as a primitive type, whatever way the assignment took: whether it
specialised the slot, kept its kind or made it generic. So an expression may be evaluated
behind the assignment, or in front of it with the assigned expression in the place of
every read of the slot (`eval_after_assign_eq_subst`).

Substitution replaces reads only. A slot can also be used as an array, by its length or
an element of it, and an expression has no place for another expression there; the slots
used in this way are `Expr.arraySlots`.
-/
namespace TaggedSlots

namespace Expr

/-- The slots that an expression uses as arrays. -/
def arraySlots : Expr → List SlotId
  | .literal _ => []
  | .read _ => []
  | .length s => [s]
  | .element s i => s :: i.arraySlots
  | .binary _ l r => l.arraySlots ++ r.arraySlots

/-- An expression with every read of a slot replaced by another expression. The inserted
expression is taken as it is, also if it reads the slot itself. -/
def subst (b : Expr) (s : SlotId) (e : Expr) : Expr :=
  match b with
  | .literal c => .literal c
  | .read t => if t = s then e else .read t
  | .length t => .length t
  | .element t i => .element t (i.subst s e)
  | .binary op l r => .binary op (l.subst s e) (r.subst s e)

end Expr

/-! ## Frames that differ in one value -/

/-- One frame is another one in which a slot has been given a value. The kinds of the
slots may differ. -/
structure Frame.Sets (f : Frame) (s : SlotId) (v : Value) (g : Frame) : Prop where
  self : g.read s = .ok v
  other : ∀ t, t ≠ s → g.read t = f.read t

namespace Frame.Sets
variable {f g : Frame} {s : SlotId} {v : Value}

theorem array_eq (h : f.Sets s v g) {t : SlotId} (ht : t ≠ s) : g.array t = f.array t := by
  simp only [array, h.other t ht]

/-- Reading the slot that was set gives the value; reading another one gives what it gave
before. -/
theorem readLocal_eq (h : f.Sets s v g) (t : SlotId) :
    g.readLocal t = if t = s then .ok v else f.readLocal t := by
  by_cases ht : t = s
  · subst ht
    simp only [readLocal, h.self, if_true]
  · simp only [readLocal, h.other t ht, ht, if_false]

end Frame.Sets

/-- An assignment that succeeds sets its slot to the value of its expression. -/
theorem Stmt.sets_of_assign {mem : Allocator} {f : Frame} {s : SlotId} {e : Expr}
    (h : ((Stmt.assign s e).exec mem f).result = .ok ()) :
    ∃ v, e.eval f = .ok v ∧ f.Sets s v ((Stmt.assign s e).exec mem f).frame := by
  rcases (Stmt.assign s e).exec_cases mem f rfl with
    ⟨r, hfault, -⟩ | ⟨old, new, hold, hrep, -, hframe⟩
  · rw [hfault] at h
    cases h
  · cases hrep with
    | @assign _ _ v value =>
      refine ⟨v, value, ?_, fun t ht => ?_⟩
      · rw [hframe, Frame.read, Frame.slot?_put_self hold]
      · rw [hframe, Frame.read_put_ne ht]

/-! ## Expressions -/

/-- **Substitution.** Where a slot has the value of an expression, the expression may take
the place of its reads. -/
theorem Expr.eval_subst {f g : Frame} {s : SlotId} {e : Expr} {v : Value} (he : e.eval f = .ok v)
    (hset : f.Sets s v g) {b : Expr} (hb : s ∉ b.arraySlots) :
    b.eval g = (b.subst s e).eval f := by
  induction b with
  | literal c => rfl
  | read t =>
    rw [eval, hset.readLocal_eq, subst]
    by_cases ht : t = s
    · rw [if_pos ht, if_pos ht, he]
    · rw [if_neg ht, if_neg ht, eval]
  | length t =>
    have ht : t ≠ s := fun h => hb (List.mem_singleton.mpr h.symm)
    rw [subst, eval, eval, Frame.arrayLength, Frame.arrayLength, hset.array_eq ht]
  | element t i ih =>
    have ht : t ≠ s := fun h => hb (h ▸ List.mem_cons_self)
    have hi := ih fun h => hb (List.mem_cons_of_mem t h)
    -- The index is a long on one frame exactly when it is that long on the other.
    rw [subst, eval, eval, evalLong_eq_expect, evalLong_eq_expect, hi]
    cases expect .long ((i.subst s e).eval f) with
    | error err => rfl
    | ok k =>
      rw [elementOf, elementOf, Frame.elementAt, Frame.elementAt, hset.array_eq ht]
      rfl
  | binary op l r ihl ihr =>
    have hl := ihl fun h => hb (List.mem_append_left _ h)
    have hr := ihr fun h => hb (List.mem_append_right _ h)
    rw [subst, eval, eval, hl, hr]
    rfl

/-- **An assigned slot stands for its expression.** After an assignment has succeeded,
every expression that uses the slot by reads only gives the answer that it would have
given before with the assigned expression in the place of these reads: the same value,
mismatch or fault, through each of its entry points. In particular every read of the slot
answers as the assigned expression did. -/
theorem eval_after_assign_eq_subst (mem : Allocator) {f : Frame} {s : SlotId} {e : Expr}
    (h : ((Stmt.assign s e).exec mem f).result = .ok ()) :
    let g := ((Stmt.assign s e).exec mem f).frame
    (∀ b : Expr, s ∉ b.arraySlots →
      b.eval g = (b.subst s e).eval f ∧ ∀ p, b.evalAs p g = (b.subst s e).evalAs p f) ∧
    (Expr.read s).eval g = e.eval f ∧ ∀ p, (Expr.read s).evalAs p g = e.evalAs p f := by
  intro g
  obtain ⟨v, hv, hset⟩ := Stmt.sets_of_assign h
  have hgeneric : ∀ b : Expr, s ∉ b.arraySlots → b.eval g = (b.subst s e).eval f :=
    fun b hb => Expr.eval_subst hv hset hb
  have htyped : ∀ b : Expr, s ∉ b.arraySlots →
      ∀ p, b.evalAs p g = (b.subst s e).evalAs p f := by
    intro b hb p
    rw [Expr.evalAs_eq_expect, Expr.evalAs_eq_expect, hgeneric b hb]
  have hread : (Expr.read s).subst s e = e := if_pos rfl
  refine ⟨fun b hb => ⟨hgeneric b hb, htyped b hb⟩, ?_, fun p => ?_⟩
  · rw [hgeneric (.read s) List.not_mem_nil, hread]
  · rw [htyped (.read s) List.not_mem_nil p, hread]

/-- A slot for booleans is assigned the last position of an array, which makes it generic.
Using it as an index, in bounds and out of bounds, and using it as a boolean all give what
the assigned expression would have given in its place. -/
theorem eval_after_generalizing_assign :
    let a : SlotId := ⟨0⟩
    let b : SlotId := ⟨1⟩
    let f : Frame := ⟨[⟨.primitive .boolean, some (.boolean true)⟩,
      ⟨.object, some (.array ⟨#[4, 5, 6]⟩)⟩]⟩
    let last := Expr.binary .sub (.length b) (.literal (.long 1))
    let g := ((Stmt.assign a last).exec .unlimited f).frame
    let twice := Expr.binary .add (.read a) (.read a)
    ((Stmt.assign a last).exec .unlimited f).result = .ok () ∧
      (Expr.element b (.read a)).eval g = .ok (.long 6) ∧
      (Expr.element b last).eval f = .ok (.long 6) ∧
      (Expr.element b twice).eval g = .error ⟨⟨"ReadArrayElement", some b⟩, .indexOutOfBounds 4 3⟩ ∧
      (Expr.element b twice).eval g = (Expr.element b (.binary .add last last)).eval f ∧
      (Expr.read a).evalAs .boolean g = .error (.mismatch ⟨.boolean, .long 2⟩) ∧
      last.evalAs .boolean f = .error (.mismatch ⟨.boolean, .long 2⟩) := by
  intro a b f last g twice
  have hok : ((Stmt.assign a last).exec .unlimited f).result = .ok () := rfl
  obtain ⟨hsubst, -, hread⟩ := eval_after_assign_eq_subst .unlimited hok
  have hinside : (Expr.element b last).eval f = .ok (.long 6) := rfl
  have hmismatch : last.evalAs .boolean f = .error (.mismatch ⟨.boolean, .long 2⟩) := rfl
  have houtside := (hsubst (.element b twice) (by decide)).1
  refine ⟨hok, ?_, hinside, ?_, houtside, ?_, hmismatch⟩
  · exact (hsubst (.element b (.read a)) (by decide)).1.trans hinside
  · exact houtside.trans rfl
  · exact (hread .boolean).trans hmismatch

end TaggedSlots
