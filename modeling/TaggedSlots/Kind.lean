import TaggedSlots.Value

/-! # Slot kinds

A slot carries a kind beside its value. It starts out `illegal`, or with a kind
that was declared for it, and is specialised to a primitive type while only
values of that type are stored; once something else is stored it is a generic
`object` slot.

Kinds only ever *widen*. `canWidenTo` is a partial order of height two: `illegal`
is below everything, `object` is above everything, and the three primitive kinds
in between are unrelated. `join` is its least upper bound.
-/
namespace TaggedSlots

/-- The tag of a slot. -/
inductive Kind where
  /-- Not specialised yet. -/
  | illegal
  /-- Specialised to one primitive type. -/
  | primitive (type : Primitive)
  /-- Generic: any value may be stored. -/
  | object
deriving DecidableEq

namespace Kind

/-- The name of a kind. -/
def name : Kind → String
  | .illegal => "illegal"
  | .primitive p => p.name
  | .object => "object"

/-- Whether a slot of the first kind may become one of the second. -/
def canWidenTo (a b : Kind) : Bool := a == b || a == .illegal || b == .object

/-- The least kind to which both kinds can be widened. -/
def join (a b : Kind) : Kind :=
  if a.canWidenTo b then b else if b.canWidenTo a then a else .object

@[simp] theorem canWidenTo_refl (k : Kind) : k.canWidenTo k = true := by
  simp [canWidenTo]

@[simp] theorem canWidenTo_object (k : Kind) : k.canWidenTo .object = true := by
  simp [canWidenTo]

@[simp] theorem illegal_canWidenTo (k : Kind) : illegal.canWidenTo k = true := by
  simp [canWidenTo]

theorem canWidenTo_trans {a b c : Kind} (hab : a.canWidenTo b = true)
    (hbc : b.canWidenTo c = true) : a.canWidenTo c = true := by
  simp only [canWidenTo, Bool.or_eq_true, beq_iff_eq] at *
  grind

theorem canWidenTo_antisymm {a b : Kind} (hab : a.canWidenTo b = true)
    (hba : b.canWidenTo a = true) : a = b := by
  simp only [canWidenTo, Bool.or_eq_true, beq_iff_eq] at *
  grind

/-! ## Joins -/

@[simp] theorem illegal_join (k : Kind) : illegal.join k = k := by
  simp [join]

@[simp] theorem join_illegal (k : Kind) : k.join illegal = k := by
  by_cases h : k.canWidenTo illegal = true
  · rw [canWidenTo_antisymm h (illegal_canWidenTo k)]
    simp
  · simp [join, h]

@[simp] theorem join_self (k : Kind) : k.join k = k := by
  simp [join]

@[simp] theorem join_object (k : Kind) : k.join object = object := by
  simp [join]

@[simp] theorem object_join (k : Kind) : object.join k = object := by
  by_cases h : object.canWidenTo k = true
  · rw [canWidenTo_antisymm h (canWidenTo_object k)]
    simp
  · simp [join, h]

/-- A join is above its second part as well. -/
theorem canWidenTo_join_right (a b : Kind) : b.canWidenTo (a.join b) = true := by
  unfold join
  split
  · exact canWidenTo_refl b
  · split
    · assumption
    · exact canWidenTo_object b

/-- Joining with a kind that is already below changes nothing. -/
theorem join_eq_left {a b : Kind} (h : b.canWidenTo a = true) : a.join b = a := by
  by_cases hab : a.canWidenTo b = true
  · rw [canWidenTo_antisymm hab h, join_self]
  · simp [join, hab, h]

/-- Kinds that differ and are both decided have only `object` above them. -/
theorem join_of_ne {a b : Kind} (ha : a ≠ illegal) (hb : b ≠ illegal) (hab : a ≠ b) :
    a.join b = object := by
  by_cases h : a.canWidenTo b = true
  · simp only [canWidenTo, Bool.or_eq_true, beq_iff_eq] at h
    rcases h with (h | h) | h
    · exact absurd h hab
    · exact absurd h ha
    · rw [h, join_object]
  · by_cases h' : b.canWidenTo a = true
    · simp only [canWidenTo, Bool.or_eq_true, beq_iff_eq] at h'
      rcases h' with (h' | h') | h'
      · exact absurd h'.symm hab
      · exact absurd h' hb
      · rw [h', object_join]
    · simp [join, h, h']

/-- Joining with a decided kind gives that kind or the generic one. -/
theorem join_eq_or_object (a : Kind) {b : Kind} (hb : b ≠ illegal) :
    a.join b = b ∨ a.join b = object := by
  by_cases ha : a = illegal
  · exact .inl (by rw [ha, illegal_join])
  · by_cases hab : a = b
    · exact .inl (by rw [hab, join_self])
    · exact .inr (join_of_ne ha hb hab)

theorem join_ne_illegal {a b : Kind} (ha : a ≠ illegal) (hb : b ≠ illegal) :
    a.join b ≠ illegal := by
  by_cases hab : a = b
  · rw [hab, join_self]
    exact hb
  · rw [join_of_ne ha hb hab]
    simp

theorem join_eq_primitive_iff {a b : Kind} (ha : a ≠ illegal) (hb : b ≠ illegal) {p : Primitive} :
    a.join b = primitive p ↔ a = primitive p ∧ b = primitive p := by
  by_cases hab : a = b
  · rw [hab, join_self]
    exact ⟨fun h => ⟨h, h⟩, fun h => h.1⟩
  · rw [join_of_ne ha hb hab]
    constructor
    · intro h
      cases h
    · rintro ⟨rfl, rfl⟩
      exact absurd rfl hab

end Kind

/-- The narrowest kind of slot that can hold a value. -/
def Value.kind : Value → Kind
  | .long _ => .primitive .long
  | .double _ => .primitive .double
  | .boolean _ => .primitive .boolean
  | .array _ => .object

@[simp] theorem Value.kind_of (p : Primitive) (x : p.Carrier) :
    (Value.of p x).kind = .primitive p := by
  cases p <;> rfl

/-- A value has a primitive kind exactly when it holds a datum of that type. -/
theorem Value.kind_eq_primitive_iff {p : Primitive} {v : Value} :
    v.kind = .primitive p ↔ ∃ x, v = .of p x := by
  cases p <;> cases v <;> simp [Value.kind, Value.of]

/-- Every value decides the kind of a slot. -/
theorem Value.kind_ne_illegal (v : Value) : v.kind ≠ .illegal := by
  cases v <;> simp [Value.kind]

end TaggedSlots
