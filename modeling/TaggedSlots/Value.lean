import TaggedSlots.Double
import TaggedSlots.Long

/-! # Values

A program computes with longs, doubles, booleans and arrays of longs. The first
three are *primitive*: a slot of their kind holds them directly, and an
expression can be asked for one of them by type. `Primitive` names the three
types and `Primitive.Carrier` gives the data each of them stands for, so a typed
result is an `Int64`, a `Float` or a `Bool`, never a `Value` that happens to have
the right shape.
-/
namespace TaggedSlots

/-! ## Primitive types -/

/-- A type whose values are stored without a box. -/
inductive Primitive where
  | long
  | double
  | boolean
deriving DecidableEq

namespace Primitive

/-- The data of a primitive type. -/
abbrev Carrier : Primitive → Type
  | .long => Int64
  | .double => Float
  | .boolean => Bool

/-- The name of a primitive type. -/
def name : Primitive → String
  | .long => "long"
  | .double => "double"
  | .boolean => "boolean"

end Primitive

/-! ## Arrays -/

/-- An array of longs. Its length is fixed when it is created. -/
structure LongArray where
  elements : Array Int64
deriving DecidableEq

namespace LongArray

/-- The largest number of elements an array may be created with. -/
def maxLength : Nat := 2147483647

/-- The array of `n` zeros. -/
def zeroed (n : Nat) : LongArray := ⟨Array.replicate n 0⟩

/-- The number of elements. -/
def length (a : LongArray) : Nat := a.elements.size

/-- Whether there are no elements. -/
def isEmpty (a : LongArray) : Bool := a.length == 0

/-- The element at a position, if the position is in bounds. -/
def get? (a : LongArray) (i : Nat) : Option Int64 := a.elements[i]?

/-- Replaces the element at a position, if the position is in bounds. -/
def set? (a : LongArray) (i : Nat) (n : Int64) : Option LongArray :=
  if h : i < a.elements.size then some ⟨a.elements.set i n h⟩ else none

@[simp] theorem length_zeroed (n : Nat) : (zeroed n).length = n := by
  simp [zeroed, length]

theorem get?_zeroed (n i : Nat) : (zeroed n).get? i = if i < n then some 0 else none := by
  simp [zeroed, get?, Array.getElem?_replicate]

/-- There is an element exactly at the positions below the length. -/
theorem get?_eq_none_iff {a : LongArray} {i : Nat} : a.get? i = none ↔ a.length ≤ i := by
  simp [get?, length]

/-- Replacing an element keeps the length. -/
theorem length_of_set? {a b : LongArray} {i : Nat} {n : Int64} (h : a.set? i n = some b) :
    b.length = a.length := by
  unfold set? at h
  split at h
  · cases h; simp [length]
  · simp at h

/-- After a replacement the position holds the new element and every other
position what it held before. -/
theorem get?_of_set? {a b : LongArray} {i : Nat} {n : Int64} (h : a.set? i n = some b) (j : Nat) :
    b.get? j = if j = i then some n else a.get? j := by
  unfold set? at h
  split at h
  next hi =>
    cases h
    simp only [get?, Array.getElem?_set]
    by_cases hj : j = i
    · subst hj; simp
    · simp [hj, Ne.symm hj]
  next => simp at h

/-- A replacement is refused exactly when the position is out of bounds. -/
theorem set?_eq_none_iff {a : LongArray} {i : Nat} {n : Int64} :
    a.set? i n = none ↔ a.length ≤ i := by
  unfold set? length
  split <;> simp <;> omega

/-- The text of an array: its elements between brackets, separated by a comma
and a blank. -/
def text (a : LongArray) : String :=
  "[" ++ ", ".intercalate (a.elements.toList.map Long.text) ++ "]"

end LongArray

/-- Which lengths the memory at hand can provide an array of. -/
abbrev Allocator := Nat → Bool

namespace Allocator

/-- An allocator that provides every length. -/
def unlimited : Allocator := fun _ => true

/-- An allocator that provides at most `n` elements. -/
def atMost (n : Nat) : Allocator := fun len => len ≤ n

/-- A fresh array of zeros, if the memory for it can be provided. -/
def zeroed? (mem : Allocator) (len : Nat) : Option LongArray :=
  if mem len then some (.zeroed len) else none

end Allocator

/-! ## Values -/

/-- What an expression yields and a slot holds. -/
inductive Value where
  | long (n : Int64)
  | double (x : Float)
  | boolean (b : Bool)
  | array (a : LongArray)
deriving DecidableEq

namespace Value

/-- Equality as programs see it: doubles are compared numerically, so NaN
differs from itself and the two zeros are equal; arrays are compared element by
element; values of different types differ. -/
def equal : Value → Value → Bool
  | .long m, .long n => m == n
  | .double x, .double y => x == y
  | .boolean b, .boolean c => b == c
  | .array a, .array b => a == b
  | _, _ => false

instance : BEq Value := ⟨equal⟩

/-- The value that holds a datum of a primitive type. -/
def of : (p : Primitive) → p.Carrier → Value
  | .long, n => .long n
  | .double, x => .double x
  | .boolean, b => .boolean b

/-- The datum of a value, if the value is of the given primitive type. There is
no coercion: a double is never a long. -/
def as? : (p : Primitive) → Value → Option p.Carrier
  | .long, .long n => some n
  | .double, .double x => some x
  | .boolean, .boolean b => some b
  | _, _ => none

@[simp] theorem as?_of (p : Primitive) (x : p.Carrier) : (Value.of p x).as? p = some x := by
  cases p <;> rfl

/-- A value gives a datum of a primitive type exactly when it holds that datum. -/
theorem as?_eq_some_iff {p : Primitive} {v : Value} {x : p.Carrier} :
    v.as? p = some x ↔ v = .of p x := by
  cases p <;> cases v <;> simp [as?, of]

theorem of_inj {p : Primitive} {x y : p.Carrier} : Value.of p x = .of p y ↔ x = y := by
  rw [← as?_eq_some_iff, as?_of, Option.some.injEq]

/-- The array of a value that is one. -/
def array? : Value → Option LongArray
  | .array a => some a
  | _ => none

/-- The name of a value's type. -/
def typeName : Value → String
  | .long _ => "long"
  | .double _ => "double"
  | .boolean _ => "boolean"
  | .array _ => "long[]"

/-- The text of a value. -/
def text : Value → String
  | .long n => Long.text n
  | .double x => Double.text x
  | .boolean b => if b then "true" else "false"
  | .array a => a.text

end Value

end TaggedSlots
