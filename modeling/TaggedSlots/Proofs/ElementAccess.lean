import TaggedSlots.Proofs.ArrayCreation
import TaggedSlots.Proofs.Flattening

/-! # Elements are stored and loaded

Storing an element and loading one go different ways: each evaluates its index, looks the
array up and checks the bounds for itself. They agree nevertheless, and together they obey
the laws of arrays (`element_access_obeys_array_laws`). What is stored at an index is loaded
from it, and every other index gives what it gave before, a fault included. Stores at
different indices may be exchanged, and of two stores at one index the second decides.

An index is a long, and may be negative or larger than every array. `LongArray.storeAt?` is
the replacement of an element at such an index; the laws are first shown for it, and a row of
stores is a row of these replacements (`Stmt.inTurn?_stores`).

What keeps an element from being stored is reported in a fixed order, for which
`Stmt.StoreEnds` has one rule each.
-/
namespace TaggedSlots

/-! ## Replacing elements -/

namespace LongArray
variable {a b : LongArray} {i j x y : Int64}

/-- Replaces the element at an index, if it is in bounds. -/
def storeAt? (a : LongArray) (i x : Int64) : Option LongArray :=
  (Long.toIndex? i).bind fun k => a.set? k x

/-- Replaces elements one after the other, if all of the indices are in bounds. -/
def storeAll? (a : LongArray) : List (Int64 × Int64) → Option LongArray
  | [] => some a
  | (i, x) :: rest => (a.storeAt? i x).bind fun b => b.storeAll? rest

theorem storeAt?_eq_none_iff :
    a.storeAt? i x = none ↔ i.toInt < 0 ∨ (a.length : Int) ≤ i.toInt :=
  Long.bind_toIndex?_eq_none_iff fun _ => set?_eq_none_iff

theorem exists_storeAt?_iff :
    (∃ b, a.storeAt? i x = some b) ↔ 0 ≤ i.toInt ∧ i.toInt < a.length := by
  rw [← Option.ne_none_iff_exists', ne_eq, storeAt?_eq_none_iff]
  omega

/-- A replacement takes place at the position that the index denotes. -/
theorem storeAt?_eq_some (h : a.storeAt? i x = some b) :
    ∃ k : Nat, i.toInt = k ∧ a.set? k x = some b := by
  obtain ⟨k, hk, hset⟩ := Option.bind_eq_some_iff.mp h
  exact ⟨k, Long.toIndex?_eq_some_iff.mp hk, hset⟩

/-- Behind a replacement the index finds the new element, and every other index what it found
before. -/
theorem bind_get?_of_storeAt? (h : a.storeAt? i x = some b) (j : Int64) :
    (Long.toIndex? j).bind b.get? = if j = i then some x else (Long.toIndex? j).bind a.get? := by
  obtain ⟨k, hk, hset⟩ := storeAt?_eq_some h
  by_cases hji : j = i
  · subst hji
    rw [if_pos rfl, Long.toIndex?_eq_some_iff.mpr hk, Option.bind_some, get?_of_set? hset,
      if_pos rfl]
  · rw [if_neg hji]
    cases hj : Long.toIndex? j with
    | none => rfl
    | some m =>
      have hm : j.toInt = m := Long.toIndex?_eq_some_iff.mp hj
      have hmk : m ≠ k := fun hmk => hji (Int64.toInt_inj.mp (by omega))
      rw [Option.bind_some, Option.bind_some, get?_of_set? hset, if_neg hmk]

/-- **Replacements at different positions may be exchanged.** -/
theorem set?_comm {m k : Nat} (h : m ≠ k) (a : LongArray) (x y : Int64) :
    ((a.set? m x).bind fun b => b.set? k y) = (a.set? k y).bind fun b => b.set? m x := by
  by_cases hm : m < a.elements.size
  · by_cases hk : k < a.elements.size
    · simp [set?, hm, hk, Array.set_comm x y h]
    · simp [set?, hm, hk]
  · by_cases hk : k < a.elements.size <;> simp [set?, hm, hk]

/-- **Of two replacements at one position the second decides.** -/
theorem set?_set? (a : LongArray) (k : Nat) (x y : Int64) :
    ((a.set? k x).bind fun b => b.set? k y) = a.set? k y := by
  by_cases hk : k < a.elements.size <;> simp [set?, hk]

theorem storeAt?_comm (h : i ≠ j) (a : LongArray) (x y : Int64) :
    ((a.storeAt? i x).bind fun b => b.storeAt? j y) =
      (a.storeAt? j y).bind fun b => b.storeAt? i x := by
  unfold storeAt?
  cases hi : Long.toIndex? i with
  | none => simp
  | some m =>
    cases hj : Long.toIndex? j with
    | none => simp
    | some k =>
      -- Different indices denote different positions.
      have hmk : m ≠ k := fun hmk => by
        have hm := Long.toIndex?_eq_some_iff.mp hi
        have hk := Long.toIndex?_eq_some_iff.mp hj
        exact h (Int64.toInt_inj.mp (by omega))
      exact set?_comm hmk a x y

theorem storeAt?_storeAt? (a : LongArray) (i x y : Int64) :
    ((a.storeAt? i x).bind fun b => b.storeAt? i y) = a.storeAt? i y := by
  unfold storeAt?
  cases Long.toIndex? i with
  | none => rfl
  | some k => exact set?_set? a k x y

end LongArray

/-! ## The rules of a store -/

namespace Stmt

/-- How the store of an element ends: with a fault, or with the index and the long that is
stored there. Every rule includes that the ones before it do not apply. -/
inductive StoreEnds (f : Frame) (s : SlotId) (i v : Expr) :
    Except Fault (Int64 × Int64) → Prop where
  /-- The index is not a long. -/
  | noIndex {r : Fault} (denied : i.DeniesLong f (Stmt.store s i v).label r) :
    StoreEnds f s i v (.error r)
  /-- The value is not a long. -/
  | noValue {k : Int64} {r : Fault} (index : i.eval f = .ok (.long k))
    (denied : v.DeniesLong f (Stmt.store s i v).label r) : StoreEnds f s i v (.error r)
  /-- The slot does not exist. -/
  | noSlot {k n : Int64} (index : i.eval f = .ok (.long k)) (value : v.eval f = .ok (.long n))
    (missing : f.size ≤ s.index) :
    StoreEnds f s i v (.error ⟨(Stmt.store s i v).label, .access (.invalidSlot s)⟩)
  /-- The slot has no value. -/
  | empty {k n : Int64} {kind : Kind} (index : i.eval f = .ok (.long k))
    (value : v.eval f = .ok (.long n)) (slot : f.slot? s = some ⟨kind, none⟩) :
    StoreEnds f s i v (.error ⟨(Stmt.store s i v).label, .access (.uninitialized s)⟩)
  /-- The slot holds something else than an array. -/
  | noArray {k n : Int64} {kind : Kind} {w : Value} (index : i.eval f = .ok (.long k))
    (value : v.eval f = .ok (.long n)) (slot : f.slot? s = some ⟨kind, some w⟩)
    (other : ∀ a, w ≠ .array a) :
    StoreEnds f s i v (.error ⟨(Stmt.store s i v).label, .access (.notAnArray s w.typeName)⟩)
  /-- The array has no such index. -/
  | outside {k n : Int64} {kind : Kind} {a : LongArray} (index : i.eval f = .ok (.long k))
    (value : v.eval f = .ok (.long n)) (slot : f.slot? s = some ⟨kind, some (.array a)⟩)
    (bounds : k.toInt < 0 ∨ (a.length : Int) ≤ k.toInt) :
    StoreEnds f s i v (.error ⟨(Stmt.store s i v).label, .indexOutOfBounds k a.length⟩)
  /-- Nothing is in the way. -/
  | stored {k n : Int64} {kind : Kind} {a : LongArray} (index : i.eval f = .ok (.long k))
    (value : v.eval f = .ok (.long n)) (slot : f.slot? s = some ⟨kind, some (.array a)⟩)
    (bounds : 0 ≤ k.toInt ∧ k.toInt < a.length) : StoreEnds f s i v (.ok (k, n))

section Store
variable {f : Frame} {s : SlotId} {i v : Expr}

/-- One of the rules always applies. -/
theorem exists_storeEnds (f : Frame) (s : SlotId) (i v : Expr) :
    ∃ ending, StoreEnds f s i v ending := by
  rcases i.long_or_denied f (Stmt.store s i v).label with ⟨k, hk⟩ | ⟨r, hr⟩
  · rcases v.long_or_denied f (Stmt.store s i v).label with ⟨n, hn⟩ | ⟨r, hr⟩
    · cases hs : f.slot? s with
      | none => exact ⟨_, .noSlot hk hn (Frame.slot?_eq_none_iff.mp hs)⟩
      | some e =>
        obtain ⟨kind, w⟩ := e
        cases w with
        | none => exact ⟨_, .empty hk hn hs⟩
        | some w =>
          cases w with
          | array a =>
            by_cases hbounds : 0 ≤ k.toInt ∧ k.toInt < a.length
            · exact ⟨_, .stored hk hn hs hbounds⟩
            · exact ⟨_, .outside hk hn hs (by omega)⟩
          | _ => exact ⟨_, .noArray hk hn hs (by simp)⟩
    · exact ⟨_, .noValue hk hr⟩
  · exact ⟨_, .noIndex hr⟩

/-- Once index and value are longs, the array decides. -/
theorem storedArray_of_longs {k n : Int64} (index : i.eval f = .ok (.long k))
    (value : v.eval f = .ok (.long n)) :
    storedArray f s i v =
      match f.array s with
      | .error err => .error ⟨(Stmt.store s i v).label, .access err⟩
      | .ok a =>
        match a.storeAt? k n with
        | none => .error ⟨(Stmt.store s i v).label, .indexOutOfBounds k a.length⟩
        | some b => .ok b := by
  simp only [storedArray, Expr.evalAs_of_long index, Expr.evalAs_of_long value]
  rfl

/-- A store that is refused by a rule faults as the rule says. -/
theorem StoreEnds.exec_error (mem : Allocator) {r : Fault} (h : StoreEnds f s i v (.error r)) :
    ((Stmt.store s i v).exec mem f).quiet = .fail r f := by
  have hstored : storedArray f s i v = .error r := by
    cases h with
    | noIndex denied =>
      obtain ⟨err, herr, rfl⟩ := denied.evalAs_eq
      simp only [storedArray, herr]
    | noValue index denied =>
      obtain ⟨err, herr, rfl⟩ := denied.evalAs_eq
      simp only [storedArray, Expr.evalAs_of_long index, herr]
    | noSlot index value missing =>
      have hs := Frame.slot?_eq_none_iff.mpr missing
      simp only [storedArray_of_longs index value, Frame.array, Frame.read, hs]
    | empty index value slot =>
      simp only [storedArray_of_longs index value, Frame.array, Frame.read, slot]
    | @noArray k n kind w index value slot other =>
      have hw : w.array? = none := by
        cases w with
        | array a => exact absurd rfl (other a)
        | _ => rfl
      simp only [storedArray_of_longs index value, Frame.array, Frame.read, slot, hw]
    | outside index value slot bounds =>
      have ha := Frame.array_eq_ok_iff.mpr ⟨_, slot, rfl⟩
      simp only [storedArray_of_longs index value, ha, LongArray.storeAt?_eq_none_iff.mpr bounds]
  rw [exec, execStore_quiet, hstored]

/-- A store that no rule refuses replaces the element, and keeps the kind of the slot. -/
theorem StoreEnds.exec_ok (mem : Allocator) {k n : Int64} (h : StoreEnds f s i v (.ok (k, n))) :
    ∃ kind a b, f.slot? s = some ⟨kind, some (.array a)⟩ ∧ a.storeAt? k n = some b ∧
      ((Stmt.store s i v).exec mem f).quiet = .done (f.put s ⟨kind, some (.array b)⟩) := by
  cases h with
  | @stored _ _ kind a index value slot bounds =>
    obtain ⟨b, hb⟩ := LongArray.exists_storeAt?_iff.mpr bounds
    have ha := Frame.array_eq_ok_iff.mpr ⟨_, slot, rfl⟩
    refine ⟨kind, a, b, slot, hb, ?_⟩
    simp only [exec, execStore_quiet, storedArray_of_longs index value, ha, hb,
      Frame.replaceArray_of_slot? slot]

/-- **The rules are followed.** A store ends as the rule says that applies to it. -/
theorem StoreEnds.result_eq (mem : Allocator) {ending : Except Fault (Int64 × Int64)}
    (h : StoreEnds f s i v ending) :
    ((Stmt.store s i v).exec mem f).result = ending.map fun _ => () := by
  cases ending with
  | error r => exact (Outcome.quiet_eq_fail_iff.mp (h.exec_error mem)).1
  | ok kn =>
    obtain ⟨kind, a, b, -, -, hexec⟩ := h.exec_ok mem
    exact (Outcome.quiet_eq_done_iff.mp hexec).1

end Store

/-! ## Rows of stores -/

section Rows
variable {f : Frame} {s : SlotId} {a : LongArray}

/-- The store of a literal long at a literal index. -/
abbrev storeLiteral (s : SlotId) (i x : Int64) : Stmt :=
  .store s (.literal (.long i)) (.literal (.long x))

theorem exec_storeLiteral (mem : Allocator) (ha : f.array s = .ok a) (i x : Int64) :
    ((storeLiteral s i x).exec mem f).quiet =
      match a.storeAt? i x with
      | none => .fail ⟨(storeLiteral s i x).label, .indexOutOfBounds i a.length⟩ f
      | some b => .done (f.replaceArray s b) := by
  rw [exec, execStore_quiet, storedArray_of_longs (k := i) (n := x) rfl rfl, ha]
  cases hb : a.storeAt? i x <;> simp only [hb]

theorem array_replaceArray (ha : f.array s = .ok a) (b : LongArray) :
    (f.replaceArray s b).array s = .ok b := by
  obtain ⟨old, hold, -⟩ := Frame.array_eq_ok_iff.mp ha
  rw [Frame.replaceArray_of_slot? hold]
  exact Frame.array_eq_ok_iff.mpr ⟨_, Frame.slot?_put_self hold _, rfl⟩

/-- Only the last array that is put into a slot counts. -/
theorem replaceArray_replaceArray (ha : f.array s = .ok a) (b c : LongArray) :
    (f.replaceArray s b).replaceArray s c = f.replaceArray s c := by
  obtain ⟨old, hold, -⟩ := Frame.array_eq_ok_iff.mp ha
  have hput := Frame.slot?_put_self hold { old with value := some (.array b) }
  rw [Frame.replaceArray_of_slot? hold, Frame.replaceArray_of_slot? hput,
    Frame.replaceArray_of_slot? hold, Frame.put_put]

theorem replaceArray_self (ha : f.array s = .ok a) : f.replaceArray s a = f := by
  obtain ⟨old, hold, hvalue⟩ := Frame.array_eq_ok_iff.mp ha
  rw [Frame.replaceArray_of_slot? hold, ← hvalue]
  exact Frame.put_of_slot? hold

/-- **A row of stores into one slot** is the row of the replacements in its array. -/
theorem inTurn?_stores (mem : Allocator) (ha : f.array s = .ok a)
    (stores : List (Int64 × Int64)) :
    inTurn? mem f (stores.map fun (i, x) => storeLiteral s i x) =
      (a.storeAll? stores).map (f.replaceArray s) := by
  induction stores generalizing f a with
  | nil => exact congrArg some (replaceArray_self ha).symm
  | cons store rest ih =>
    obtain ⟨i, x⟩ := store
    have hexec := exec_storeLiteral mem ha i x
    rw [List.map_cons, LongArray.storeAll?]
    cases hb : a.storeAt? i x with
    | none =>
      rw [hb] at hexec
      rw [inTurn?_cons_of_error (Outcome.quiet_eq_fail_iff.mp hexec).1]
      rfl
    | some b =>
      rw [hb] at hexec
      obtain ⟨hok, hframe⟩ := Outcome.quiet_eq_done_iff.mp hexec
      have hlast : (f.replaceArray s b).replaceArray s = f.replaceArray s :=
        funext (replaceArray_replaceArray ha b)
      rw [inTurn?_cons_of_ok hok, hframe, ih (array_replaceArray ha b), hlast]
      rfl

/-- Without an array in the slot no store succeeds. -/
theorem inTurn?_store_of_no_array (mem : Allocator) {err : AccessError}
    (ha : f.array s = .error err) (i x : Int64) (rest : List Stmt) :
    inTurn? mem f (storeLiteral s i x :: rest) = none := by
  have hexec : ((storeLiteral s i x).exec mem f).quiet =
      .fail ⟨(storeLiteral s i x).label, .access err⟩ f := by
    rw [exec, execStore_quiet, storedArray_of_longs (k := i) (n := x) rfl rfl, ha]
  exact inTurn?_cons_of_error (Outcome.quiet_eq_fail_iff.mp hexec).1 rest

end Rows

end Stmt

/-- **Element stores and loads obey the laws of arrays.** The store of an element faults
exactly as one of the rules says, in the order of the rules, and succeeds exactly when
nothing is in the way. Then the array in the slot has the same length, the new element at the
index and the old elements elsewhere; the kind of the slot and all other slots are as before;
and an element evaluates to the new one at this index, and at every other index to what it
evaluated to before. Two stores of literals into one slot can be exchanged if their indices
differ, and otherwise the second alone does the same as both: they succeed in the same cases
and leave the same frame. -/
theorem element_access_obeys_array_laws (mem : Allocator) (f : Frame) (s : SlotId) :
    (∀ i v : Expr,
      let o := (Stmt.store s i v).exec mem f
      (∀ r, o.result = .error r ↔ Stmt.StoreEnds f s i v (.error r)) ∧
      (o.result = .ok () ↔ ∃ k n, Stmt.StoreEnds f s i v (.ok (k, n))) ∧
      ∀ k n, Stmt.StoreEnds f s i v (.ok (k, n)) →
        (∃ a b, f.array s = .ok a ∧ o.frame.array s = .ok b ∧ b.length = a.length ∧
          ∀ j : Nat, b.get? j = if (j : Int) = k.toInt then some n else a.get? j) ∧
        o.frame.kind s = f.kind s ∧
        (o.frame.size = f.size ∧ ∀ t, t ≠ s → o.frame.slot? t = f.slot? t) ∧
        ∀ j : Int64, (Expr.element s (.literal (.long j))).eval o.frame =
          if j = k then .ok (.long n) else (Expr.element s (.literal (.long j))).eval f) ∧
    ∀ i j x y : Int64,
      let first := Stmt.store s (.literal (.long i)) (.literal (.long x))
      let second := Stmt.store s (.literal (.long j)) (.literal (.long y))
      (i ≠ j → Stmt.inTurn? mem f [first, second] = Stmt.inTurn? mem f [second, first]) ∧
      (i = j → Stmt.inTurn? mem f [first, second] = Stmt.inTurn? mem f [second]) := by
  refine ⟨fun i v => ?_, fun i j x y => ?_⟩
  · intro o
    obtain ⟨herror, hok⟩ := Outcome.result_iff_of_rules (o := o)
      (Stmt.exists_storeEnds f s i v) fun _ h => h.result_eq mem
    refine ⟨herror, hok.trans Prod.exists, fun k n h => ?_⟩
    obtain ⟨kind, a, b, hslot, hb, hexec⟩ := h.exec_ok mem
    have hframe : o.frame = f.put s ⟨kind, some (.array b)⟩ :=
      (Outcome.quiet_eq_done_iff.mp hexec).2
    have hslot' : o.frame.slot? s = some ⟨kind, some (.array b)⟩ := by
      rw [hframe, Frame.slot?_put_self hslot]
    have ha : f.array s = .ok a := Frame.array_eq_ok_iff.mpr ⟨_, hslot, rfl⟩
    have hb' : o.frame.array s = .ok b := Frame.array_eq_ok_iff.mpr ⟨_, hslot', rfl⟩
    obtain ⟨m, hm, hset⟩ := LongArray.storeAt?_eq_some hb
    have hlength : b.length = a.length := LongArray.length_of_set? hset
    refine ⟨⟨a, b, ha, hb', hlength, fun j => ?_⟩, ?_, ⟨?_, fun t ht => ?_⟩, fun j => ?_⟩
    · simp only [LongArray.get?_of_set? hset, hm, Int.natCast_inj]
    · rw [Frame.kind, Frame.kind, hslot, hslot']
    · rw [hframe, Frame.size_put]
    · rw [hframe, Frame.slot?_put_ne ht]
    · rw [Expr.eval_element_literal hb', Expr.eval_element_literal ha,
        LongArray.bind_get?_of_storeAt? hb, hlength]
      by_cases hjk : j = k
      · simp only [if_pos hjk]
      · simp only [if_neg hjk]
  · intro first second
    cases ha : f.array s with
    | error err =>
      have hnone := fun i x rest =>
        Stmt.inTurn?_store_of_no_array mem ha i x rest
      exact ⟨fun _ => by rw [hnone i x, hnone j y], fun _ => by rw [hnone i x, hnone j y]⟩
    | ok a =>
      have hstores := Stmt.inTurn?_stores mem ha
      constructor
      · intro hij
        refine (hstores [(i, x), (j, y)]).trans (Eq.trans ?_ (hstores [(j, y), (i, x)]).symm)
        simp [LongArray.storeAll?, LongArray.storeAt?_comm hij a x y]
      · rintro rfl
        refine (hstores [(i, x), (i, y)]).trans (Eq.trans ?_ (hstores [(i, y)]).symm)
        simp [LongArray.storeAll?, LongArray.storeAt?_storeAt? a i x y]

/-- Index and value are read from the array that is stored into: its first element and its
length. The slot is one for longs, and stays one. The next index loads what it loaded before,
the index behind the end faults as before, and a negative index is refused. The first two
elements may then be stored in either order. -/
theorem store_indexed_by_own_array :
    let a : SlotId := ⟨0⟩
    let f : Frame := ⟨[⟨.primitive .long, some (.array ⟨#[1, 6, 2]⟩)⟩]⟩
    let index := Expr.element a (.literal (.long 0))
    let load := fun i : Int64 => Expr.element a (.literal (.long i))
    let set := fun i x : Int64 => Stmt.store a (.literal (.long i)) (.literal (.long x))
    let o := (Stmt.store a index (.length a)).exec .unlimited f
    (Stmt.StoreEnds f a index (.length a) (.ok (1, 3)) ∧ (0 : Int64) ≠ 1) ∧
      o.result = .ok () ∧ o.frame.kind a = .ok (.primitive .long) ∧
      (load 1).eval o.frame = .ok (.long 3) ∧ (load 2).eval o.frame = .ok (.long 2) ∧
      (load 3).eval o.frame = .error ⟨(load 3).label, .indexOutOfBounds 3 3⟩ ∧
      ((set (-1) 0).exec .unlimited f).result =
        .error ⟨(set (-1) 0).label, .indexOutOfBounds (-1) 3⟩ ∧
      Stmt.inTurn? .unlimited f [set 0 8, set 1 9] =
        Stmt.inTurn? .unlimited f [set 1 9, set 0 8] ∧
      (Stmt.inTurn? .unlimited f [set 0 8, set 1 9]).isSome := by
  intro a f index load set o
  have hends : Stmt.StoreEnds f a index (.length a) (.ok (1, 3)) :=
    .stored (k := 1) (n := 3) rfl rfl rfl (by decide)
  have hnegative : Stmt.StoreEnds f a (.literal (.long (-1))) (.literal (.long 0))
      (.error ⟨(set (-1) 0).label, .indexOutOfBounds (-1) 3⟩) :=
    .outside (k := -1) (n := 0) (a := ⟨#[1, 6, 2]⟩) rfl rfl rfl (.inl (by decide))
  obtain ⟨hstore, hrows⟩ := element_access_obeys_array_laws .unlimited f a
  obtain ⟨-, hok, hstored⟩ := hstore index (.length a)
  obtain ⟨-, hkind, -, hload⟩ := hstored 1 3 hends
  refine ⟨⟨hends, by decide⟩, hok.mpr ⟨1, 3, hends⟩, hkind, hload 1, hload 2, hload 3, ?_, ?_, ?_⟩
  · exact ((hstore (.literal (.long (-1))) (.literal (.long 0))).1 _).mpr hnegative
  · exact (hrows 0 1 8 9).1 (by decide)
  · decide +kernel

end TaggedSlots
