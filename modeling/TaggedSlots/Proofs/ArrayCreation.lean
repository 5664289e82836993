import TaggedSlots.Proofs.ArrayLengths
import TaggedSlots.Proofs.TypedEvaluation

/-! # How arrays are created

The creation of an array can go wrong in six ways, and more than one of them may apply at a
time: the size may be too large for a slot that does not exist anyway. Which one is reported
is fixed by the order in which things are looked at: the size expression, the size, the
memory, the slot. `Stmt.CreationEnds` has one rule for each way, and a rule for success. The
conditions of the rules exclude each other, one rule always applies
(`Stmt.exists_creationEnds`), and the creation ends as that rule says
(`Stmt.CreationEnds.result_eq`).

Where it succeeds, nothing is left of what was in the slot before, also if the size was
computed from it: the slot is generic and holds an array of zeros, which is seen by its
length and by its elements at every index, inside and outside of its bounds
(`array_creation_is_exact`).
-/
namespace TaggedSlots

/-! ## Operands that have to be longs -/

namespace Expr

/-- An expression denies a long to the node that needs one: it has no value, and its fault
is passed on; or its value is of another type, and the node raises a fault for that. -/
inductive DeniesLong (f : Frame) (node : NodeLabel) (e : Expr) : Fault → Prop where
  | faults {r : Fault} (fault : e.eval f = .error r) : DeniesLong f node e r
  | differs {v : Value} (value : e.eval f = .ok v) (other : ∀ n, v ≠ .long n) :
    DeniesLong f node e ⟨node, .mismatch ⟨.long, v⟩⟩

variable {f : Frame} {e : Expr}

/-- An expression is a long, or denies one. -/
theorem long_or_denied (f : Frame) (node : NodeLabel) (e : Expr) :
    (∃ n, e.eval f = .ok (.long n)) ∨ ∃ r, e.DeniesLong f node r := by
  cases h : e.eval f with
  | error r => exact .inr ⟨r, .faults h⟩
  | ok v =>
    cases v with
    | long n => exact .inl ⟨n, rfl⟩
    | _ => exact .inr ⟨_, .differs h (by simp)⟩

theorem evalAs_of_long {n : Int64} (h : e.eval f = .ok (.long n)) :
    e.evalAs .long f = .ok n := by
  rw [evalAs_eq_expect]
  exact expect_eq_ok_iff.mpr h

/-- The typed answer of an expression that denies a long leads to the same fault. -/
theorem DeniesLong.evalAs_eq {node : NodeLabel} {r : Fault} (h : e.DeniesLong f node r) :
    ∃ err, e.evalAs .long f = .error err ∧ err.toFault node = r := by
  rw [evalAs_eq_expect]
  cases h with
  | faults fault => exact ⟨.fault r, expect_eq_fault_iff.mpr fault, rfl⟩
  | differs value other => exact ⟨_, expect_eq_mismatch_iff.mpr ⟨rfl, value, other⟩, rfl⟩

end Expr

/-! ## The rules -/

/-- Rules decide how an outcome ends if one of them always applies and the result is as it
says: then every result comes from a rule. -/
theorem Outcome.result_iff_of_rules {ε α : Type} {o : Outcome ε} {Ends : Except ε α → Prop}
    (applies : ∃ ending, Ends ending)
    (agrees : ∀ ending, Ends ending → o.result = ending.map fun _ => ()) :
    (∀ r, o.result = .error r ↔ Ends (.error r)) ∧ (o.result = .ok () ↔ ∃ a, Ends (.ok a)) := by
  obtain ⟨ending, hending⟩ := applies
  refine ⟨fun r => ⟨fun h => ?_, agrees (.error r)⟩, ⟨fun h => ?_, ?_⟩⟩
  · rw [agrees ending hending] at h
    cases ending with
    | error r' => exact Except.error.inj h ▸ hending
    | ok a => cases h
  · rw [agrees ending hending] at h
    cases ending with
    | error r => cases h
    | ok a => exact ⟨a, hending⟩
  · rintro ⟨a, ha⟩
    exact agrees (.ok a) ha

namespace Stmt

/-- How the creation of an array ends: with a fault, or with a length. Every rule includes
that the ones before it do not apply. -/
inductive CreationEnds (mem : Allocator) (f : Frame) (s : SlotId) (e : Expr) :
    Except Fault Nat → Prop where
  /-- The size is not a long. -/
  | noSize {r : Fault} (denied : e.DeniesLong f (Stmt.create s e).label r) :
    CreationEnds mem f s e (.error r)
  /-- The size is negative. -/
  | negative {k : Int64} (size : e.eval f = .ok (.long k)) (below : k.toInt < 0) :
    CreationEnds mem f s e (.error ⟨(Stmt.create s e).label, .negativeArraySize k⟩)
  /-- The size is above the largest length. -/
  | tooLarge {k : Int64} (size : e.eval f = .ok (.long k)) (above : 2147483647 < k.toInt) :
    CreationEnds mem f s e (.error ⟨(Stmt.create s e).label, .arraySizeTooLarge k 2147483647⟩)
  /-- There is no memory for an array of this length. -/
  | noMemory {k : Int64} {n : Nat} (size : e.eval f = .ok (.long k)) (length : k.toInt = n)
    (allowed : n ≤ 2147483647) (short : mem.zeroed? n = none) :
    CreationEnds mem f s e (.error ⟨(Stmt.create s e).label, .allocationFailed n⟩)
  /-- The slot does not exist. -/
  | noSlot {k : Int64} {n : Nat} (size : e.eval f = .ok (.long k)) (length : k.toInt = n)
    (allowed : n ≤ 2147483647) (provided : mem.zeroed? n ≠ none) (missing : f.size ≤ s.index) :
    CreationEnds mem f s e (.error ⟨(Stmt.create s e).label, .access (.invalidSlot s)⟩)
  /-- Nothing is in the way. -/
  | created {k : Int64} {n : Nat} (size : e.eval f = .ok (.long k)) (length : k.toInt = n)
    (allowed : n ≤ 2147483647) (provided : mem.zeroed? n ≠ none) (present : s.index < f.size) :
    CreationEnds mem f s e (.ok n)

section Creation
variable {mem : Allocator} {f : Frame} {s : SlotId} {e : Expr}

/-- One of the rules always applies. -/
theorem exists_creationEnds (mem : Allocator) (f : Frame) (s : SlotId) (e : Expr) :
    ∃ ending, CreationEnds mem f s e ending := by
  rcases e.long_or_denied f (Stmt.create s e).label with ⟨k, hk⟩ | ⟨r, hr⟩
  · by_cases hneg : k.toInt < 0
    · exact ⟨_, .negative hk hneg⟩
    · by_cases hmax : 2147483647 < k.toInt
      · exact ⟨_, .tooLarge hk hmax⟩
      · have hlength : k.toInt = k.toInt.toNat := by omega
        have hallowed : k.toInt.toNat ≤ 2147483647 := by omega
        by_cases hmem : mem.zeroed? k.toInt.toNat = none
        · exact ⟨_, .noMemory hk hlength hallowed hmem⟩
        · rcases Nat.lt_or_ge s.index f.size with hs | hs
          · exact ⟨_, .created hk hlength hallowed hmem hs⟩
          · exact ⟨_, .noSlot hk hlength hallowed hmem hs⟩
  · exact ⟨_, .noSize hr⟩

theorem zeroed?_eq_some {n : Nat} (h : mem.zeroed? n ≠ none) :
    mem.zeroed? n = some (.zeroed n) := by
  unfold Allocator.zeroed? at h ⊢
  split
  · rfl
  next hmem => exact absurd (if_neg hmem) h

/-- An array is provided if the size is allowed and there is memory. -/
theorem createdArray_of_provided {k : Int64} {n : Nat} (size : e.eval f = .ok (.long k))
    (length : k.toInt = n) (allowed : n ≤ 2147483647) (provided : mem.zeroed? n ≠ none) :
    createdArray mem f s e = .ok (.zeroed n) := by
  have hlen : LongArray.lengthOfSize k = .ok n :=
    LongArray.lengthOfSize_eq_ok_iff.mpr ⟨length, allowed⟩
  simp only [createdArray, Expr.evalAs_of_long size, hlen, zeroed?_eq_some provided]

/-- **The rules are followed.** A creation ends as the rule says that applies to it, and if
that is a success, an array of zeros is put into the slot. -/
theorem CreationEnds.exec_eq {ending : Except Fault Nat} (h : CreationEnds mem f s e ending) :
    ((Stmt.create s e).exec mem f).quiet =
      match ending with
      | .error r => .fail r f
      | .ok n => .done (f.put s ⟨.object, some (.array (.zeroed n))⟩) := by
  rw [exec, execCreate_quiet]
  cases h with
  | noSize denied =>
    obtain ⟨err, herr, rfl⟩ := denied.evalAs_eq
    simp only [createdArray, herr]
  | @negative k size below =>
    have hlen : LongArray.lengthOfSize k = .error (.negativeArraySize k) := by
      simp only [LongArray.lengthOfSize, Long.toIndex?, if_pos below]
    simp only [createdArray, Expr.evalAs_of_long size, hlen]
  | @tooLarge k size above =>
    have hpos : ¬ k.toInt < 0 := by omega
    have hmax : ¬ k.toInt.toNat ≤ LongArray.maxLength := by
      unfold LongArray.maxLength
      omega
    have hlen : LongArray.lengthOfSize k = .error (.arraySizeTooLarge k LongArray.maxLength) := by
      simp only [LongArray.lengthOfSize, Long.toIndex?, if_neg hpos, if_neg hmax]
    simp only [createdArray, Expr.evalAs_of_long size, hlen]
    rfl
  | @noMemory k n size length allowed short =>
    have hlen : LongArray.lengthOfSize k = .ok n :=
      LongArray.lengthOfSize_eq_ok_iff.mpr ⟨length, allowed⟩
    simp only [createdArray, Expr.evalAs_of_long size, hlen, short]
  | noSlot size length allowed provided missing =>
    rw [createdArray_of_provided size length allowed provided, Frame.slot?_eq_none_iff.mpr missing]
  | created size length allowed provided present =>
    obtain ⟨old, hold⟩ := Frame.exists_slot?_iff.mpr present
    rw [createdArray_of_provided size length allowed provided, hold]

theorem CreationEnds.result_eq {ending : Except Fault Nat} (h : CreationEnds mem f s e ending) :
    ((Stmt.create s e).exec mem f).result = ending.map fun _ => () := by
  rw [← Outcome.result_quiet, h.exec_eq]
  cases ending <;> rfl

end Creation

end Stmt

/-! ## Looking into an array -/

section Elements
variable {f : Frame} {s : SlotId} {a : LongArray}

/-- The element at a literal index is the one at that position, if there is one. -/
theorem Expr.eval_element_literal (ha : f.array s = .ok a) (i : Int64) :
    (Expr.element s (.literal (.long i))).eval f =
      match (Long.toIndex? i).bind a.get? with
      | some n => .ok (.long n)
      | none => .error ⟨(Expr.element s (.literal (.long i))).label,
          .indexOutOfBounds i a.length⟩ := by
  have hindex : (Expr.literal (.long i)).evalLong f = .ok i := rfl
  simp only [eval, hindex, elementOf, Frame.elementAt, ha]
  cases (Long.toIndex? i).bind a.get? <;> rfl

/-- Every index inside of the bounds finds a zero in an array of zeros. -/
theorem LongArray.bind_get?_zeroed (n : Nat) (i : Int64) :
    (Long.toIndex? i).bind (LongArray.zeroed n).get? =
      if 0 ≤ i.toInt ∧ i.toInt < n then some 0 else none := by
  by_cases hneg : i.toInt < 0
  · rw [Long.toIndex?, if_pos hneg, if_neg (by omega)]
    rfl
  · rw [Long.toIndex?, if_neg hneg, Option.bind_some, get?_zeroed]
    by_cases hlt : i.toInt < n
    · rw [if_pos (by omega), if_pos ⟨by omega, hlt⟩]
    · rw [if_neg (by omega), if_neg (by omega)]

end Elements

/-- **Array creation is exact.** The creation of an array faults exactly as one of the rules
says, in the order of the rules, and succeeds exactly when nothing is in the way. Where it
succeeds with a length, the slot is generic and holds that many zeros, whatever it held
before; no other slot has changed; the length of the array evaluates to the length; and an
element evaluates to zero at every index that is inside of the bounds, and to a fault at
every other one. -/
theorem array_creation_is_exact (mem : Allocator) (f : Frame) (s : SlotId) (e : Expr) :
    let o := (Stmt.create s e).exec mem f
    (∀ r, o.result = .error r ↔ Stmt.CreationEnds mem f s e (.error r)) ∧
    (o.result = .ok () ↔ ∃ n, Stmt.CreationEnds mem f s e (.ok n)) ∧
    ∀ n, Stmt.CreationEnds mem f s e (.ok n) →
      o.frame.kind s = .ok .object ∧
      (∃ a, o.frame.array s = .ok a ∧ a.elements.toList = List.replicate n 0) ∧
      (o.frame.size = f.size ∧ ∀ t, t ≠ s → o.frame.slot? t = f.slot? t) ∧
      (∃ k : Int64, k.toInt = n ∧ (Expr.length s).eval o.frame = .ok (.long k)) ∧
      ∀ i : Int64, (Expr.element s (.literal (.long i))).eval o.frame =
        if 0 ≤ i.toInt ∧ i.toInt < n then .ok (.long 0)
        else .error ⟨⟨"ReadArrayElement", some s⟩, .indexOutOfBounds i n⟩ := by
  intro o
  obtain ⟨herror, hok⟩ := Outcome.result_iff_of_rules (o := o)
    (Stmt.exists_creationEnds mem f s e) fun _ h => h.result_eq
  refine ⟨herror, hok, fun n h => ?_⟩
  obtain ⟨hallowed, hpresent⟩ : n ≤ 2147483647 ∧ s.index < f.size := by
    cases h with
    | created _ _ allowed _ present => exact ⟨allowed, present⟩
  obtain ⟨old, hold⟩ := Frame.exists_slot?_iff.mpr hpresent
  have hframe : o.frame = f.put s ⟨.object, some (.array (.zeroed n))⟩ :=
    (Outcome.quiet_eq_done_iff.mp h.exec_eq).2
  have hslot : o.frame.slot? s = some ⟨.object, some (.array (.zeroed n))⟩ := by
    rw [hframe, Frame.slot?_put_self hold]
  have harray : o.frame.array s = .ok (.zeroed n) :=
    Frame.array_eq_ok_iff.mpr ⟨_, hslot, rfl⟩
  refine ⟨by rw [Frame.kind, hslot], ⟨_, harray, Array.toList_replicate⟩, ⟨?_, ?_⟩, ?_, ?_⟩
  · rw [hframe, Frame.size_put]
  · intro t ht
    rw [hframe, Frame.slot?_put_ne ht]
  · refine ⟨Int64.ofNat n, Int64.toInt_ofNat_of_lt (by omega), ?_⟩
    simpa using Expr.eval_length harray
  · intro i
    rw [Expr.eval_element_literal harray, LongArray.bind_get?_zeroed, LongArray.length_zeroed]
    by_cases hi : 0 ≤ i.toInt ∧ i.toInt < n
    · simp only [if_pos hi]
    · simp only [if_neg hi]
      rfl

/-- A slot for longs holds an array, and the size of a new array for this slot is read from
its first element. Two zeros are left of it. With memory for four elements an array of five
is refused for lack of memory, although the slot for it does not exist either. -/
theorem creation_sized_by_replaced_array :
    let a : SlotId := ⟨0⟩
    let f : Frame := ⟨[⟨.primitive .long, some (.array ⟨#[2, 8, 9]⟩)⟩]⟩
    let size := Expr.element a (.literal (.long 0))
    let o := (Stmt.create a size).exec (.atMost 4) f
    let five := Stmt.create ⟨7⟩ (.literal (.long 5))
    Stmt.CreationEnds (.atMost 4) f a size (.ok 2) ∧
      o.result = .ok () ∧ o.frame.kind a = .ok .object ∧
      (∃ b, o.frame.array a = .ok b ∧ b.elements.toList = [0, 0]) ∧
      (Expr.element a (.literal (.long 1))).eval o.frame = .ok (.long 0) ∧
      (Expr.element a (.literal (.long 2))).eval o.frame =
        .error ⟨⟨"ReadArrayElement", some a⟩, .indexOutOfBounds 2 2⟩ ∧
      (Expr.element a (.literal (.long (-1)))).eval o.frame =
        .error ⟨⟨"ReadArrayElement", some a⟩, .indexOutOfBounds (-1) 2⟩ ∧
      (five.exec (.atMost 4) f).result = .error ⟨five.label, .allocationFailed 5⟩ := by
  intro a f size o five
  have hends : Stmt.CreationEnds (.atMost 4) f a size (.ok 2) :=
    .created (k := 2) rfl rfl (by decide) (by decide) (by decide)
  have hfive : Stmt.CreationEnds (.atMost 4) f ⟨7⟩ (.literal (.long 5))
      (.error ⟨five.label, .allocationFailed 5⟩) :=
    .noMemory (k := 5) rfl rfl (by decide) (by decide)
  obtain ⟨-, hok, hcreated⟩ := array_creation_is_exact (.atMost 4) f a size
  obtain ⟨hkind, hzeros, -, -, helement⟩ := hcreated 2 hends
  refine ⟨hends, hok.mpr ⟨2, hends⟩, hkind, hzeros, helement 1, helement 2, helement (-1), ?_⟩
  exact ((array_creation_is_exact (.atMost 4) f ⟨7⟩ (.literal (.long 5))).1 _).mpr hfive

end TaggedSlots
