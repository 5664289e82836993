import TaggedSlots.Layout
import TaggedSlots.Proofs.History

/-! # The kind of a slot is the join of its history

Executing statements changes the kind of a slot in two ways: assignments decide or
generalise it, and the creation of an array makes it generic. What a slot ends up
with does not depend on the order, the nesting or the faults in between, but only
on what was really stored: it is the join of the kind that the slot started with
and the kinds of the values that were stored in it (`kind_eq_join_of_history`). So
a slot stays specialised for as long as everything stored in it is of one type,
and no longer.

The history is read off the execution itself. `Stmt.reached` lists the single
statements that an execution gets to, with the frame each of them is executed on;
`Stmt.contribution?` is the kind that one of them adds to the history of a slot.
-/
namespace TaggedSlots

/-! ## Joins of many kinds -/

namespace Kind

/-- A join of decided kinds is primitive exactly when all of them are that kind. -/
theorem foldl_join_eq_primitive_iff {ks : List Kind} (hks : ∀ k ∈ ks, k ≠ illegal) {a : Kind}
    (ha : a ≠ illegal) {p : Primitive} :
    ks.foldl join a = primitive p ↔ a = primitive p ∧ ∀ k ∈ ks, k = primitive p := by
  induction ks generalizing a with
  | nil => simp
  | cons k ks ih =>
    have hk : k ≠ illegal := hks k List.mem_cons_self
    have hrest : ∀ k' ∈ ks, k' ≠ illegal := fun k' hk' => hks k' (List.mem_cons_of_mem k hk')
    rw [List.foldl_cons, ih hrest (join_ne_illegal ha hk), join_eq_primitive_iff ha hk,
      List.forall_mem_cons, and_assoc]

/-- From an undecided kind on, the join is primitive exactly when something is
joined and everything is that kind. -/
theorem foldl_join_illegal_eq_primitive_iff {ks : List Kind} (hks : ∀ k ∈ ks, k ≠ illegal)
    {p : Primitive} :
    ks.foldl join illegal = primitive p ↔ ks ≠ [] ∧ ∀ k ∈ ks, k = primitive p := by
  cases ks with
  | nil => simp
  | cons k ks =>
    have hrest : ∀ k' ∈ ks, k' ≠ illegal := fun k' hk' => hks k' (List.mem_cons_of_mem k hk')
    rw [List.foldl_cons, illegal_join,
      foldl_join_eq_primitive_iff hrest (hks k List.mem_cons_self), List.forall_mem_cons]
    exact ⟨fun h => ⟨List.cons_ne_nil k ks, h⟩, fun h => h.2⟩

end Kind

/-! ## Histories -/

/-- The kind of a slot, if the frame has it. -/
def Frame.kind? (f : Frame) (s : SlotId) : Option Kind := (f.slot? s).map Slot.kind

theorem Frame.kind?_of_slot? {f : Frame} {s : SlotId} {e : Slot} (h : f.slot? s = some e) :
    f.kind? s = some e.kind := by
  rw [kind?, h, Option.map_some]

theorem Frame.kind_eq_ok_iff {f : Frame} {s : SlotId} {k : Kind} :
    f.kind s = .ok k ↔ f.kind? s = some k := by
  cases hs : f.slot? s <;> simp [kind, kind?, hs]

namespace Stmt

mutual

/-- The single statements that executing a statement gets to, in order, each with
the frame that it is executed on. Nothing behind a fault is reached. -/
def reached (mem : Allocator) (f : Frame) : Stmt → List (Frame × Stmt)
  | .assign s e => [(f, .assign s e)]
  | .create s e => [(f, .create s e)]
  | .store s i v => [(f, .store s i v)]
  | .block body => reachedAll mem f body

/-- The single statements that executing a list of statements gets to. -/
def reachedAll (mem : Allocator) (f : Frame) : List Stmt → List (Frame × Stmt)
  | [] => []
  | c :: rest =>
    c.reached mem f ++
      match (c.exec mem f).result with
      | .error _ => []
      | .ok () => reachedAll mem (c.exec mem f).frame rest

end

/-- The kind that a single statement adds to the history of a slot: that of the
value which an assignment has stored there, and `object` for an array that has
been created there. A statement that faults adds nothing, and neither does the
store of an element. -/
def contribution? (mem : Allocator) (s : SlotId) (f : Frame) (d : Stmt) : Option Kind :=
  match d, (d.exec mem f).result with
  | .assign t _, .ok () =>
    -- What the slot holds now is what has been stored.
    if t = s then ((d.exec mem f).frame.read s).toOption.map Value.kind else none
  | .create t _, .ok () => if t = s then some .object else none
  | _, _ => none

/-- What executing a statement adds to the history of a slot. -/
def contributions (mem : Allocator) (s : SlotId) (f : Frame) (c : Stmt) : List Kind :=
  (c.reached mem f).filterMap fun (g, d) => d.contribution? mem s g

/-- The history of a slot: what statements add to it that are executed one after
the other, each whatever became of the ones before it. -/
def history (mem : Allocator) (s : SlotId) (f : Frame) : List Stmt → List Kind
  | [] => []
  | c :: cs => c.contributions mem s f ++ history mem s (c.exec mem f).frame cs

/-! ## Contributions of single statements -/

section Step
variable {mem : Allocator} {f : Frame} {d : Stmt} {s t : SlotId}

theorem contribution?_of_fault {r : Fault} (h : (d.exec mem f).result = .error r) :
    d.contribution? mem s f = none := by
  unfold contribution?
  cases d <;> simp only [h]

theorem contribution?_of_ne (hd : d.target? = some t) (hts : t ≠ s) :
    d.contribution? mem s f = none := by
  unfold contribution?
  cases d with
  | assign u e =>
    obtain rfl : u = t := Option.some.inj hd
    cases (Stmt.exec mem f (.assign u e)).result <;> simp [hts]
  | create u e =>
    obtain rfl : u = t := Option.some.inj hd
    cases (Stmt.exec mem f (.create u e)).result <;> simp [hts]
  | store u i v => cases (Stmt.exec mem f (.store u i v)).result <;> rfl
  | block body => cases hd

/-- A statement that replaces a slot changes the slot's kind by what it adds to its
history. -/
theorem kind_of_replaces {old new : Slot} (hold : f.slot? s = some old)
    (hrep : Replaces mem f old d new) (hd : d.target? = some s)
    (hresult : (d.exec mem f).result = .ok ()) (hframe : (d.exec mem f).frame = f.put s new) :
    new.kind = (d.contribution? mem s f).toList.foldl Kind.join old.kind := by
  have hslot : (d.exec mem f).frame.slot? s = some new := by
    rw [hframe, Frame.slot?_put_self hold]
  cases hrep with
  | @assign u e v value =>
    obtain rfl : u = s := Option.some.inj hd
    have hc : (Stmt.assign u e).contribution? mem u f = some v.kind := by
      simp [contribution?, hresult, Frame.read, hslot, Except.toOption]
    rw [hc]
    rfl
  | @create u e a created =>
    obtain rfl : u = s := Option.some.inj hd
    have hc : (Stmt.create u e).contribution? mem u f = some .object := by
      simp [contribution?, hresult]
    rw [hc]
    exact (Kind.join_object old.kind).symm
  | @store u i v a b k n held replaced =>
    have hc : (Stmt.store u i v).contribution? mem s f = none := by
      simp [contribution?]
    rw [hc]
    rfl

/-- **One step.** The kind of every slot after a single statement is the join of
its kind before and what the statement adds to its history. -/
theorem kind?_after_step (hd : d.target? = some t) :
    (d.exec mem f).frame.kind? s =
      (f.kind? s).map fun k => (d.contribution? mem s f).toList.foldl Kind.join k := by
  rcases d.exec_cases mem f hd with ⟨r, hfault, hframe⟩ | ⟨old, new, hold, hrep, hok, hframe⟩
  · rw [contribution?_of_fault hfault, hframe]
    exact Option.map_id'.symm
  · by_cases hts : t = s
    · subst hts
      rw [hframe, Frame.kind?_of_slot? (Frame.slot?_put_self hold new), Frame.kind?_of_slot? hold,
        Option.map_some, kind_of_replaces hold hrep hd hok hframe]
    · rw [contribution?_of_ne hd hts, hframe, Frame.kind?, Frame.slot?_put_ne (Ne.symm hts)]
      exact Option.map_id'.symm

end Step

/-! ## Contributions of whole statements -/

theorem contributions_of_step (mem : Allocator) (s : SlotId) (f : Frame) {d : Stmt} {t : SlotId}
    (hd : d.target? = some t) :
    d.contributions mem s f = (d.contribution? mem s f).toList := by
  have hreached : d.reached mem f = [(f, d)] := by
    cases d with
    | block body => cases hd
    | _ => rw [reached]
  rw [contributions, hreached]
  cases hc : d.contribution? mem s f <;> simp [hc]

mutual

/-- The kind of every slot after a statement is the join of its kind before and
what the statement adds to its history. -/
theorem kind?_after_exec (mem : Allocator) (s : SlotId) : ∀ (c : Stmt) (f : Frame),
    (c.exec mem f).frame.kind? s =
      (f.kind? s).map fun k => (c.contributions mem s f).foldl Kind.join k
  | .assign t e, f => by
    rw [contributions_of_step mem s f rfl]
    exact kind?_after_step rfl
  | .create t e, f => by
    rw [contributions_of_step mem s f rfl]
    exact kind?_after_step rfl
  | .store t i v, f => by
    rw [contributions_of_step mem s f rfl]
    exact kind?_after_step rfl
  | .block body, f => by
    rw [exec, contributions, reached]
    exact kind?_after_execAll mem s body f

theorem kind?_after_execAll (mem : Allocator) (s : SlotId) : ∀ (body : List Stmt) (f : Frame),
    (execAll mem f body).frame.kind? s =
      (f.kind? s).map fun k =>
        ((reachedAll mem f body).filterMap fun (g, d) => d.contribution? mem s g).foldl Kind.join k
  | [], f => Option.map_id'.symm
  | c :: rest, f => by
    have hc := kind?_after_exec mem s c f
    rw [contributions] at hc
    rw [execAll, reachedAll, List.filterMap_append]
    simp only [Outcome.after, Outcome.andThen]
    cases hr : (c.exec mem f).result with
    | error r => simpa using hc
    | ok u =>
      -- The rest starts from the kind that the first statement has left.
      have hrest := kind?_after_execAll mem s rest (c.exec mem f).frame
      rw [hc, Option.map_map] at hrest
      simpa only [List.foldl_append, Function.comp_def] using hrest

end

theorem contribution?_ne_illegal {mem : Allocator} {s : SlotId} {f : Frame} {d : Stmt} {k : Kind}
    (h : d.contribution? mem s f = some k) : k ≠ .illegal := by
  unfold contribution? at h
  split at h
  · split at h
    · obtain ⟨v, -, rfl⟩ := Option.map_eq_some_iff.mp h
      exact v.kind_ne_illegal
    · cases h
  · split at h
    · cases h
      simp
    · cases h
  · cases h

/-- Everything that is added to a history is a decided kind. -/
theorem history_ne_illegal (mem : Allocator) (s : SlotId) (f : Frame) (cs : List Stmt) :
    ∀ k ∈ history mem s f cs, k ≠ .illegal := by
  induction cs generalizing f with
  | nil =>
    intro k hk
    cases hk
  | cons c cs ih =>
    intro k hk
    rcases List.mem_append.mp hk with hk | hk
    · obtain ⟨⟨g, d⟩, -, hd⟩ := List.mem_filterMap.mp hk
      exact contribution?_ne_illegal hd
    · exact ih _ k hk

/-- **A run.** The kind of every slot after statements that are executed one after
the other is the join of its kind before and its history. -/
theorem kind?_after_history (mem : Allocator) (s : SlotId) (cs : List Stmt) (f : Frame) :
    (Operation.performAll mem f (cs.map .exec)).1.kind? s =
      (f.kind? s).map fun k => (history mem s f cs).foldl Kind.join k := by
  induction cs generalizing f with
  | nil => exact Option.map_id'.symm
  | cons c cs ih =>
    have hc := kind?_after_exec mem s c f
    have hrest := ih (c.exec mem f).frame
    rw [hc, Option.map_map] at hrest
    simpa only [List.map_cons, Operation.performAll, Operation.perform, history,
      List.foldl_append, Function.comp_def] using hrest

end Stmt

/-- **The kind of a slot is the join of its history.** Statements are executed one
after the other, each whatever became of the ones before it, and a slot of the
frame ends up with the join of the kind it started with and everything that was
added to its history. A slot that was not specialised ends up specialised to a
primitive type exactly when something was stored in it and all of it was of that
type. The last two lines say what a join is. -/
theorem kind_eq_join_of_history (mem : Allocator) (f : Frame) (cs : List Stmt) {s : SlotId}
    {start : Kind} (h : f.kind s = .ok start) :
    (Operation.performAll mem f (cs.map .exec)).1.kind s =
      .ok ((Stmt.history mem s f cs).foldl Kind.join start) ∧
    (start = .illegal → ∀ p,
      ((Operation.performAll mem f (cs.map .exec)).1.kind s = .ok (.primitive p) ↔
        Stmt.history mem s f cs ≠ [] ∧ ∀ k ∈ Stmt.history mem s f cs, k = .primitive p)) ∧
    (∀ k, Kind.illegal.join k = k ∧ k.join .illegal = k ∧ k.join k = k) ∧
    (∀ a b : Kind, a ≠ .illegal → b ≠ .illegal → a ≠ b → a.join b = .object) := by
  have hkind : (Operation.performAll mem f (cs.map .exec)).1.kind s =
      .ok ((Stmt.history mem s f cs).foldl Kind.join start) := by
    rw [Frame.kind_eq_ok_iff, Stmt.kind?_after_history, Frame.kind_eq_ok_iff.mp h, Option.map_some]
  refine ⟨hkind, ?_, fun k => ⟨k.illegal_join, k.join_illegal, k.join_self⟩,
    fun a b ha hb hab => Kind.join_of_ne ha hb hab⟩
  rintro rfl p
  rw [hkind, Except.ok.injEq]
  exact Kind.foldl_join_illegal_eq_primitive_iff (Stmt.history_ne_illegal mem s f cs)

/-- Two slots that are not specialised. The first receives a long, then another one
in a block that faults behind it; the second receives a boolean and then an array. -/
theorem kind_after_faulting_block :
    let a : SlotId := ⟨0⟩
    let b : SlotId := ⟨1⟩
    let f := Layout.newFrame ⟨[⟨"a", .illegal⟩, ⟨"b", .illegal⟩]⟩
    let cs : List Stmt := [.assign a (.literal (.long 1)), .assign b (.literal (.boolean true)),
      .block [.block [.assign a (.read a)], .store a (.read a) (.read a), .create a (.read a)],
      .create b (.read a)]
    let g := (Operation.performAll .unlimited f (cs.map .exec)).1
    (f.kind a = .ok .illegal ∧ f.kind b = .ok .illegal) ∧
      Stmt.history .unlimited a f cs = [.primitive .long, .primitive .long] ∧
      g.kind a = .ok (.primitive .long) ∧
      Stmt.history .unlimited b f cs = [.primitive .boolean, .object] ∧
      g.kind b = .ok .object := by
  intro a b f cs g
  have ha : f.kind a = .ok .illegal := rfl
  have hb : f.kind b = .ok .illegal := rfl
  have hista : Stmt.history .unlimited a f cs = [.primitive .long, .primitive .long] := by decide
  have histb : Stmt.history .unlimited b f cs = [.primitive .boolean, .object] := by decide
  refine ⟨⟨ha, hb⟩, hista, ?_, histb, ?_⟩
  · exact ((kind_eq_join_of_history .unlimited f cs ha).2.1 rfl .long).mpr (by simp [hista])
  · have hjoin := (kind_eq_join_of_history .unlimited f cs hb).1
    rw [histb] at hjoin
    exact hjoin

end TaggedSlots
