import TaggedSlots.Layout
import TaggedSlots.Proofs.History

/-! # Kinds and values stay in step

A slot is consistent when its kind admits its value (`Slot.isConsistent`). Only
the raw `Frame.write` can bring the two apart. Everything else that changes a
frame keeps every slot consistent, when it succeeds, when it is refused, and when
it faults halfway through a block (`consistent_of_tagged_history`). Writes that
carry a kind do more: they leave their slot consistent even if it was not before.

The invariant is a property of single slots, so it is enough to look at the three
ways in which a statement replaces a slot (`Stmt.Replaces.isConsistent`) and at
the five ways in which an update does (`Operation.Replaces.isConsistent`).
-/
namespace TaggedSlots

/-! ## Slots -/

namespace Slot

theorem isConsistent_iff {e : Slot} :
    e.isConsistent = true ↔ ∀ v, e.value = some v → e.kind = .object ∨ e.kind = v.kind := by
  obtain ⟨k, v⟩ := e
  cases v <;> simp [isConsistent]

/-- A slot whose kind has been joined with the kind of its value is consistent. -/
theorem isConsistent_join (k : Kind) (v : Value) :
    (⟨k.join v.kind, some v⟩ : Slot).isConsistent = true := by
  refine isConsistent_iff.mpr fun w hw => ?_
  obtain rfl : v = w := Option.some.inj hw
  exact (k.join_eq_or_object v.kind_ne_illegal).symm

theorem isConsistent_object (v : Option Value) : (⟨.object, v⟩ : Slot).isConsistent = true :=
  isConsistent_iff.mpr fun _ _ => .inl rfl

theorem isConsistent_of (p : Primitive) (x : p.Carrier) :
    (⟨.primitive p, some (.of p x)⟩ : Slot).isConsistent = true := by
  refine isConsistent_iff.mpr fun w hw => .inr ?_
  obtain rfl : Value.of p x = w := Option.some.inj hw
  exact (Value.kind_of p x).symm

/-- Widening keeps a slot consistent. A slot that is not specialised is consistent
only while it is empty, and then every kind will do. -/
theorem isConsistent_widen {e : Slot} (h : e.isConsistent = true) {k : Kind}
    (hk : e.kind.canWidenTo k = true) : (⟨k, e.value⟩ : Slot).isConsistent = true := by
  refine isConsistent_iff.mpr fun v hv => ?_
  simp only [Kind.canWidenTo, Bool.or_eq_true, beq_iff_eq] at hk
  -- A generic slot stays generic; a slot of the value's kind keeps it or becomes generic.
  rcases isConsistent_iff.mp h v hv with hobj | hkind
  · rcases hk with (hk | hk) | hk
    · exact .inl (hk.symm.trans hobj)
    · rw [hobj] at hk
      cases hk
    · exact .inl hk
  · rcases hk with (hk | hk) | hk
    · exact .inr (hk.symm.trans hkind)
    · exact absurd (hkind.symm.trans hk) v.kind_ne_illegal
    · exact .inl hk

/-- An array is consistent in a generic slot only. -/
theorem kind_eq_object_of_array {e : Slot} {a : LongArray} (h : e.isConsistent = true)
    (hv : e.value = some (.array a)) : e.kind = .object := by
  rcases isConsistent_iff.mp h _ hv with hobj | hkind
  · exact hobj
  · exact hkind

end Slot

/-! ## Frames -/

namespace Frame

/-- Every slot of the frame is consistent. -/
def Consistent (f : Frame) : Prop := ∀ s, s.index < f.size → f.isConsistent s = .ok true

theorem isConsistent_of_slot? {f : Frame} {s : SlotId} {e : Slot} (h : f.slot? s = some e) :
    f.isConsistent s = .ok e.isConsistent := by
  simp only [isConsistent, h]

theorem consistent_iff {f : Frame} :
    f.Consistent ↔ ∀ s e, f.slot? s = some e → e.isConsistent = true := by
  constructor
  · intro h s e hs
    have hlt : s.index < f.size := by
      rcases Nat.lt_or_ge s.index f.size with hlt | hge
      · exact hlt
      · rw [slot?_eq_none_iff.mpr hge] at hs
        cases hs
    have hc := h s hlt
    rw [isConsistent_of_slot? hs] at hc
    exact Except.ok.inj hc
  · intro h s hlt
    cases hs : f.slot? s with
    | none => exact absurd (slot?_eq_none_iff.mp hs) (by omega)
    | some e => rw [isConsistent_of_slot? hs, h s e hs]

theorem Consistent.put {f : Frame} (h : f.Consistent) {e : Slot} (he : e.isConsistent = true)
    (s : SlotId) : (f.put s e).Consistent := by
  refine consistent_iff.mpr fun t d hd => ?_
  rcases slot?_of_put hd with ⟨-, rfl⟩ | hd
  · exact he
  · exact consistent_iff.mp h t d hd

/-- A typed read of a consistent slot fails by kind only if the slot is of another
kind, never because the value in it is of another type. The error names the slot,
the kind that was asked for and the kind of the slot. -/
theorem Consistent.kind_of_mismatch {f : Frame} (h : f.Consistent) {p : Primitive} {s t : SlotId}
    {expected found : Kind} (hr : f.readAs p s = .error (.kindMismatch t expected found)) :
    t = s ∧ expected = .primitive p ∧ f.kind s = .ok found ∧ found ≠ .primitive p := by
  cases hs : f.slot? s with
  | none => simp [readAs, hs] at hr
  | some e =>
    by_cases hk : e.kind = .primitive p
    · -- The kind is right, so the value is of that type and the read succeeds.
      exfalso
      cases hv : e.value with
      | none => simp [readAs, hs, hk, hv] at hr
      | some v =>
        have hkind : v.kind = .primitive p := by
          rcases Slot.isConsistent_iff.mp (consistent_iff.mp h s e hs) v hv with hobj | hkind
          · rw [hk] at hobj
            cases hobj
          · exact hkind.symm.trans hk
        obtain ⟨x, rfl⟩ := Value.kind_eq_primitive_iff.mp hkind
        simp [readAs, hs, hk, hv] at hr
    · simp only [readAs, hs, hk, ne_eq, not_false_eq_true, if_true, Except.error.injEq,
        AccessError.kindMismatch.injEq] at hr
      obtain ⟨rfl, rfl, rfl⟩ := hr
      exact ⟨rfl, rfl, by simp only [kind, hs], hk⟩

end Frame

/-- A fresh frame holds no values, so it is consistent. -/
theorem Layout.newFrame_consistent (l : Layout) : l.newFrame.Consistent := by
  refine Frame.consistent_iff.mpr fun s e hs => ?_
  rw [slot?_newFrame] at hs
  obtain ⟨d, -, rfl⟩ := Option.map_eq_some_iff.mp hs
  rfl

/-! ## Steps -/

namespace Operation

/-- Whether an operation stores a value without regard to the slot's kind. -/
def isRawWrite : Operation → Bool
  | .write .. => true
  | _ => false

/-- The slot in which an operation stores a value together with a kind for it. -/
def tagged? : Operation → Option SlotId
  | .exec (.assign s _) | .exec (.create s _) | .writeAs _ s _ | .writeObject s _ => some s
  | _ => none

end Operation

/-- A single statement leaves a consistent slot. Only the store of an element needs
the slot to have been consistent before: the array must stand in a generic slot. -/
theorem Stmt.Replaces.isConsistent {mem : Allocator} {f : Frame} {old new : Slot} {d : Stmt}
    (h : Stmt.Replaces mem f old d new)
    (hold : (Operation.exec d).tagged? = none → old.isConsistent = true) :
    new.isConsistent = true := by
  cases h with
  | assign value => exact Slot.isConsistent_join _ _
  | create created => exact Slot.isConsistent_object _
  | store held replaced =>
    rw [Slot.kind_eq_object_of_array (hold rfl) held]
    exact Slot.isConsistent_object _

/-- An update other than a raw write leaves a consistent slot. A change of kind and
the store of an element need the slot to have been consistent before. -/
theorem Operation.Replaces.isConsistent {old new : Slot} {op : Operation}
    (h : Operation.Replaces old op new) (hraw : op.isRawWrite = false)
    (hold : op.tagged? = none → old.isConsistent = true) : new.isConsistent = true := by
  cases h with
  | write => cases hraw
  | setKind widens => exact Slot.isConsistent_widen (hold rfl) widens
  | writeAs widens => exact Slot.isConsistent_of _ _
  | writeObject => exact Slot.isConsistent_object _
  | storeElement held replaced =>
    rw [Slot.kind_eq_object_of_array (hold rfl) held]
    exact Slot.isConsistent_object _

/-- Executing a statement keeps a frame consistent, also if it faults halfway. -/
theorem Stmt.exec_consistent (mem : Allocator) (c : Stmt) {f : Frame} (h : f.Consistent) :
    (c.exec mem f).frame.Consistent := by
  have hstep : ∀ d ∈ c.steps, ∀ g : Frame, g.Consistent → (d.exec mem g).frame.Consistent := by
    intro d hd g hg
    obtain ⟨s, hs⟩ := c.target?_of_mem_steps hd
    rcases d.exec_cases mem g hs with ⟨r, -, hframe⟩ | ⟨old, new, hold, hrep, -, hframe⟩
    · rw [hframe]
      exact hg
    · rw [hframe]
      exact hg.put (hrep.isConsistent fun _ => Frame.consistent_iff.mp hg s old hold) s
  exact Stmt.exec_related (R := fun f g => f.Consistent → g.Consistent) (fun _ h => h)
    (fun _ _ _ hfg hgh h => hgh (hfg h)) c hstep f h

namespace Operation

/-- Every operation but the raw write keeps a frame consistent, whether or not it
succeeds. -/
theorem perform_consistent (mem : Allocator) {op : Operation} (hraw : op.isRawWrite = false)
    {f : Frame} (h : f.Consistent) : (op.perform mem f).frame.Consistent := by
  cases hs : op.target? with
  | none =>
    cases op with
    | exec c => exact c.exec_consistent mem h
    | _ => cases hs
  | some s =>
    rcases op.perform_cases mem f hs with ⟨r, -, hframe⟩ | ⟨old, new, hold, hrep, -, hframe⟩
    · rw [hframe]
      exact h
    · rw [hframe]
      exact h.put (hrep.isConsistent hraw fun _ => Frame.consistent_iff.mp h s old hold) s

/-- Where a slot has been replaced, it is as consistent as the new slot. -/
theorem isConsistent_put {f : Frame} {s : SlotId} {old new : Slot} (hs : f.slot? s = some old)
    (hnew : new.isConsistent = true) : (f.put s new).isConsistent s = .ok true := by
  rw [Frame.isConsistent_of_slot? (Frame.slot?_put_self hs new), hnew]

/-- An assignment or a creation that succeeds leaves its slot consistent, whatever
it was like before. -/
theorem exec_tagged (mem : Allocator) {c : Stmt} {s : SlotId} (hc : (exec c).tagged? = some s)
    {f : Frame} (hok : (c.exec mem f).result = .ok ()) :
    (c.exec mem f).frame.isConsistent s = .ok true := by
  have hs : c.target? = some s := by
    cases c with
    | assign t e => exact hc
    | create t e => exact hc
    | store t i v => cases hc
    | block body => cases hc
  rcases c.exec_cases mem f hs with ⟨r, hfault, -⟩ | ⟨old, new, hold, hrep, -, hframe⟩
  · rw [hfault] at hok
    cases hok
  · rw [hframe]
    exact isConsistent_put hold (hrep.isConsistent fun hn => by rw [hc] at hn; cases hn)

/-- A write that carries a kind leaves its slot consistent, whatever it was like
before. -/
theorem perform_tagged (mem : Allocator) {op : Operation} {s : SlotId} (hop : op.tagged? = some s)
    {f : Frame} (hok : (op.perform mem f).result = .ok ()) :
    (op.perform mem f).frame.isConsistent s = .ok true := by
  have hupdate : op.target? = some s → op.isRawWrite = false →
      (op.perform mem f).frame.isConsistent s = .ok true := by
    intro hs hraw
    rcases op.perform_cases mem f hs with ⟨r, hrefused, -⟩ | ⟨old, new, hold, hrep, -, hframe⟩
    · rw [hrefused] at hok
      cases hok
    · rw [hframe]
      exact isConsistent_put hold (hrep.isConsistent hraw fun hn => by rw [hop] at hn; cases hn)
  cases op with
  | exec c =>
    refine exec_tagged mem hop ?_
    cases hr : (c.exec mem f).result with
    | ok u => rfl
    | error r =>
      simp only [perform, hr] at hok
      cases hok
  | writeAs p t x => exact hupdate hop rfl
  | writeObject t v => exact hupdate hop rfl
  | write t v => cases hop
  | setKind t k => cases hop
  | storeElement t i n => cases hop

end Operation

/-! ## The invariant -/

/-- **Kinds and values stay in step.** Fresh frames are consistent. Every operation
but the raw write keeps a consistent frame consistent, whether it succeeds or not,
and so does every history of such operations. In a consistent frame a typed read
reports a mismatch of kinds only where the slot is of another kind. A write that
carries a kind leaves its slot consistent, even one that was not. -/
theorem consistent_of_tagged_history (mem : Allocator) :
    (∀ l : Layout, l.newFrame.Consistent) ∧
    (∀ (f : Frame) (op : Operation), f.Consistent → op.isRawWrite = false →
      (op.perform mem f).frame.Consistent) ∧
    (∀ (f : Frame) (ops : List Operation), f.Consistent → (∀ op ∈ ops, op.isRawWrite = false) →
      (Operation.performAll mem f ops).1.Consistent ∧
      ∀ p s t expected found,
        (Operation.performAll mem f ops).1.readAs p s = .error (.kindMismatch t expected found) →
        t = s ∧ expected = .primitive p ∧
          (Operation.performAll mem f ops).1.kind s = .ok found ∧ found ≠ .primitive p) ∧
    (∀ (f : Frame) (op : Operation) (s : SlotId), op.tagged? = some s →
      (op.perform mem f).result = .ok () → (op.perform mem f).frame.isConsistent s = .ok true) := by
  refine ⟨Layout.newFrame_consistent, fun f op h hraw => Operation.perform_consistent mem hraw h,
    fun f ops h hraw => ?_, fun f op s hop hok => Operation.perform_tagged mem hop hok⟩
  have hrun : (Operation.performAll mem f ops).1.Consistent :=
    Operation.performAll_related (R := fun f g => f.Consistent → g.Consistent) (fun _ h => h)
      (fun _ _ _ hfg hgh h => hgh (hfg h))
      (fun op hop g hg => Operation.perform_consistent mem (hraw op hop) hg) f h
  exact ⟨hrun, fun p s t expected found hr => hrun.kind_of_mismatch hr⟩

/-- A slot declared for longs receives a long, then an array, and then a store that
is out of bounds; its neighbour is made generic. After that a read of the slot as a
long is refused by its kind. In another frame a boolean stands behind the kind
`long`, and an assignment mends it. -/
theorem consistent_after_mixed_history :
    let a : SlotId := ⟨0⟩
    let start := Layout.newFrame ⟨[⟨"a", .primitive .long⟩, ⟨"b", .illegal⟩]⟩
    let fill := Stmt.store a (.literal (.long 5)) (.literal (.long 1))
    let ops : List Operation := [.writeAs .long a 7,
      .exec (.block [.create a (.literal (.long 3)), fill]), .storeElement a 1 9,
      .setKind ⟨1⟩ .object]
    let f := (Operation.performAll .unlimited start ops).1
    let torn : Frame := ⟨[⟨.primitive .long, some (.boolean true)⟩]⟩
    let mend := Operation.exec (.assign a (.literal (.boolean false)))
    (start.Consistent ∧ ∀ op ∈ ops, op.isRawWrite = false) ∧ f.Consistent ∧
      f.readAs .long a = .error (.kindMismatch a (.primitive .long) .object) ∧
      f.kind a = .ok .object ∧
      torn.isConsistent a = .ok false ∧
      (mend.perform .unlimited torn).frame.isConsistent a = .ok true := by
  intro a start fill ops f torn mend
  obtain ⟨hnew, -, hrun, htagged⟩ := consistent_of_tagged_history .unlimited
  have hraw : ∀ op ∈ ops, op.isRawWrite = false := by simp [ops, Operation.isRawWrite]
  obtain ⟨hf, hread⟩ := hrun start ops (hnew _) hraw
  have hslot : f.slot? a = some ⟨.object, some (.array ⟨#[0, 9, 0]⟩)⟩ := by decide +kernel
  have hmismatch : f.readAs .long a = .error (.kindMismatch a (.primitive .long) .object) := by
    simp [Frame.readAs, hslot]
  exact ⟨⟨hnew _, hraw⟩, hf, hmismatch, (hread _ _ _ _ _ hmismatch).2.2.1, rfl,
    htagged torn mend a rfl rfl⟩

end TaggedSlots
