import TaggedSlots.Proofs.Locality

/-! # Independent statements commute

Two statements are independent if neither targets a slot that the other mentions; slots
that both of them only read may be shared. The order in which such statements are executed
does not matter, whatever becomes of them: each has the outcome that it would have had
alone, and the frame that the two leave is the same (`independent_statements_commute`).
This includes statements that fault halfway and leave a part of their effect.

Both halves are locality. The slots that one statement mentions are left alone by the
other, so the one does not notice whether the other has been executed before it
(`Stmt.Independent.exec_after`). And a slot of the final frame is decided by at most one of
the two, the one that targets it.
-/
namespace TaggedSlots

namespace Stmt

/-- Neither of two statements targets a slot that the other one mentions. -/
structure Independent (c d : Stmt) : Prop where
  left : ∀ s ∈ c.targets, s ∉ d.slots
  right : ∀ s ∈ d.targets, s ∉ c.slots

instance (c d : Stmt) : Decidable (c.Independent d) :=
  decidable_of_iff ((∀ s ∈ c.targets, s ∉ d.slots) ∧ ∀ s ∈ d.targets, s ∉ c.slots)
    ⟨fun h => ⟨h.1, h.2⟩, fun h => ⟨h.left, h.right⟩⟩

namespace Independent
variable {c d : Stmt} {s : SlotId}

theorem symm (h : c.Independent d) : d.Independent c := ⟨h.right, h.left⟩

/-- No slot is a target of both. -/
theorem not_mem_targets (h : c.Independent d) (hs : s ∈ c.targets) : s ∉ d.targets :=
  fun hd => h.left s hs (mem_slots_of_mem_targets hd)

/-- **A statement does not notice an independent one.** Behind it the statement has the
result and the log that it has without it, and does the same to the slots it mentions. -/
theorem exec_after (mem : Allocator) (h : c.Independent d) (f : Frame) :
    (c.exec mem (d.exec mem f).frame).Mirrors (Frame.AgreeOn c.slots) (c.exec mem f) := by
  have hagree : (d.exec mem f).frame.AgreeOn c.slots f := by
    intro s hs
    exact slot?_of_not_mem_targets mem f fun hd => h.right s hd hs
  exact c.exec_mirrors mem hagree

/-- A slot that one of the statements targets ends up as that statement leaves it alone,
whether the other one comes before it or behind it. -/
theorem slot?_of_mem_targets (mem : Allocator) (h : c.Independent d) (f : Frame)
    (hs : s ∈ c.targets) :
    (d.exec mem (c.exec mem f).frame).frame.slot? s = (c.exec mem f).frame.slot? s ∧
      (c.exec mem (d.exec mem f).frame).frame.slot? s = (c.exec mem f).frame.slot? s := by
  have hbehind := slot?_of_not_mem_targets mem (c.exec mem f).frame (h.not_mem_targets hs)
  have hbefore := (h.exec_after mem f).frame s (mem_slots_of_mem_targets hs)
  exact ⟨hbehind, hbefore⟩

/-- The final frame does not depend on the order. -/
theorem frame_comm (mem : Allocator) (h : c.Independent d) (f : Frame) :
    (d.exec mem (c.exec mem f).frame).frame = (c.exec mem (d.exec mem f).frame).frame := by
  refine Frame.ext_slot? fun s => ?_
  by_cases hc : s ∈ c.targets
  · obtain ⟨hbehind, hbefore⟩ := h.slot?_of_mem_targets mem f hc
    rw [hbehind, hbefore]
  · by_cases hd : s ∈ d.targets
    · obtain ⟨hbehind, hbefore⟩ := h.symm.slot?_of_mem_targets mem f hd
      rw [hbehind, hbefore]
    · -- Neither statement touches the slot.
      rw [slot?_of_not_mem_targets mem _ hd, slot?_of_not_mem_targets mem _ hc,
        slot?_of_not_mem_targets mem _ hc, slot?_of_not_mem_targets mem _ hd]

end Independent

end Stmt

/-- **Independent statements commute.** Of two statements neither of which targets a slot
that the other mentions, each ends with the same result, success or fault, and reports the
same, whether it is executed first or behind the other; and the frame that the two leave is
the same in both orders. -/
theorem independent_statements_commute (mem : Allocator) {c d : Stmt} (h : c.Independent d)
    (f : Frame) :
    let first := c.exec mem f
    let second := d.exec mem first.frame
    let first' := d.exec mem f
    let second' := c.exec mem first'.frame
    (first.result = second'.result ∧ first.log = second'.log) ∧
      (second.result = first'.result ∧ second.log = first'.log) ∧
      second.frame = second'.frame := by
  intro first second first' second'
  have hfirst := h.exec_after mem f
  have hsecond := h.symm.exec_after mem f
  exact ⟨⟨hfirst.result.symm, hfirst.log.symm⟩, ⟨hsecond.result, hsecond.log⟩,
    h.frame_comm mem f⟩

/-- Two blocks read the same slot. One makes a slot generic and then divides by zero, the
other creates an array and then stores behind its end. Both fault, in both orders, and the
two effects they had before are left. -/
theorem independent_faulting_blocks_commute :
    let shared : SlotId := ⟨0⟩
    let a : SlotId := ⟨1⟩
    let b : SlotId := ⟨2⟩
    let f : Frame := ⟨[⟨.primitive .long, some (.long 2)⟩, ⟨.primitive .boolean, none⟩,
      ⟨.illegal, none⟩]⟩
    let c := Stmt.block [.assign a (.read shared),
      .assign a (.binary .div (.read shared) (.literal (.long 0)))]
    let d := Stmt.block [.create b (.read shared), .block [.store b (.read shared) (.read shared)]]
    let g : Frame := ⟨[⟨.primitive .long, some (.long 2)⟩, ⟨.object, some (.long 2)⟩,
      ⟨.object, some (.array ⟨#[0, 0]⟩)⟩]⟩
    c.Independent d ∧
      ((c.exec .unlimited (d.exec .unlimited f).frame).result =
          .error ⟨⟨"Binary", none⟩, .divisionByZero⟩ ∧
        (d.exec .unlimited (c.exec .unlimited f).frame).result =
          .error ⟨⟨"WriteArrayElement", some b⟩, .indexOutOfBounds 2 2⟩) ∧
      (d.exec .unlimited (c.exec .unlimited f).frame).frame = g ∧
      (c.exec .unlimited (d.exec .unlimited f).frame).frame = g := by
  intro shared a b f c d g
  have h : c.Independent d := by decide
  obtain ⟨⟨hfirst, -⟩, ⟨hsecond, -⟩, hframe⟩ := independent_statements_commute .unlimited h f
  have hg : (d.exec .unlimited (c.exec .unlimited f).frame).frame = g := by decide +kernel
  exact ⟨h, ⟨hfirst.symm.trans rfl, hsecond.trans rfl⟩, hg, hframe.symm.trans hg⟩

end TaggedSlots
