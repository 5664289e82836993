import TaggedSlots.Proofs.Steps

/-! # A program touches and sees only the slots that it mentions

Every slot that a statement can change or look at is written down in it. This has two
sides (`exec_is_local`).

* A slot that is no target of the statement is left exactly as it was, whether the
  statement succeeds or faults (`Stmt.slot?_of_not_mem_targets`).
* On two frames that agree on the slots which the statement mentions, the statement does
  the same: it ends with the same result, reports the same events in the same order, and
  leaves frames that agree on these slots again (`Stmt.exec_mirrors`). The frames may
  differ everywhere else, also in their number of slots.

The second side is a simulation in which the log counts, so it cannot be had from the
rules about quiet outcomes: it goes through the changes of a frame one by one, with
`Outcome.Mirrors` as what is carried along. Agreement is kept by all of them because each
looks at one slot only, and that slot is mentioned.
-/
namespace TaggedSlots

/-! ## Frames that agree -/

namespace Frame

/-- Two frames agree on some slots: each of these slots is missing in both, or has the
same kind and the same value in both. -/
def AgreeOn (ss : List SlotId) (f g : Frame) : Prop := ∀ s ∈ ss, f.slot? s = g.slot? s

instance (ss : List SlotId) (f g : Frame) : Decidable (f.AgreeOn ss g) :=
  inferInstanceAs (Decidable (∀ s ∈ ss, _))

namespace AgreeOn
variable {ss : List SlotId} {f g : Frame} {s : SlotId}

theorem read_eq (h : f.AgreeOn ss g) (hs : s ∈ ss) : f.read s = g.read s := by
  simp only [read, h s hs]

theorem kind_eq (h : f.AgreeOn ss g) (hs : s ∈ ss) : f.kind s = g.kind s := by
  simp only [kind, h s hs]

theorem array_eq (h : f.AgreeOn ss g) (hs : s ∈ ss) : f.array s = g.array s := by
  simp only [array, h.read_eq hs]

/-- Expressions whose slots are among those that the frames agree on have the same value
or the same fault. -/
theorem eval_eq (h : f.AgreeOn ss g) {e : Expr} (he : ∀ t ∈ e.slots, t ∈ ss) :
    e.eval f = e.eval g :=
  Expr.eval_congr fun t ht => h.read_eq (he t ht)

theorem evalAs_eq (h : f.AgreeOn ss g) {e : Expr} (he : ∀ t ∈ e.slots, t ∈ ss)
    (p : Primitive) : e.evalAs p f = e.evalAs p g :=
  Expr.evalAs_congr (fun t ht => h.read_eq (he t ht)) p

/-- Putting the same content into a slot of both frames keeps what they agree on. -/
theorem put (h : f.AgreeOn ss g) (s : SlotId) (e : Slot) :
    (f.put s e).AgreeOn ss (g.put s e) := by
  intro t ht
  have htt := h t ht
  by_cases hts : t = s
  · subst hts
    cases hg : g.slot? t with
    | none =>
      rw [put_of_none (htt.trans hg), put_of_none hg]
      exact htt
    | some old => rw [slot?_put_self (htt.trans hg), slot?_put_self hg]
  · rw [slot?_put_ne hts, slot?_put_ne hts, htt]

end AgreeOn

end Frame

/-! ## Outcomes that mirror each other -/

/-- Two outcomes mirror each other, as far as a relation of frames can tell: they have the
same result and the same log, and their frames are related. -/
structure Outcome.Mirrors {ε : Type} (R : Frame → Frame → Prop) (o o' : Outcome ε) : Prop where
  result : o.result = o'.result
  log : o.log = o'.log
  frame : R o.frame o'.frame

namespace Outcome.Mirrors
variable {ε : Type} {R : Frame → Frame → Prop} {f g : Frame} {o o' : Outcome ε}

theorem done (h : R f g) : (Outcome.done f : Outcome ε).Mirrors R (.done g) := ⟨rfl, rfl, h⟩

theorem fail (e : ε) (h : R f g) : (Outcome.fail e f).Mirrors R (.fail e g) := ⟨rfl, rfl, h⟩

theorem after (e : Event) (h : o.Mirrors R o') : (o.after e).Mirrors R (o'.after e) :=
  ⟨h.result, congrArg (e :: ·) h.log, h.frame⟩

theorem raisedBy (node : NodeLabel) {o o' : Outcome AccessError} (h : o.Mirrors R o') :
    (o.raisedBy node).Mirrors R (o'.raisedBy node) :=
  ⟨congrArg (Except.mapError _) h.result, h.log, h.frame⟩

theorem andThen {next next' : Frame → Outcome ε} (h : o.Mirrors R o')
    (hnext : ∀ f g, R f g → (next f).Mirrors R (next' g)) :
    (o.andThen next).Mirrors R (o'.andThen next') := by
  obtain ⟨r, f, log⟩ := o
  obtain ⟨r', f', log'⟩ := o'
  obtain ⟨rfl, rfl, hframe⟩ : r = r' ∧ log = log' ∧ R f f' := ⟨h.result, h.log, h.frame⟩
  cases r with
  | error e => exact ⟨rfl, rfl, hframe⟩
  | ok u =>
    have hrest := hnext f f' hframe
    exact ⟨hrest.result, congrArg (log ++ ·) hrest.log, hrest.frame⟩

end Outcome.Mirrors

/-! ## Changes of a frame -/

namespace Frame.AgreeOn
variable {ss : List SlotId} {f g : Frame} {s : SlotId}

theorem write (h : f.AgreeOn ss g) (hs : s ∈ ss) (v : Value) :
    (f.write s v).Mirrors (AgreeOn ss) (g.write s v) := by
  unfold Frame.write
  rw [h s hs]
  refine .after _ ?_
  cases g.slot? s with
  | none => exact .fail _ h
  | some e => exact .done (h.put s _)

theorem setKind (h : f.AgreeOn ss g) (hs : s ∈ ss) (k : Kind) :
    (f.setKind s k).Mirrors (AgreeOn ss) (g.setKind s k) := by
  unfold Frame.setKind
  rw [h s hs]
  cases g.slot? s with
  | none => exact .fail _ h
  | some e =>
    by_cases hwide : e.kind.canWidenTo k = true
    · by_cases hk : e.kind = k
      · simpa [hk] using .done h
      · simpa [hwide, hk] using .after _ (.done (h.put s _))
    · simpa [hwide] using .fail _ h

theorem writeTagged (h : f.AgreeOn ss g) (hs : s ∈ ss) (v : Value) (k : Kind) :
    (f.writeTagged s v k).Mirrors (AgreeOn ss) (g.writeTagged s v k) := by
  unfold Frame.writeTagged
  rw [h s hs]
  cases g.slot? s with
  | none => exact .fail _ h
  | some e =>
    by_cases hwide : e.kind.canWidenTo k = true
    · simpa [hwide] using (h.write hs v).andThen fun f' g' h' => h'.setKind hs k
    · simpa [hwide] using .fail _ h

theorem writeAs (h : f.AgreeOn ss g) (hs : s ∈ ss) {p : Primitive} (x : p.Carrier) :
    (f.writeAs p s x).Mirrors (AgreeOn ss) (g.writeAs p s x) :=
  h.writeTagged hs (.of p x) (.primitive p)

theorem writeObject (h : f.AgreeOn ss g) (hs : s ∈ ss) (v : Value) :
    (f.writeObject s v).Mirrors (AgreeOn ss) (g.writeObject s v) :=
  h.writeTagged hs v .object

theorem replaceArray (h : f.AgreeOn ss g) (hs : s ∈ ss) (a : LongArray) :
    (f.replaceArray s a).AgreeOn ss (g.replaceArray s a) := by
  unfold Frame.replaceArray
  rw [h s hs]
  cases g.slot? s with
  | none => exact h
  | some e => exact h.put s _

end Frame.AgreeOn

/-! ## Single statements -/

namespace Stmt

section Steps
variable {ss : List SlotId} {f g : Frame} {s : SlotId}

theorem execAssign_mirrors (h : f.AgreeOn ss g) (hs : s ∈ ss) {e : Expr}
    (he : ∀ t ∈ e.slots, t ∈ ss) :
    (execAssign f s e).Mirrors (Frame.AgreeOn ss) (execAssign g s e) := by
  unfold execAssign
  simp only [h.kind_eq hs, h.eval_eq he, h.evalAs_eq he]
  cases g.kind s with
  | error err => exact .fail _ h
  | ok k =>
    cases k with
    | illegal =>
      cases e.eval g with
      | error r => exact .fail r h
      | ok v => exact (h.writeTagged hs v v.kind).raisedBy _
    | primitive p =>
      cases hx : e.evalAs p g with
      | ok x => simpa only [hx] using (h.writeAs hs x).raisedBy _
      | error err =>
        cases err with
        | fault r => simpa only [hx] using .fail r h
        | mismatch m =>
          -- The mismatch is reported before the slot is written.
          simpa only [hx] using ((h.writeObject hs m.value).raisedBy _).after _
    | object =>
      cases e.eval g with
      | error r => exact .fail r h
      | ok v => exact (h.writeObject hs v).raisedBy _

theorem execCreate_mirrors (mem : Allocator) (h : f.AgreeOn ss g) (hs : s ∈ ss) {e : Expr}
    (he : ∀ t ∈ e.slots, t ∈ ss) :
    (execCreate mem f s e).Mirrors (Frame.AgreeOn ss) (execCreate mem g s e) := by
  unfold execCreate
  simp only [h.evalAs_eq he]
  cases e.evalAs .long g with
  | error err => exact .fail _ h
  | ok size =>
    cases hn : LongArray.lengthOfSize size with
    | error c => simpa only [hn] using .fail _ h
    | ok n =>
      cases hm : mem.zeroed? n with
      | none => simpa only [hn, hm] using .fail _ h
      | some a =>
        have hwrite := (h.write hs (.array a)).andThen fun f' g' h' => h'.setKind hs .object
        simpa only [hn, hm] using (hwrite.raisedBy _).after _

theorem execStore_mirrors (h : f.AgreeOn ss g) (hs : s ∈ ss) {i v : Expr}
    (hi : ∀ t ∈ i.slots, t ∈ ss) (hv : ∀ t ∈ v.slots, t ∈ ss) :
    (execStore f s i v).Mirrors (Frame.AgreeOn ss) (execStore g s i v) := by
  unfold execStore
  simp only [h.evalAs_eq hi, h.evalAs_eq hv, h.array_eq hs]
  cases i.evalAs .long g with
  | error err => exact .fail _ h
  | ok index =>
    cases v.evalAs .long g with
    | error err => exact .fail _ h
    | ok n =>
      cases g.array s with
      | error err => exact .fail _ h
      | ok a =>
        cases hb : (Long.toIndex? index).bind fun k => a.set? k n with
        | none => simpa only [hb] using .fail _ h
        | some b => simpa only [hb] using .done (h.replaceArray hs b)

/-- A single statement does the same to frames that agree on the slots it mentions, and
on possibly more. -/
theorem exec_step_mirrors (mem : Allocator) {d : Stmt} (hd : d.target? = some s) (hs : s ∈ ss)
    (hoperands : ∀ t ∈ d.operands, t ∈ ss) (h : f.AgreeOn ss g) :
    (d.exec mem f).Mirrors (Frame.AgreeOn ss) (d.exec mem g) := by
  cases d with
  | assign t e =>
    obtain rfl : t = s := Option.some.inj hd
    rw [exec, exec]
    exact execAssign_mirrors h hs hoperands
  | create t e =>
    obtain rfl : t = s := Option.some.inj hd
    rw [exec, exec]
    exact execCreate_mirrors mem h hs hoperands
  | store t i v =>
    obtain rfl : t = s := Option.some.inj hd
    rw [exec, exec]
    exact execStore_mirrors h hs (fun u hu => hoperands u (List.mem_append_left _ hu))
      fun u hu => hoperands u (List.mem_append_right _ hu)
  | block body => cases hd

end Steps

/-! ## Whole statements -/

mutual

/-- Steps that mirror each other on related frames make statements that do. -/
theorem exec_mirrors_of_steps {mem : Allocator} {R : Frame → Frame → Prop} :
    ∀ (c : Stmt), (∀ d ∈ c.steps, ∀ f g, R f g → (d.exec mem f).Mirrors R (d.exec mem g)) →
      ∀ {f g : Frame}, R f g → (c.exec mem f).Mirrors R (c.exec mem g)
  | .assign s e, hstep, f, g, h => hstep (.assign s e) (by simp [steps]) f g h
  | .create s e, hstep, f, g, h => hstep (.create s e) (by simp [steps]) f g h
  | .store s i v, hstep, f, g, h => hstep (.store s i v) (by simp [steps]) f g h
  | .block body, hstep, f, g, h => by
    rw [steps_block] at hstep
    rw [exec, exec]
    exact execAll_mirrors_of_steps body hstep h

theorem execAll_mirrors_of_steps {mem : Allocator} {R : Frame → Frame → Prop} :
    ∀ (body : List Stmt),
      (∀ d ∈ stepsAll body, ∀ f g, R f g → (d.exec mem f).Mirrors R (d.exec mem g)) →
      ∀ {f g : Frame}, R f g → (execAll mem f body).Mirrors R (execAll mem g body)
  | [], _, f, g, h => by
    rw [execAll, execAll]
    exact .done h
  | c :: rest, hstep, f, g, h => by
    rw [stepsAll] at hstep
    have hfirst := exec_mirrors_of_steps c (fun d hd => hstep d (List.mem_append_left _ hd)) h
    rw [execAll, execAll]
    refine .after _ (hfirst.andThen ?_)
    intro f' g' h'
    exact execAll_mirrors_of_steps rest (fun d hd => hstep d (List.mem_append_right _ hd)) h'

end

/-- **What a statement sees.** On frames that agree on the slots it mentions, a statement
does the same and reports the same, and the frames agree on these slots again. -/
theorem exec_mirrors (mem : Allocator) (c : Stmt) {f g : Frame} (h : f.AgreeOn c.slots g) :
    (c.exec mem f).Mirrors (Frame.AgreeOn c.slots) (c.exec mem g) := by
  refine exec_mirrors_of_steps c ?_ h
  intro d hd f' g' h'
  obtain ⟨s, hs⟩ := c.target?_of_mem_steps hd
  have htarget : s ∈ c.slots := mem_slots_iff.mpr ⟨d, hd, .inl hs⟩
  have hoperands : ∀ t ∈ d.operands, t ∈ c.slots :=
    fun t ht => mem_slots_iff.mpr ⟨d, hd, .inr ht⟩
  exact exec_step_mirrors mem hs htarget hoperands h'

/-- **What a statement touches.** A slot that is no target of a statement is left as it
was, whether the statement succeeds or faults. -/
theorem slot?_of_not_mem_targets (mem : Allocator) (f : Frame) {c : Stmt} {s : SlotId}
    (hs : s ∉ c.targets) : (c.exec mem f).frame.slot? s = f.slot? s := by
  refine exec_related (fun _ => rfl) (fun _ _ _ h h' => h'.trans h) c ?_ f
    (R := fun f g => g.slot? s = f.slot? s)
  intro d hd g
  obtain ⟨t, ht⟩ := c.target?_of_mem_steps hd
  have hst : s ≠ t := fun h => hs (mem_targets_iff.mpr ⟨d, hd, h ▸ ht⟩)
  rcases d.exec_cases mem g ht with ⟨r, -, hframe⟩ | ⟨old, new, -, -, -, hframe⟩
  · rw [hframe]
  · rw [hframe, Frame.slot?_put_ne hst]

end Stmt

/-- **A program touches and sees only the slots that it mentions.** Whether it succeeds or
faults, a statement leaves every slot alone that it does not target: the slot keeps its
kind and its value, an array with all its elements included. And on two frames that agree
on the slots which the statement mentions, whatever else is in them and however many slots
they have, it ends with the same result, reports the same events in the same order, and
leaves frames that agree on these slots again. -/
theorem exec_is_local (mem : Allocator) (c : Stmt) :
    (∀ (f : Frame) (s : SlotId), s ∉ c.targets → (c.exec mem f).frame.slot? s = f.slot? s) ∧
    ∀ f g : Frame, f.AgreeOn c.slots g →
      (c.exec mem f).result = (c.exec mem g).result ∧
      (c.exec mem f).log = (c.exec mem g).log ∧
      (c.exec mem f).frame.AgreeOn c.slots (c.exec mem g).frame := by
  refine ⟨fun f s hs => Stmt.slot?_of_not_mem_targets mem f hs, fun f g h => ?_⟩
  have hmirrors := c.exec_mirrors mem h
  exact ⟨hmirrors.result, hmirrors.log, hmirrors.frame⟩

/-- A frame of three slots and one of two, which agree on the slots of a statement: on a
number behind the kind `boolean`, on an array, and on a slot that neither of them has. The
statement stores an element and faults when it gets to the missing slot, on both frames
alike, and the third slot of the larger frame is left alone. -/
theorem exec_is_local_on_frames_of_different_size :
    let number : SlotId := ⟨0⟩
    let array : SlotId := ⟨1⟩
    let other : SlotId := ⟨2⟩
    let missing : SlotId := ⟨7⟩
    let g : Frame := ⟨[⟨.primitive .boolean, some (.long 5)⟩, ⟨.object, some (.array ⟨#[3, 4]⟩)⟩]⟩
    let f : Frame := ⟨g.slots ++ [⟨.primitive .long, some (.long 9)⟩]⟩
    let c := Stmt.block [.store array (.literal (.long 0)) (.read number),
      .block [.create missing (.length array)]]
    (f.size = 3 ∧ g.size = 2 ∧ f.AgreeOn c.slots g ∧ other ∉ c.targets) ∧
      (c.exec .unlimited f).frame.slot? other = some ⟨.primitive .long, some (.long 9)⟩ ∧
      (c.exec .unlimited f).result =
        .error ⟨⟨"CreateLocalLongArray", some missing⟩, .access (.invalidSlot missing)⟩ ∧
      (c.exec .unlimited f).result = (c.exec .unlimited g).result ∧
      (c.exec .unlimited f).log = (c.exec .unlimited g).log ∧
      (c.exec .unlimited f).frame.AgreeOn c.slots (c.exec .unlimited g).frame := by
  intro number array other missing g f c
  have hagree : f.AgreeOn c.slots g := by decide
  have hother : other ∉ c.targets := by decide
  obtain ⟨htouches, hsees⟩ := exec_is_local .unlimited c
  exact ⟨⟨rfl, rfl, hagree, hother⟩, htouches f other hother, rfl, hsees f g hagree⟩

end TaggedSlots
