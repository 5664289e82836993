import TaggedSlots.Proofs.KindHistory

/-! # Kinds widen and values stay

Whatever is done to a frame, in any order and with any outcome, raw writes and
refused operations included: it keeps its number of slots, the kind of a slot is
only ever widened, and a slot that holds a value goes on holding one. A frame that
follows another in this sense is what that one *evolves to* (`Frame.EvolvesTo`).

The kinds have height two (`Kind.height`), so a slot changes its kind at most
twice, and a generic slot stays generic. To count the changes one has to look at
every frame on the way, also at those inside of a block: a single execution can
specialise a slot and generalise it again. `Operation.visited` lists these frames,
one behind each single statement and each update.

The proof follows the frames. A frame evolves in one step (`Stmt.step_evolves`,
`Operation.update_evolves`), and the frames that a history visits are joined by such
steps (`Operation.path_visitedAll`), so every frame on the way has evolved from all
the frames before it.
-/
namespace TaggedSlots

/-! ## The height of a kind -/

namespace Kind

/-- How often a slot of this kind can still change its kind. -/
def height : Kind → Nat
  | .illegal => 2
  | .primitive _ => 1
  | .object => 0

/-- Widening to another kind uses up height. -/
theorem height_lt_of_canWidenTo {a b : Kind} (h : a.canWidenTo b = true) (hne : a ≠ b) :
    b.height < a.height := by
  simp only [canWidenTo, Bool.or_eq_true, beq_iff_eq] at h
  rcases h with (rfl | rfl) | rfl
  · exact absurd rfl hne
  · cases b with
    | illegal => exact absurd rfl hne
    | primitive p => exact Nat.lt_succ_self 1
    | object => exact Nat.zero_lt_two
  · cases a with
    | illegal => exact Nat.zero_lt_two
    | primitive p => exact Nat.zero_lt_one
    | object => exact absurd rfl hne

theorem height_le_two (k : Kind) : k.height ≤ 2 := by
  cases k <;> simp [height]

/-- A generic slot cannot be anything else any more. -/
theorem eq_object_of_canWidenTo {k : Kind} (h : object.canWidenTo k = true) : k = object :=
  canWidenTo_antisymm (canWidenTo_object k) h

/-- A kind can be widened to its join with any other. -/
theorem canWidenTo_join (a b : Kind) : a.canWidenTo (a.join b) = true := by
  unfold join
  split
  · assumption
  · split <;> simp

end Kind

/-- How often the elements of a list change from one to the next. -/
def changes {α : Type} [DecidableEq α] : List α → Nat
  | a :: b :: l => (if a = b then 0 else 1) + changes (b :: l)
  | _ => 0

/-! ## What slots and frames evolve to -/

/-- What becomes of a slot: its kind is widened, and its value may be replaced but
is never taken away. -/
structure Slot.EvolvesTo (old new : Slot) : Prop where
  widened : old.kind.canWidenTo new.kind = true
  filled : ∀ v, old.value = some v → ∃ w, new.value = some w

namespace Frame

/-- What becomes of a frame: the same slots, each with a kind that its kind could
be widened to, and with a value if it had one. -/
structure EvolvesTo (old new : Frame) : Prop where
  size_eq : new.size = old.size
  widened : ∀ s k, old.kind s = .ok k → ∃ k', new.kind s = .ok k' ∧ k.canWidenTo k' = true
  filled : ∀ s v, old.read s = .ok v → ∃ w, new.read s = .ok w

namespace EvolvesTo
variable {f g h : Frame}

theorem refl (f : Frame) : f.EvolvesTo f where
  size_eq := rfl
  widened _ k hk := ⟨k, hk, k.canWidenTo_refl⟩
  filled _ v hv := ⟨v, hv⟩

theorem trans (hfg : f.EvolvesTo g) (hgh : g.EvolvesTo h) : f.EvolvesTo h where
  size_eq := hgh.size_eq.trans hfg.size_eq
  widened s k hk := by
    obtain ⟨k', hk', hkk'⟩ := hfg.widened s k hk
    obtain ⟨k'', hk'', hk'k''⟩ := hgh.widened s k' hk'
    exact ⟨k'', hk'', Kind.canWidenTo_trans hkk' hk'k''⟩
  filled s v hv := by
    obtain ⟨w, hw⟩ := hfg.filled s v hv
    exact hgh.filled s w hw

/-- A frame evolves when one of its slots does. -/
theorem put {s : SlotId} {old new : Slot} (hs : f.slot? s = some old)
    (hnew : old.EvolvesTo new) : f.EvolvesTo (f.put s new) where
  size_eq := f.size_put s new
  widened t k hk := by
    simp only [kind_eq_ok_iff] at hk ⊢
    by_cases hts : t = s
    · subst hts
      obtain rfl : old.kind = k := Option.some.inj ((kind?_of_slot? hs).symm.trans hk)
      exact ⟨new.kind, kind?_of_slot? (slot?_put_self hs new), hnew.widened⟩
    · refine ⟨k, ?_, k.canWidenTo_refl⟩
      rw [kind?, slot?_put_ne hts]
      exact hk
  filled t v hv := by
    obtain ⟨e, he, hev⟩ := read_eq_ok_iff.mp hv
    by_cases hts : t = s
    · subst hts
      obtain rfl : old = e := Option.some.inj (hs.symm.trans he)
      obtain ⟨w, hw⟩ := hnew.filled v hev
      exact ⟨w, read_eq_ok_iff.mpr ⟨new, slot?_put_self hs new, hw⟩⟩
    · exact ⟨v, read_eq_ok_iff.mpr ⟨e, by rw [slot?_put_ne hts, he], hev⟩⟩

/-- Generic slots stay generic. -/
theorem kind_object (hfg : f.EvolvesTo g) {s : SlotId} (h : f.kind s = .ok .object) :
    g.kind s = .ok .object := by
  obtain ⟨k, hk, hwide⟩ := hfg.widened s _ h
  rw [hk, Kind.eq_object_of_canWidenTo hwide]

/-- Where the kind of a slot is another one, it has lost height. A slot that the
frame does not have has no height to lose. -/
theorem height_lt (hfg : f.EvolvesTo g) {s : SlotId} (hne : f.kind? s ≠ g.kind? s) :
    (g.kind? s).elim 0 Kind.height < (f.kind? s).elim 0 Kind.height := by
  cases hk : f.kind? s with
  | none =>
    have hf : f.size ≤ s.index := slot?_eq_none_iff.mp (Option.map_eq_none_iff.mp hk)
    have hg : g.slot? s = none := slot?_eq_none_iff.mpr (by rw [hfg.size_eq]; exact hf)
    exact absurd (by rw [hk, kind?, hg, Option.map_none]) hne
  | some k =>
    obtain ⟨k', hk', hwide⟩ := hfg.widened s k (kind_eq_ok_iff.mpr hk)
    rw [hk, kind_eq_ok_iff.mp hk'] at hne
    rw [kind_eq_ok_iff.mp hk']
    exact Kind.height_lt_of_canWidenTo hwide fun hkk' => hne (congrArg some hkk')

end EvolvesTo

/-- A generic slot is no slot of any primitive kind. -/
theorem readAs_of_kind_object {f : Frame} {s : SlotId} (h : f.kind s = .ok .object)
    (p : Primitive) : f.readAs p s = .error (.kindMismatch s (.primitive p) .object) := by
  obtain ⟨e, hs, hk⟩ := Option.map_eq_some_iff.mp (kind_eq_ok_iff.mp h)
  simp [readAs, hs, hk]

/-- No read of a slot that holds a value finds the slot empty. -/
theorem array_ne_uninitialized {f : Frame} {s : SlotId} {v : Value} (h : f.read s = .ok v) :
    f.array s ≠ .error (.uninitialized s) := by
  cases v <;> simp [array, h, Value.array?]

theorem readAs_ne_uninitialized {f : Frame} {s : SlotId} {v : Value} (h : f.read s = .ok v)
    (p : Primitive) : f.readAs p s ≠ .error (.uninitialized s) := by
  obtain ⟨e, hs, hv⟩ := read_eq_ok_iff.mp h
  by_cases hk : e.kind = .primitive p
  · cases hx : v.as? p <;> simp [readAs, hs, hk, hv, hx]
  · simp [readAs, hs, hk]

end Frame

/-! ## One step -/

/-- The slot of a single statement evolves. -/
theorem Stmt.Replaces.evolves {mem : Allocator} {f : Frame} {old new : Slot} {d : Stmt}
    (h : Stmt.Replaces mem f old d new) : old.EvolvesTo new := by
  cases h with
  | assign value => exact ⟨Kind.canWidenTo_join _ _, fun _ _ => ⟨_, rfl⟩⟩
  | create created => exact ⟨Kind.canWidenTo_object _, fun _ _ => ⟨_, rfl⟩⟩
  | store held replaced => exact ⟨Kind.canWidenTo_refl _, fun _ _ => ⟨_, rfl⟩⟩

/-- The slot of an update evolves, also where its kind and its value are brought
apart. -/
theorem Operation.Replaces.evolves {old new : Slot} {op : Operation}
    (h : Operation.Replaces old op new) : old.EvolvesTo new := by
  cases h with
  | write => exact ⟨Kind.canWidenTo_refl _, fun _ _ => ⟨_, rfl⟩⟩
  | setKind widens => exact ⟨widens, fun v hv => ⟨v, hv⟩⟩
  | writeAs widens => exact ⟨widens, fun _ _ => ⟨_, rfl⟩⟩
  | writeObject => exact ⟨Kind.canWidenTo_object _, fun _ _ => ⟨_, rfl⟩⟩
  | storeElement held replaced => exact ⟨Kind.canWidenTo_refl _, fun _ _ => ⟨_, rfl⟩⟩

theorem Stmt.step_evolves (mem : Allocator) (f : Frame) {d : Stmt} {s : SlotId}
    (hd : d.target? = some s) : f.EvolvesTo (d.exec mem f).frame := by
  rcases d.exec_cases mem f hd with ⟨r, -, hframe⟩ | ⟨old, new, hold, hrep, -, hframe⟩
  · rw [hframe]
    exact .refl f
  · rw [hframe]
    exact .put hold hrep.evolves

theorem Operation.update_evolves (mem : Allocator) (f : Frame) {op : Operation} {s : SlotId}
    (hop : op.target? = some s) : f.EvolvesTo (op.perform mem f).frame := by
  rcases op.perform_cases mem f hop with ⟨r, -, hframe⟩ | ⟨old, new, hold, hrep, -, hframe⟩
  · rw [hframe]
    exact .refl f
  · rw [hframe]
    exact .put hold hrep.evolves

/-! ## Whole histories -/

/-- The frames that executing a statement visits, one behind each single statement
that it gets to. -/
def Stmt.visited (mem : Allocator) (f : Frame) (c : Stmt) : List Frame :=
  (c.reached mem f).map fun (g, d) => (d.exec mem g).frame

namespace Operation

/-- The frames that an operation visits: those of an execution, or the one that an
update leaves. -/
def visited (mem : Allocator) (f : Frame) : Operation → List Frame
  | .exec c => c.visited mem f
  | op => [(op.perform mem f).frame]

/-- The frames that a history visits, in order. -/
def visitedAll (mem : Allocator) (f : Frame) : List Operation → List Frame
  | [] => []
  | op :: ops => op.visited mem f ++ visitedAll mem (op.perform mem f).frame ops

end Operation

/-- A way from one frame to another through the frames of a list, each of which
evolves to the next. -/
inductive Frame.Path : Frame → List Frame → Frame → Prop where
  | nil (f : Frame) : Path f [] f
  | cons {f g h : Frame} {gs : List Frame} (step : f.EvolvesTo g) (rest : Path g gs h) :
    Path f (g :: gs) h

namespace Frame.Path
variable {f g h : Frame} {gs hs : List Frame}

theorem single (step : f.EvolvesTo g) : Path f [g] g := .cons step (.nil g)

theorem append (hfg : Path f gs g) (hgh : Path g hs h) : Path f (gs ++ hs) h := by
  induction hfg with
  | nil f => exact hgh
  | cons step rest ih => exact .cons step (ih hgh)

theorem getLastD_eq (hfg : Path f gs g) : gs.getLastD f = g := by
  induction hfg with
  | nil f => rfl
  | cons step rest ih => rw [List.getLastD_cons, ih]

/-- Every frame on a path has evolved from all the frames before it. -/
theorem pairwise (hfg : Path f gs g) : (f :: gs).Pairwise EvolvesTo := by
  induction hfg with
  | nil f => simp
  | cons step rest ih =>
    refine List.pairwise_cons.mpr ⟨fun b hb => ?_, ih⟩
    rcases List.mem_cons.mp hb with rfl | hb
    · exact step
    · exact step.trans ((List.pairwise_cons.mp ih).1 b hb)

theorem evolves (hfg : Path f gs g) : f.EvolvesTo g := by
  induction hfg with
  | nil f => exact .refl f
  | cons step rest ih => exact step.trans ih

/-- Along a path the kind of a slot changes at most as often as its height allows. -/
theorem changes_le_height (hfg : Path f gs g) (s : SlotId) :
    changes ((f :: gs).map fun a => a.kind? s) ≤ (f.kind? s).elim 0 Kind.height := by
  induction hfg with
  | nil f => simp [changes]
  | @cons f a h gs step rest ih =>
    rw [List.map_cons, List.map_cons, changes]
    rw [List.map_cons] at ih
    -- The height at `f` pays for the first change; what is left of it bounds the rest.
    by_cases hk : f.kind? s = a.kind? s
    · rw [if_pos hk, hk]
      omega
    · have hlt := step.height_lt hk
      rw [if_neg hk]
      omega

theorem changes_le_two (hfg : Path f gs g) (s : SlotId) :
    changes ((f :: gs).map fun a => a.kind? s) ≤ 2 := by
  refine Nat.le_trans (hfg.changes_le_height s) ?_
  cases f.kind? s with
  | none => exact Nat.zero_le 2
  | some k => exact k.height_le_two

end Frame.Path

namespace Stmt

mutual

/-- The frames that an execution visits are a path to the frame that it leaves,
whether it succeeds or faults halfway. -/
theorem path_visited (mem : Allocator) :
    ∀ (c : Stmt) (f : Frame), f.Path (c.visited mem f) (c.exec mem f).frame
  | .assign s e, f => .single (step_evolves mem f rfl)
  | .create s e, f => .single (step_evolves mem f rfl)
  | .store s i v, f => .single (step_evolves mem f rfl)
  | .block body, f => by
    rw [visited, reached, exec]
    exact path_visited_all mem body f

theorem path_visited_all (mem : Allocator) : ∀ (body : List Stmt) (f : Frame),
    f.Path ((reachedAll mem f body).map fun (g, d) => (d.exec mem g).frame)
      (execAll mem f body).frame
  | [], f => .nil f
  | c :: rest, f => by
    have hc := path_visited mem c f
    rw [visited] at hc
    rw [execAll, reachedAll, List.map_append]
    simp only [Outcome.after, Outcome.andThen]
    -- Nothing is visited behind a fault, so the path of `c` is the whole path then.
    cases hr : (c.exec mem f).result with
    | error r => simpa using hc
    | ok u => exact hc.append (path_visited_all mem rest (c.exec mem f).frame)

end

end Stmt

namespace Operation

theorem path_visited (mem : Allocator) (f : Frame) (op : Operation) :
    f.Path (op.visited mem f) (op.perform mem f).frame := by
  cases op with
  | exec c => exact c.path_visited mem f
  | write s v => exact .single (update_evolves mem f rfl)
  | setKind s k => exact .single (update_evolves mem f rfl)
  | writeAs p s x => exact .single (update_evolves mem f rfl)
  | writeObject s v => exact .single (update_evolves mem f rfl)
  | storeElement s i n => exact .single (update_evolves mem f rfl)

/-- The frames that a history visits are a path to the frame that it leaves. -/
theorem path_visitedAll (mem : Allocator) (f : Frame) (ops : List Operation) :
    f.Path (visitedAll mem f ops) (performAll mem f ops).1 := by
  induction ops generalizing f with
  | nil => exact .nil f
  | cons op ops ih => exact (path_visited mem f op).append (ih (op.perform mem f).frame)

end Operation

/-- **Kinds widen and values stay, over whole histories.** A frame evolves to the one
that a history of operations leaves, whatever the operations and their outcomes. More
than that, every frame visited on the way has evolved from all the frames before it:
so a slot that has become generic stays generic, and typed reads of it are refused by
its kind from then on, and a slot that has received a value is never found empty
again. No slot changes its kind more than twice, counted over all the frames that are
visited. -/
theorem kinds_widen_over_history (mem : Allocator) (f : Frame) (ops : List Operation) :
    let visited := Operation.visitedAll mem f ops
    visited.getLastD f = (Operation.performAll mem f ops).1 ∧
    f.EvolvesTo (Operation.performAll mem f ops).1 ∧
    (∀ s, changes ((f :: visited).map fun g => g.kind? s) ≤ 2) ∧
    (f :: visited).Pairwise fun g h => g.EvolvesTo h ∧
      ∀ s, (g.kind s = .ok .object → h.kind s = .ok .object ∧
          ∀ p, h.readAs p s = .error (.kindMismatch s (.primitive p) .object)) ∧
        ∀ v, g.read s = .ok v →
          h.read s ≠ .error (.uninitialized s) ∧ h.array s ≠ .error (.uninitialized s) ∧
            ∀ p, h.readAs p s ≠ .error (.uninitialized s) := by
  have path := Operation.path_visitedAll mem f ops
  refine ⟨path.getLastD_eq, path.evolves, path.changes_le_two, path.pairwise.imp ?_⟩
  intro g h hgh
  refine ⟨hgh, fun s => ⟨fun hobj => ?_, fun v hv => ?_⟩⟩
  · have hstill := hgh.kind_object hobj
    exact ⟨hstill, Frame.readAs_of_kind_object hstill⟩
  · obtain ⟨w, hw⟩ := hgh.filled s v hv
    exact ⟨by simp [hw], Frame.array_ne_uninitialized hw, Frame.readAs_ne_uninitialized hw⟩

/-- A raw write puts a long into a slot that is not specialised. One block then
specialises the slot, generalises it and faults; the two operations behind it would
narrow the slot and are refused. The kind changes twice, which is as often as it
can. -/
theorem kinds_widen_within_one_block :
    let a : SlotId := ⟨0⟩
    let f := Layout.newFrame ⟨[⟨"a", .illegal⟩]⟩
    let ops : List Operation := [.write a (.long 5),
      .exec (.block [.assign a (.read a), .block [.assign a (.literal (.boolean true))],
        .store a (.read a) (.read a)]), .setKind a (.primitive .long), .writeAs .long a 7]
    let visited := Operation.visitedAll .unlimited f ops
    let g := (Operation.performAll .unlimited f ops).1
    visited.map (fun h => h.kind? a) = [some .illegal, some (.primitive .long), some .object,
        some .object, some .object, some .object] ∧
      changes ((f :: visited).map fun h => h.kind? a) = 2 ∧
      g.size = f.size ∧ g.readAs .long a = .error (.kindMismatch a (.primitive .long) .object) := by
  intro a f ops visited g
  obtain ⟨-, hfinal, -, hpair⟩ := kinds_widen_over_history .unlimited f ops
  refine ⟨by decide +kernel, by decide +kernel, hfinal.size_eq, ?_⟩
  -- The slot is generic behind the second assignment, and so it still is at the end.
  have hthen := List.pairwise_iff_getElem.mp hpair 3 6 (by decide +kernel) (by decide +kernel)
    (by decide)
  have hgeneric : ((f :: visited).get ⟨3, by decide +kernel⟩).kind a = .ok .object :=
    Frame.kind_eq_ok_iff.mpr (by decide +kernel)
  have hend : (f :: visited).get ⟨6, by decide +kernel⟩ = g := by decide +kernel
  exact hend ▸ ((hthen.2 a).1 hgeneric).2 .long

end TaggedSlots
