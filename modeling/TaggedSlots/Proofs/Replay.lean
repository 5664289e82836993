import TaggedSlots.Proofs.Flattening
import TaggedSlots.Proofs.Locality
import TaggedSlots.Proofs.Widening

/-! # Executing a statement again changes nothing

A statement that reads no slot which it targets can be executed again: if it succeeds, it
succeeds a second time on the frame that it has left, and leaves this very frame
(`replay_leaves_frame`). The slots may be written several times in it, with values of
different types.

The second execution does not take the same ways as the first. It finds every slot with
the kind that the first one has left there, so what specialised a slot now finds it
specialised, or generic. It stores the same values all the same, because nothing that they
depend on is ever changed; and it leaves the kinds alone, because each of them is already a
join in which the kinds of all these values have part.

While the second execution goes through the steps, the frame `g` it has reached is compared
with the frame `f` that the first one had reached there (`Frame.Trails`): the kinds in `g`
are the final ones throughout, and the values in `g` are those in `f` wherever no step to
come will store one. At the end no step is to come, so `g` has the final kinds and values.
-/
namespace TaggedSlots

namespace Stmt

/-- The slots that a single statement reads: those of its expressions, and the slot of the
array if it stores an element. -/
def consulted : Stmt → List SlotId
  | .assign _ e => e.slots
  | .create _ e => e.slots
  | .store s i v => s :: (i.slots ++ v.slots)
  | .block _ => []

/-- The slots that a statement reads. -/
def reads (c : Stmt) : List SlotId := c.steps.flatMap consulted

end Stmt

/-! ## Frames on the way -/

namespace Frame

/-- A slot is determined by its kind and by what reading it gives. -/
theorem slot?_eq_of_kind?_of_read {f g : Frame} {s : SlotId} (hkind : g.kind? s = f.kind? s)
    (hread : g.read s = f.read s) : g.slot? s = f.slot? s := by
  cases hf : f.slot? s with
  | none =>
    rw [kind?, kind?, hf, Option.map_none] at hkind
    exact Option.map_eq_none_iff.mp hkind
  | some e =>
    rw [kind?_of_slot? hf] at hkind
    obtain ⟨e', hg, hk⟩ := Option.map_eq_some_iff.mp hkind
    obtain ⟨k, v⟩ := e
    obtain ⟨k', v'⟩ := e'
    obtain rfl : k' = k := hk
    cases v <;> cases v' <;> simp_all [read]

/-- The frame `g` of a second execution trails the frame `f` of the first one: it has the
kinds of the last frame already, and the values of `f` in all slots that none of the steps
to come will change. -/
structure Trails (last : Frame) (steps : List Stmt) (f g : Frame) : Prop where
  kinds : ∀ s, g.kind? s = last.kind? s
  values : ∀ s, (∀ d ∈ steps, d.target? ≠ some s) → g.read s = f.read s

namespace Trails
variable {last f g : Frame}

/-- When no steps are left, the second execution has caught up. -/
theorem eq_last (h : Trails last [] last g) : g = last := by
  refine ext_slot? fun s => ?_
  exact slot?_eq_of_kind?_of_read (h.kinds s) (h.values s nofun)

/-- The second execution goes on trailing when both store the same value in the slot of the
next step and the second one keeps the kind of the slot. -/
theorem put {d : Stmt} {rest : List Stmt} {t : SlotId} {old gold : Slot}
    (h : Trails last (d :: rest) f g) (hd : d.target? = some t) (hold : f.slot? t = some old)
    (hgold : g.slot? t = some gold) (k : Kind) (v : Value) :
    Trails last rest (f.put t ⟨k, some v⟩) (g.put t ⟨gold.kind, some v⟩) := by
  refine ⟨fun s => ?_, fun s hs => ?_⟩
  · rw [← h.kinds s]
    by_cases hst : s = t
    · subst hst
      rw [kind?_of_slot? (slot?_put_self hgold _), kind?_of_slot? hgold]
    · rw [kind?, kind?, slot?_put_ne hst]
  · by_cases hst : s = t
    · subst hst
      rw [read, read, slot?_put_self hgold, slot?_put_self hold]
    · -- The slot is not the step's either, so the values were the same before.
      rw [read_put_ne hst, read_put_ne hst]
      refine h.values s fun d' hd' => ?_
      rcases List.mem_cons.mp hd' with rfl | hd'
      · rw [hd]
        exact fun hts => hst (Option.some.inj hts).symm
      · exact hs d' hd'

end Trails

end Frame

namespace Stmt

/-! ## One step -/

/-- A step that does not read its own slot stores the same value on every frame on which
the slots that it reads hold the same values. -/
theorem exec_of_replaces {mem : Allocator} {f g : Frame} {d : Stmt} {t : SlotId}
    {old new gold : Slot} (hd : d.target? = some t) (hown : t ∉ d.consulted)
    (hread : ∀ s ∈ d.consulted, g.read s = f.read s) (hrep : Replaces mem f old d new)
    (hg : g.slot? t = some gold) :
    ∃ v : Value, new = ⟨old.kind.join v.kind, some v⟩ ∧
      (d.exec mem g).quiet = .done (g.put t ⟨gold.kind.join v.kind, some v⟩) := by
  cases hrep with
  | @assign s e v value =>
    obtain rfl : s = t := Option.some.inj hd
    refine ⟨v, rfl, ?_⟩
    rw [exec, execAssign_quiet, hg, Expr.eval_congr hread, value]
  | @create s e a created =>
    obtain rfl : s = t := Option.some.inj hd
    have hcreated : createdArray mem g s e = .ok a := by
      rw [← created, createdArray, createdArray, Expr.evalAs_congr hread]
    -- The kind of an array is `object`, so the join is the one that a creation leaves.
    refine ⟨.array a, by rw [Value.kind, Kind.join_object], ?_⟩
    rw [exec, execCreate_quiet, hcreated, hg, Value.kind, Kind.join_object]
  | @store s i v a b k n held replaced =>
    obtain rfl : s = t := Option.some.inj hd
    exact absurd List.mem_cons_self hown

/-- **One step.** If a step succeeds in the first execution, it does in the second, which
goes on trailing. -/
theorem exec_trails {mem : Allocator} {last f g : Frame} {d : Stmt} {rest : List Stmt}
    {t : SlotId} (hd : d.target? = some t)
    (hapart : ∀ s ∈ d.consulted, ∀ d' ∈ d :: rest, d'.target? ≠ some s)
    (hok : (d.exec mem f).result = .ok ()) (hlast : (d.exec mem f).frame.EvolvesTo last)
    (h : Frame.Trails last (d :: rest) f g) :
    (d.exec mem g).result = .ok () ∧
      Frame.Trails last rest (d.exec mem f).frame (d.exec mem g).frame := by
  rcases d.exec_cases mem f hd with ⟨r, hfault, -⟩ | ⟨old, new, hold, hrep, -, hframe⟩
  · rw [hok] at hfault
    cases hfault
  · have hnew : (d.exec mem f).frame.slot? t = some new := by
      rw [hframe, Frame.slot?_put_self hold]
    -- The slot has its final kind in `g`, which the kind it has in the first run widens to.
    obtain ⟨k, hk, hwide⟩ :=
      hlast.widened t new.kind (Frame.kind_eq_ok_iff.mpr (Frame.kind?_of_slot? hnew))
    rw [Frame.kind_eq_ok_iff] at hk
    obtain ⟨gold, hgold, rfl⟩ := Option.map_eq_some_iff.mp ((h.kinds t).trans hk)
    have hown : t ∉ d.consulted := fun ht => hapart t ht d List.mem_cons_self hd
    have hread : ∀ s ∈ d.consulted, g.read s = f.read s :=
      fun s hs => h.values s (hapart s hs)
    obtain ⟨v, rfl, hexec⟩ := exec_of_replaces hd hown hread hrep hgold
    obtain ⟨hgok, hgframe⟩ := Outcome.quiet_eq_done_iff.mp hexec
    have hjoin : gold.kind.join v.kind = gold.kind :=
      Kind.join_eq_left (Kind.canWidenTo_trans (Kind.canWidenTo_join_right _ _) hwide)
    rw [hjoin] at hgframe
    rw [hframe, hgframe]
    exact ⟨hgok, h.put hd hold hgold _ v⟩

/-! ## All steps -/

/-- **A run.** Steps that succeed in the first execution and leave a frame do so in an
execution that trails it. -/
theorem execAll_trails {mem : Allocator} {last : Frame} {ds : List Stmt}
    (hds : ∀ d ∈ ds, ∃ t, d.target? = some t)
    (hapart : ∀ d ∈ ds, ∀ s ∈ d.consulted, ∀ d' ∈ ds, d'.target? ≠ some s) {f g : Frame}
    (hrun : (execAll mem f ds).quiet = .done last) (h : Frame.Trails last ds f g) :
    (execAll mem g ds).quiet = .done last := by
  induction ds generalizing f g with
  | nil =>
    obtain rfl : f = last := (Outcome.quiet_eq_done_iff.mp hrun).2
    rw [h.eq_last]
    exact hrun
  | cons d rest ih =>
    obtain ⟨t, ht⟩ := hds d List.mem_cons_self
    have hrest : ∀ d' ∈ rest, ∃ t, d'.target? = some t :=
      fun d' hd' => hds d' (List.mem_cons_of_mem d hd')
    cases hok : (d.exec mem f).result with
    | error r =>
      rw [execAll_cons_of_error hok] at hrun
      cases hrun
    | ok u =>
      rw [execAll_cons_of_ok hok] at hrun
      have hlast : (d.exec mem f).frame.EvolvesTo last := by
        rw [← (Outcome.quiet_eq_done_iff.mp hrun).2]
        refine execAll_related .refl (fun _ _ _ => .trans) (fun d' hd' f' => ?_) _
        obtain ⟨t', ht'⟩ := hrest d' hd'
        exact step_evolves mem f' ht'
      obtain ⟨hgok, htrails⟩ := exec_trails ht (hapart d List.mem_cons_self) hok hlast h
      rw [execAll_cons_of_ok hgok]
      refine ih hrest (fun d' hd' s hs d'' hd'' => ?_) hrun htrails
      exact hapart d' (List.mem_cons_of_mem d hd') s hs d'' (List.mem_cons_of_mem d hd'')

end Stmt

/-- **Executing a statement again changes nothing.** If no slot that a statement reads is a
target of it, and it succeeds, then it succeeds again on the frame that it has left, and
leaves this frame: the same kinds, values and array elements. -/
theorem replay_leaves_frame (mem : Allocator) {c : Stmt} (hc : ∀ s ∈ c.reads, s ∉ c.targets)
    {f : Frame} (hok : (c.exec mem f).result = .ok ()) :
    (c.exec mem (c.exec mem f).frame).result = .ok () ∧
      (c.exec mem (c.exec mem f).frame).frame = (c.exec mem f).frame := by
  have hrun : (c.exec mem f).quiet = .done (c.exec mem f).frame :=
    Outcome.quiet_eq_done_iff.mpr ⟨hok, rfl⟩
  rw [Stmt.exec_eq_steps] at hrun
  rw [← Outcome.quiet_eq_done_iff, Stmt.exec_eq_steps]
  refine Stmt.execAll_trails (fun d hd => c.target?_of_mem_steps hd) ?_ hrun ⟨fun s => rfl, ?_⟩
  · intro d hd s hs d' hd' ht
    exact hc s (List.mem_flatMap.mpr ⟨d, hd, hs⟩) (Stmt.mem_targets_iff.mpr ⟨d', hd', ht⟩)
  · -- Before the second execution only the targets of the steps have changed.
    intro s hs
    have hnot : s ∉ c.targets := fun ht => by
      obtain ⟨d, hd, ht⟩ := Stmt.mem_targets_iff.mp ht
      exact hs d hd ht
    rw [Frame.read, Frame.read, Stmt.slot?_of_not_mem_targets mem f hnot]

/-- A slot that is not specialised receives a long, a boolean and a long again, in nested
blocks, and an array is created in a slot for doubles. The first slot ends up generic, with
the last of the values; executing all of it again leaves the frame as it is. -/
theorem replay_of_mixed_writes :
    let size : SlotId := ⟨0⟩
    let a : SlotId := ⟨1⟩
    let b : SlotId := ⟨2⟩
    let f : Frame := ⟨[⟨.primitive .long, some (.long 2)⟩, ⟨.illegal, none⟩,
      ⟨.primitive .double, none⟩]⟩
    let c := Stmt.block [.assign a (.literal (.long 1)),
      .block [.assign a (.literal (.boolean true)), .create b (.read size)],
      .assign a (.binary .add (.read size) (.literal (.long 5)))]
    let g : Frame := ⟨[⟨.primitive .long, some (.long 2)⟩, ⟨.object, some (.long 7)⟩,
      ⟨.object, some (.array ⟨#[0, 0]⟩)⟩]⟩
    ((∀ s ∈ c.reads, s ∉ c.targets) ∧ (c.exec .unlimited f).result = .ok () ∧
        (c.exec .unlimited f).frame = g) ∧
      (c.exec .unlimited g).result = .ok () ∧ (c.exec .unlimited g).frame = g := by
  intro size a b f c g
  have hc : ∀ s ∈ c.reads, s ∉ c.targets := by decide
  have hturn : Stmt.inTurn? .unlimited f c.steps = some g := by decide +kernel
  obtain ⟨hok, hg⟩ := Outcome.quiet_eq_done_iff.mp (Stmt.exec_eq_done_iff.mpr hturn)
  have hreplay := replay_leaves_frame .unlimited hc hok
  rw [hg] at hreplay
  exact ⟨⟨hc, hok, hg⟩, hreplay⟩

end TaggedSlots
