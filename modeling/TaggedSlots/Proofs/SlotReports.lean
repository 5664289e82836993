import TaggedSlots.Proofs.SlotAccounts

/-! # The log tells the history of a slot

How a slot of a frame was specialised can be told from the log alone, whatever was done to
the frame and whatever of it was refused (`log_tells_slot_history`). Every change of the
slot's kind is reported, so the reports of changes lead from its first kind to its last one.
A generalisation is reported for each assignment that makes a specialised slot generic, and
for nothing else. Every value that is stored in the slot is reported with its type, so the
last such report names the type of the value that the slot holds in the end.

A history is a row of single steps, and its log consists of what they report, with the
announcements of blocks anywhere in between (`Operation.Recorded`). Each part of the theorem is
an induction over such rows, in which a single step is known by its account of the slot.
-/
namespace TaggedSlots

/-! ## Chains of kinds -/

/-- Changes of a kind: each starts where the one before has led to, and widens the kind to a
different one. -/
inductive Kind.Chain : Kind → List (Kind × Kind) → Kind → Prop where
  | nil (a : Kind) : Chain a [] a
  | cons {a b c : Kind} {changes : List (Kind × Kind)} (differs : a ≠ b)
    (widens : a.canWidenTo b = true) (rest : Chain b changes c) : Chain a ((a, b) :: changes) c

namespace Kind.Chain
variable {a b : Kind} {changes : List (Kind × Kind)}

/-- Every change uses up height. -/
theorem length_add_height_le (h : Chain a changes b) : changes.length + b.height ≤ a.height := by
  induction h with
  | nil a => simp
  | cons differs widens rest ih =>
    have hlt := height_lt_of_canWidenTo widens differs
    rw [List.length_cons]
    omega

theorem length_le_two (h : Chain a changes b) : changes.length ≤ 2 := by
  have hle := h.length_add_height_le
  have htwo := a.height_le_two
  omega

end Kind.Chain

/-! ## Histories -/

namespace Operation

/-- The single steps of an operation, each with the frame that it is performed on: those that
an execution gets to, or the update itself. -/
def reached (mem : Allocator) (f : Frame) : Operation → List (Frame × Operation)
  | .exec c => (c.reached mem f).map fun (g, d) => (g, .exec d)
  | op => [(f, op)]

/-- The single steps of a history, in order. -/
def reachedAll (mem : Allocator) (f : Frame) : List Operation → List (Frame × Operation)
  | [] => []
  | op :: ops => op.reached mem f ++ reachedAll mem (op.perform mem f).frame ops

/-- The values that single steps have stored in a slot, in order. -/
def allStored (mem : Allocator) (s : SlotId) (steps : List (Frame × Operation)) : List Value :=
  steps.filterMap fun (g, op) => stored? mem s g op

/-- The types for which single steps have generalised a slot, in order. -/
def allGeneralized (mem : Allocator) (s : SlotId) (steps : List (Frame × Operation)) :
    List String :=
  steps.filterMap fun (g, op) => generalized? mem s g op

theorem allStored_cons (mem : Allocator) (s : SlotId) (f : Frame) (op : Operation)
    (steps : List (Frame × Operation)) :
    allStored mem s ((f, op) :: steps) = (stored? mem s f op).toList ++ allStored mem s steps := by
  cases hv : stored? mem s f op <;> simp [allStored, hv]

theorem allGeneralized_cons (mem : Allocator) (s : SlotId) (f : Frame) (op : Operation)
    (steps : List (Frame × Operation)) :
    allGeneralized mem s ((f, op) :: steps) =
      (generalized? mem s f op).toList ++ allGeneralized mem s steps := by
  cases hg : generalized? mem s f op <;> simp [allGeneralized, hg]

/-- The frames that a history visits are those behind its single steps. -/
theorem visitedAll_eq_map (mem : Allocator) (f : Frame) (ops : List Operation) :
    visitedAll mem f ops = (reachedAll mem f ops).map fun (g, op) => (op.perform mem g).frame := by
  induction ops generalizing f with
  | nil => rfl
  | cons op ops ih =>
    rw [visitedAll, reachedAll, List.map_append, ih]
    cases op with
    | exec c =>
      rw [visited, Stmt.visited, reached, List.map_map]
      rfl
    | _ => rfl

/-- Single steps in a row, each performed on the frame that the one before has left, with
their log. The announcements of blocks may stand anywhere between the reports of the steps. -/
inductive Recorded (mem : Allocator) :
    Frame → List (Frame × Operation) → List Event → Frame → Prop where
  | nil (f : Frame) : Recorded mem f [] [] f
  | announce {f g : Frame} {steps : List (Frame × Operation)} {log : List Event}
    (l : NodeLabel) (rest : Recorded mem f steps log g) :
    Recorded mem f steps (.executing l :: log) g
  | step {f g : Frame} {op : Operation} {s : SlotId} {steps : List (Frame × Operation)}
    {log : List Event} (single : op.place? = some s)
    (rest : Recorded mem (op.perform mem f).frame steps log g) :
    Recorded mem f ((f, op) :: steps) ((op.perform mem f).log ++ log) g

namespace Recorded
variable {mem : Allocator} {f g h : Frame} {xs ys : List (Frame × Operation)}
  {log log' : List Event}

theorem single {op : Operation} {s : SlotId} (hop : op.place? = some s) :
    Recorded mem f [(f, op)] (op.perform mem f).log (op.perform mem f).frame := by
  have hstep := step hop (nil (op.perform mem f).frame)
  rwa [List.append_nil] at hstep

theorem append (hfg : Recorded mem f xs log g) (hgh : Recorded mem g ys log' h) :
    Recorded mem f (xs ++ ys) (log ++ log') h := by
  induction hfg with
  | nil f => exact hgh
  | announce l rest ih => exact .announce l (ih hgh)
  | step single rest ih =>
    rw [List.cons_append, List.append_assoc]
    exact .step single (ih hgh)

end Recorded

mutual

/-- The log of an execution records the single statements that it gets to, whether it
succeeds or faults halfway. -/
theorem recorded_exec (mem : Allocator) : ∀ (c : Stmt) (f : Frame),
    Recorded mem f ((c.reached mem f).map fun (g, d) => (g, .exec d)) (c.exec mem f).log
      (c.exec mem f).frame
  | .assign s e, f => .single rfl
  | .create s e, f => .single rfl
  | .store s i v, f => .single rfl
  | .block body, f => by
    rw [Stmt.reached, Stmt.exec]
    exact recorded_execAll mem body f

theorem recorded_execAll (mem : Allocator) : ∀ (body : List Stmt) (f : Frame),
    Recorded mem f ((Stmt.reachedAll mem f body).map fun (g, d) => (g, .exec d))
      (Stmt.execAll mem f body).log (Stmt.execAll mem f body).frame
  | [], f => .nil f
  | c :: rest, f => by
    have hc := recorded_exec mem c f
    rw [Stmt.execAll, Stmt.reachedAll, List.map_append]
    simp only [Outcome.after, Outcome.andThen]
    refine .announce c.label ?_
    -- Behind a fault there are no steps and no reports, so `c` is all that is recorded.
    cases hr : (c.exec mem f).result with
    | error r => simpa using hc
    | ok u => exact hc.append (recorded_execAll mem rest (c.exec mem f).frame)

end

/-- **A history.** Its log records its single steps. -/
theorem recorded_performAll (mem : Allocator) (f : Frame) (ops : List Operation) :
    Recorded mem f (reachedAll mem f ops) (performAll mem f ops).2 (performAll mem f ops).1 := by
  induction ops generalizing f with
  | nil => exact .nil f
  | cons op ops ih =>
    have hfirst : Recorded mem f (op.reached mem f) (op.perform mem f).log
        (op.perform mem f).frame := by
      cases op with
      | exec c => exact recorded_exec mem c f
      | _ => exact .single rfl
    exact hfirst.append (ih (op.perform mem f).frame)

namespace Recorded
variable {mem : Allocator} {f g : Frame} {steps : List (Frame × Operation)} {log : List Event}
  {s : SlotId} {old : Slot}

/-- **Kinds.** The reports of changes lead from the first kind to the last one. -/
theorem chain (h : Recorded mem f steps log g) (hs : f.slot? s = some old) :
    ∃ last, g.kind? s = some last ∧
      Kind.Chain old.kind (log.filterMap (Event.widening? s)) last := by
  induction h generalizing old with
  | nil f => exact ⟨old.kind, Frame.kind?_of_slot? hs, .nil _⟩
  | announce l rest ih => exact ih hs
  | step single rest ih =>
    obtain ⟨new, account⟩ := exists_accounts mem single hs
    obtain ⟨last, hlast, hchain⟩ := ih account.after
    refine ⟨last, hlast, ?_⟩
    rw [List.filterMap_append, account.retagged]
    split
    case isTrue heq => rw [heq]; exact hchain
    case isFalse hne => exact .cons hne account.widens hchain

/-- No change is reported exactly if the kind is the same behind every step. -/
theorem widening?_eq_nil_iff (h : Recorded mem f steps log g) (hs : f.slot? s = some old) :
    log.filterMap (Event.widening? s) = [] ↔
      ∀ a ∈ steps.map (fun (g, op) => (op.perform mem g).frame), a.kind? s = some old.kind := by
  induction h generalizing old with
  | nil f => simp
  | announce l rest ih => exact ih hs
  | step single rest ih =>
    obtain ⟨new, account⟩ := exists_accounts mem single hs
    have hnew := Frame.kind?_of_slot? account.after
    rw [List.filterMap_append, account.retagged, List.map_cons, List.forall_mem_cons, hnew]
    by_cases heq : old.kind = new.kind
    · rw [if_pos heq, List.nil_append, ih account.after, heq]
      simp
    · simp [heq, Ne.symm heq]

/-- **Generalisations.** They are reported for the assignments that generalise the slot. -/
theorem generalized (h : Recorded mem f steps log g) (hs : f.slot? s = some old) :
    log.filterMap (Event.generalizing? s) = allGeneralized mem s steps := by
  induction h generalizing old with
  | nil f => rfl
  | announce l rest ih => exact ih hs
  | step single rest ih =>
    obtain ⟨new, account⟩ := exists_accounts mem single hs
    rw [List.filterMap_append, account.generalized, ih account.after, allGeneralized_cons]

/-- **Writes.** They are reported for the values that are stored in the slot. -/
theorem written (h : Recorded mem f steps log g) (hs : f.slot? s = some old) :
    log.filterMap (Event.writing? s) = (allStored mem s steps).map Value.typeName := by
  induction h generalizing old with
  | nil f => rfl
  | announce l rest ih => exact ih hs
  | step single rest ih =>
    obtain ⟨new, account⟩ := exists_accounts mem single hs
    rw [List.filterMap_append, account.written, ih account.after, allStored_cons, List.map_append,
      Option.toList_map]

/-- **Values.** The slot ends up with a value of the type that was stored last, and without a
store with one of the type that it had before. -/
theorem type (h : Recorded mem f steps log g) (hs : f.slot? s = some old) :
    (g.value? s).map Value.typeName =
      ((allStored mem s steps).getLast?.or old.value).map Value.typeName := by
  induction h generalizing old with
  | nil f => rw [Frame.value?_of_slot? hs]; rfl
  | announce l rest ih => exact ih hs
  | step single rest ih =>
    obtain ⟨new, account⟩ := exists_accounts mem single hs
    have htype := account.type
    -- What is stored later takes the place of what this step leaves.
    rw [ih account.after, allStored_cons, List.getLast?_append, Option.or_assoc, Option.map_or,
      Option.map_or, htype]
    cases stored? mem s _ _ <;> rfl

theorem exists_read_of_getLast? (h : Recorded mem f steps log g) (hs : f.slot? s = some old)
    {w : Value} (hw : (allStored mem s steps).getLast? = some w) :
    ∃ v, g.read s = .ok v ∧ v.typeName = w.typeName := by
  have htype := h.type hs
  rw [hw, Option.some_or, Option.map_some] at htype
  obtain ⟨v, hv, hvw⟩ := Option.map_eq_some_iff.mp htype
  obtain ⟨e, he, hev⟩ := Option.bind_eq_some_iff.mp hv
  exact ⟨v, Frame.read_eq_ok_iff.mpr ⟨e, he, hev⟩, hvw⟩

end Recorded

/-- An operation reports details only. -/
theorem perform_details (mem : Allocator) (f : Frame) (op : Operation) :
    (op.perform mem f).Details := by
  cases op with
  | exec c => exact Stmt.exec_details mem c f
  | write s v => exact f.write_details s v
  | setKind s k => exact f.setKind_details s k
  | writeAs p s x => exact f.writeTagged_details s _ _
  | writeObject s v => exact f.writeTagged_details s _ _
  | storeElement s i n =>
    rw [perform]
    split
    · exact .fail _ f
    · exact .fail _ f
    · exact .done _

theorem performAll_details (mem : Allocator) (f : Frame) (ops : List Operation) :
    ∀ e ∈ (performAll mem f ops).2, e.IsDetail := by
  induction ops generalizing f with
  | nil => exact nofun
  | cons op ops ih =>
    intro e he
    rcases List.mem_append.mp he with he | he
    · exact perform_details mem f op e he
    · exact ih (op.perform mem f).frame e he

end Operation

/-- **The log tells the history of a slot.** Anything is done to a frame, with any outcome. The
lines about changes of a slot's kind lead from its first kind to its last one, each of them to
a different kind, so there are at most two; there are none exactly if the kind never changed.
The lines about generalisations are those of the assignments that stored a value of another
type while the slot was specialised. The lines about writes are those of the values that were
stored in the slot: there are none exactly if nothing was stored, and otherwise the last of
them names the type of the value that the slot holds in the end. -/
theorem log_tells_slot_history (mem : Allocator) (f : Frame) (ops : List Operation) {s : SlotId}
    {start : Kind} (h : f.kind s = .ok start) :
    let final := (Operation.performAll mem f ops).1
    let lines := (Operation.performAll mem f ops).2.map Event.line
    let steps := Operation.reachedAll mem f ops
    (∃ changes last, final.kind s = .ok last ∧ Kind.Chain start changes last ∧
      changes.length ≤ 2 ∧
      lines.filter (fun t =>
          decide (Text.Begins ("DEBUG Slot " ++ s.text ++ " widened from ") t)) =
        changes.map (fun k =>
          "DEBUG Slot " ++ s.text ++ " widened from " ++ k.1.name ++ " to " ++ k.2.name) ∧
      (changes = [] ↔ ∀ g ∈ Operation.visitedAll mem f ops, g.kind s = .ok start)) ∧
    (lines.filter (fun t => decide (Text.Begins ("DEBUG Slot " ++ s.text ++ " got ") t)) =
      (Operation.allGeneralized mem s steps).map (fun type =>
        "DEBUG Slot " ++ s.text ++ " got " ++ type ++ ", generalizing to object") ∧
      ∀ g op type, Operation.generalized? mem s g op = some type ↔
        ∃ e p v, op = .exec (.assign s e) ∧ g.kind s = .ok (.primitive p) ∧
          Operation.stored? mem s g op = some v ∧ v.kind ≠ .primitive p ∧ type = v.typeName) ∧
    let writes := lines.filter fun t =>
      decide (Text.Begins "DEBUG Writing " t ∧ Text.Ends (" to slot " ++ s.text) t)
    writes = (Operation.allStored mem s steps).map (fun v =>
      "DEBUG Writing " ++ v.typeName ++ " to slot " ++ s.text) ∧
    (writes = [] ↔ ∀ x ∈ steps, Operation.stored? mem s x.1 x.2 = none) ∧
    (writes ≠ [] → ∃ v, final.read s = .ok v ∧
      writes.getLast? = some ("DEBUG Writing " ++ v.typeName ++ " to slot " ++ s.text)) := by
  intro final lines steps
  have hdetails := Operation.performAll_details mem f ops
  have hrec := Operation.recorded_performAll mem f ops
  obtain ⟨old, hs, rfl⟩ := Option.map_eq_some_iff.mp (Frame.kind_eq_ok_iff.mp h)
  refine ⟨?_, ⟨?_, ?_⟩, ?_⟩
  · obtain ⟨last, hlast, hchain⟩ := hrec.chain hs
    refine ⟨_, last, Frame.kind_eq_ok_iff.mpr hlast, hchain, hchain.length_le_two, ?_, ?_⟩
    · exact Event.filter_lines fun e he => (hdetails e he).widening_told s
    · rw [hrec.widening?_eq_nil_iff hs, Operation.visitedAll_eq_map]
      simp only [Frame.kind_eq_ok_iff]
  · rw [← hrec.generalized hs]
    exact Event.filter_lines fun e he => (hdetails e he).generalizing_told s
  · exact fun g op type => Operation.generalized?_eq_some_iff
  · intro writes
    have hwrites : writes = (Operation.allStored mem s steps).map (fun v =>
        "DEBUG Writing " ++ v.typeName ++ " to slot " ++ s.text) := by
      have hlines := Event.filter_lines fun e he => (hdetails e he).writing_told s
      rw [hrec.written hs, List.map_map] at hlines
      exact hlines
    refine ⟨hwrites, ?_, fun hne => ?_⟩
    · rw [hwrites, List.map_eq_nil_iff]
      exact List.filterMap_eq_nil_iff
    · have hstored : Operation.allStored mem s steps ≠ [] := by
        intro hnil
        rw [hwrites, hnil] at hne
        exact hne rfl
      obtain ⟨w, hw⟩ := Option.ne_none_iff_exists'.mp (mt List.getLast?_eq_none_iff.mp hstored)
      obtain ⟨v, hv, hvw⟩ := hrec.exists_read_of_getLast? hs hw
      refine ⟨v, hv, ?_⟩
      rw [hwrites, List.getLast?_map, hw, Option.map_some, hvw]

/-- A slot that is not specialised receives a long and then a boolean, in a block that faults
behind it; another kind is refused, and a raw write stores a long again. The log tells the two
changes of its kind, that a boolean made it generic, and that it holds a long in the end. -/
theorem history_of_generalised_slot :
    let a : SlotId := ⟨0⟩
    let f := Layout.newFrame ⟨[⟨"a", .illegal⟩, ⟨"b", .primitive .boolean⟩]⟩
    let ops : List Operation := [
      .exec (.block [.assign a (.literal (.long 1)),
        .block [.assign a (.literal (.boolean true)), .create ⟨1⟩ (.read a)], .create a (.read a)]),
      .setKind a (.primitive .long), .write a (.long 5)]
    let final := (Operation.performAll .unlimited f ops).1
    let lines := (Operation.performAll .unlimited f ops).2.map Event.line
    let steps := Operation.reachedAll .unlimited f ops
    (f.kind a = .ok .illegal ∧ final.kind a = .ok .object ∧ final.read a = .ok (.long 5) ∧
        Operation.allGeneralized .unlimited a steps = ["boolean"] ∧
        Operation.allStored .unlimited a steps = [.long 1, .boolean true, .long 5]) ∧
      (∃ changes, Kind.Chain .illegal changes .object ∧ changes.length ≤ 2 ∧
        lines.filter (fun t =>
            decide (Text.Begins ("DEBUG Slot " ++ a.text ++ " widened from ") t)) =
          changes.map (fun k =>
            "DEBUG Slot " ++ a.text ++ " widened from " ++ k.1.name ++ " to " ++ k.2.name)) ∧
      lines.filter (fun t => decide (Text.Begins ("DEBUG Slot " ++ a.text ++ " got ") t)) =
        ["DEBUG Slot " ++ a.text ++ " got " ++ "boolean" ++ ", generalizing to object"] ∧
      (lines.filter (fun t => decide (Text.Begins "DEBUG Writing " t ∧
          Text.Ends (" to slot " ++ a.text) t))).getLast? =
        some ("DEBUG Writing " ++ "long" ++ " to slot " ++ a.text) := by
  intro a f ops final lines steps
  have hstart : f.kind a = .ok .illegal := rfl
  have hfinal : final.kind a = .ok .object := Frame.kind_eq_ok_iff.mpr (by decide +kernel)
  have hread : final.read a = .ok (.long 5) :=
    Frame.read_eq_ok_iff.mpr ⟨⟨.object, some (.long 5)⟩, by decide +kernel, rfl⟩
  have hgeneralized : Operation.allGeneralized .unlimited a steps = ["boolean"] := by
    decide +kernel
  have hstored : Operation.allStored .unlimited a steps = [.long 1, .boolean true, .long 5] := by
    decide +kernel
  obtain ⟨⟨changes, last, hlast, hchain, hlength, hlines, -⟩, ⟨hgot, -⟩, hwrites, -, hvalue⟩ :=
    log_tells_slot_history .unlimited f ops hstart
  obtain rfl : last = .object := Except.ok.inj (hlast.symm.trans hfinal)
  refine ⟨⟨hstart, hfinal, hread, hgeneralized, hstored⟩, ⟨changes, hchain, hlength, ?_⟩, ?_, ?_⟩
  · exact hlines
  · rw [hgeneralized] at hgot
    exact hgot
  · rw [hstored] at hwrites
    obtain ⟨v, hv, hwriting⟩ := hvalue (by rw [hwrites]; exact List.cons_ne_nil _ _)
    obtain rfl : v = .long 5 := Except.ok.inj (hv.symm.trans hread)
    exact hwriting

end TaggedSlots
