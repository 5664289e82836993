import TaggedSlots.Proofs.LastWrites
import TaggedSlots.Proofs.LogLines
import TaggedSlots.Proofs.StepReports

/-! # What a single step says about a slot

A single step is a single statement or an update of the frame. If it is carried out, it
replaces the content of its slot and reports that, in one of the ways of `Operation.Reports`;
if it is refused it does neither (`Operation.perform_reports`).

Seen from one slot of the frame, there are three things that a step may say: that the slot has
become generic because of an assignment (`Operation.generalized?`), that a value was stored in
it (`Operation.stored?`), and that its kind has changed. `Operation.Accounts` relates them to
what the slot held before and holds afterwards. Every single step accounts for every slot, its
own or another one (`Operation.exists_accounts`).
-/
namespace TaggedSlots

/-! ## Events about other slots -/

namespace Event
variable {e : Event} {s : SlotId}

theorem widening?_of_slot?_ne (h : e.slot? ≠ some s) : e.widening? s = none := by
  unfold widening?
  split
  · exact if_neg fun hts => h (congrArg some hts)
  · rfl

theorem generalizing?_of_slot?_ne (h : e.slot? ≠ some s) : e.generalizing? s = none := by
  unfold generalizing?
  split
  · exact if_neg fun hts => h (congrArg some hts)
  · rfl

theorem writing?_of_slot?_ne (h : e.slot? ≠ some s) : e.writing? s = none := by
  unfold writing?
  split
  · exact if_neg fun hts => h (congrArg some hts)
  · rfl

section Account
variable (s : SlotId) (generalized written : Option String) (a b : Kind)

theorem filterMap_widening?_account :
    (account s generalized written a b).filterMap (widening? s) =
      if a = b then [] else [(a, b)] := by
  unfold account retagging
  cases generalized <;> cases written <;> by_cases hab : a = b <;>
    simp [hab, widening?, List.filterMap_cons]

theorem filterMap_generalizing?_account :
    (account s generalized written a b).filterMap (generalizing? s) = generalized.toList := by
  unfold account retagging
  cases generalized <;> cases written <;> by_cases hab : a = b <;>
    simp [hab, generalizing?, List.filterMap_cons]

theorem filterMap_writing?_account :
    (account s generalized written a b).filterMap (writing? s) = written.toList := by
  unfold account retagging
  cases generalized <;> cases written <;> by_cases hab : a = b <;>
    simp [hab, writing?, List.filterMap_cons]

end Account

end Event

namespace Operation

/-! ## Single steps -/

/-- The slot that a single step is about: a single statement or an update. A block has none. -/
def place? : Operation → Option SlotId
  | .exec c => c.target?
  | op => op.target?

/-- The slot in which a single step stores a value. A change of kind and the store of an
element store none. -/
def receiver? : Operation → Option SlotId
  | .exec (.assign s _) | .exec (.create s _) => some s
  | .write s _ | .writeAs _ s _ | .writeObject s _ => some s
  | .exec (.store ..) | .exec (.block _) | .setKind .. | .storeElement .. => none

/-- The value that a single step has stored in a slot: the one that the slot holds then. -/
def stored? (mem : Allocator) (s : SlotId) (f : Frame) (op : Operation) : Option Value :=
  match (op.perform mem f).result with
  | .error _ => none
  | .ok () => if op.receiver? = some s then (op.perform mem f).frame.value? s else none

/-- The type for which an assignment has made a specialised slot generic: that of the value it
has stored there, if this is not the type of the slot. -/
def generalized? (mem : Allocator) (s : SlotId) (f : Frame) : Operation → Option String
  | .exec (.assign t e) =>
    (f.kind? s).bind fun k => (stored? mem s f (.exec (.assign t e))).bind k.generalizedBy?
  | _ => none

/-- How a single step that is carried out replaces the content of its slot, where the slot
held `old` before, and what it reports. -/
inductive Reports (s : SlotId) (old : Slot) : Operation → Slot → List Event → Prop where
  | assign {e : Expr} {v : Value} :
    Reports s old (.exec (.assign s e)) ⟨old.kind.join v.kind, some v⟩
      (Event.account s (old.kind.generalizedBy? v) (some v.typeName) old.kind
        (old.kind.join v.kind))
  | create {e : Expr} {a : LongArray} :
    Reports s old (.exec (.create s e)) ⟨.object, some (.array a)⟩
      (.allocated a.length s :: Event.account s none (some "long[]") old.kind .object)
  | store {i x : Expr} {a b : LongArray} (held : old.value = some (.array a)) :
    Reports s old (.exec (.store s i x)) ⟨old.kind, some (.array b)⟩ []
  | write {v : Value} :
    Reports s old (.write s v) ⟨old.kind, some v⟩ [.writing v.typeName s]
  | setKind {k : Kind} (widens : old.kind.canWidenTo k = true) :
    Reports s old (.setKind s k) ⟨k, old.value⟩ (Event.retagging s old.kind k)
  | writeAs {p : Primitive} {x : p.Carrier} (widens : old.kind.canWidenTo (.primitive p) = true) :
    Reports s old (.writeAs p s x) ⟨.primitive p, some (.of p x)⟩
      (Event.account s none (some (Value.of p x).typeName) old.kind (.primitive p))
  | writeObject {v : Value} :
    Reports s old (.writeObject s v) ⟨.object, some v⟩
      (Event.account s none (some v.typeName) old.kind .object)
  | storeElement {i : Nat} {n : Int64} {a b : LongArray} (held : old.value = some (.array a)) :
    Reports s old (.storeElement s i n) ⟨old.kind, some (.array b)⟩ []

section Reports
variable {f : Frame} {s : SlotId} {old : Slot}

theorem perform_exec_of_done {mem : Allocator} {c : Stmt} {g : Frame}
    (h : (c.exec mem f).quiet = .done g) : ((exec c).perform mem f).quiet = .done g := by
  obtain ⟨hr, hg⟩ := Outcome.quiet_eq_done_iff.mp h
  refine Outcome.quiet_eq_done_iff.mpr ⟨?_, hg⟩
  simp only [perform, hr]
  rfl

theorem perform_exec_of_fail {mem : Allocator} {c : Stmt} {g : Frame} {r : Fault}
    (h : (c.exec mem f).quiet = .fail r g) :
    ((exec c).perform mem f).quiet = .fail (.fault r) g := by
  obtain ⟨hr, hg⟩ := Outcome.quiet_eq_fail_iff.mp h
  refine Outcome.quiet_eq_fail_iff.mpr ⟨?_, hg⟩
  simp only [perform, hr]
  rfl

theorem exec_reports (mem : Allocator) {d : Stmt} (hd : d.target? = some s)
    (hs : f.slot? s = some old) :
    (∃ r, ((exec d).perform mem f).quiet = .fail r f ∧ ((exec d).perform mem f).log = []) ∨
      ∃ new, ((exec d).perform mem f).quiet = .done (f.put s new) ∧
        Reports s old (.exec d) new ((exec d).perform mem f).log := by
  cases d with
  | assign t e =>
    obtain rfl : t = s := Option.some.inj hd
    have hquiet := Stmt.execAssign_quiet f t e
    have hlog := Stmt.execAssign_log f t e
    cases he : e.eval f with
    | error r =>
      simp only [hs, he] at hquiet hlog
      exact .inl ⟨_, perform_exec_of_fail hquiet, hlog⟩
    | ok v =>
      simp only [hs, he] at hquiet hlog
      refine .inr ⟨_, perform_exec_of_done hquiet, ?_⟩
      rw [show ((exec (.assign t e)).perform mem f).log = _ from hlog]
      exact .assign
  | create t e =>
    obtain rfl : t = s := Option.some.inj hd
    have hquiet := Stmt.execCreate_quiet mem f t e
    have hlog := Stmt.execCreate_log mem f t e
    cases ha : Stmt.createdArray mem f t e with
    | error r =>
      simp only [ha] at hquiet hlog
      exact .inl ⟨_, perform_exec_of_fail hquiet, hlog⟩
    | ok a =>
      simp only [ha, hs] at hquiet hlog
      refine .inr ⟨_, perform_exec_of_done hquiet, ?_⟩
      rw [show ((exec (.create t e)).perform mem f).log = _ from hlog]
      exact .create
  | store t i x =>
    obtain rfl : t = s := Option.some.inj hd
    have hquiet := Stmt.execStore_quiet f t i x
    have hlog := Stmt.execStore_log f t i x
    cases hb : Stmt.storedArray f t i x with
    | error r =>
      simp only [hb] at hquiet
      exact .inl ⟨_, perform_exec_of_fail hquiet, hlog⟩
    | ok b =>
      obtain ⟨old', a, k, n, hs', held, -⟩ := Stmt.storedArray_eq_ok hb
      obtain rfl : old = old' := Option.some.inj (hs.symm.trans hs')
      simp only [hb, Frame.replaceArray_of_slot? hs] at hquiet
      refine .inr ⟨_, perform_exec_of_done hquiet, ?_⟩
      rw [show ((exec (.store t i x)).perform mem f).log = _ from hlog]
      exact .store held
  | block body => cases hd

/-- **A single step does and reports everything or nothing.** -/
theorem perform_reports (mem : Allocator) {op : Operation} (hop : op.place? = some s)
    (hs : f.slot? s = some old) :
    (∃ r, (op.perform mem f).quiet = .fail r f ∧ (op.perform mem f).log = []) ∨
      ∃ new, (op.perform mem f).quiet = .done (f.put s new) ∧
        Reports s old op new (op.perform mem f).log := by
  cases op with
  | exec d => exact exec_reports mem hop hs
  | write t v =>
    obtain rfl : t = s := Option.some.inj hop
    refine .inr ⟨{ old with value := some v }, ?_, ?_⟩
    · rw [perform, quiet_ofUpdate, Frame.write_quiet hs, ofUpdate_done]
    · rw [show ((write t v).perform mem f).log = _ from Frame.write_log f t v]
      exact .write
  | setKind t k =>
    obtain rfl : t = s := Option.some.inj hop
    by_cases hk : old.kind.canWidenTo k = true
    · refine .inr ⟨{ old with kind := k }, ?_, ?_⟩
      · rw [perform, quiet_ofUpdate, Frame.setKind_quiet hs hk, ofUpdate_done]
      · rw [show ((setKind t k).perform mem f).log = _ from Frame.setKind_log hs hk]
        exact .setKind hk
    · refine .inl ⟨.access (.narrowing t old.kind k), ?_, Frame.setKind_log_of_narrowing hs hk⟩
      simp [perform, Frame.setKind, hs, hk]
  | writeAs p t x =>
    obtain rfl : t = s := Option.some.inj hop
    by_cases hk : old.kind.canWidenTo (.primitive p) = true
    · refine .inr ⟨⟨.primitive p, some (.of p x)⟩, ?_, ?_⟩
      · rw [perform, quiet_ofUpdate, Frame.writeAs, Frame.writeTagged_quiet hs _ hk, ofUpdate_done]
      · rw [show ((writeAs p t x).perform mem f).log = _ from Frame.writeTagged_log hs _ hk]
        exact .writeAs hk
    · refine .inl ⟨.access (.narrowing t old.kind (.primitive p)), ?_,
        Frame.writeTagged_log_of_narrowing hs _ hk⟩
      simp [perform, Frame.writeAs, Frame.writeTagged, hs, hk]
  | writeObject t v =>
    obtain rfl : t = s := Option.some.inj hop
    have hk := Kind.canWidenTo_object old.kind
    refine .inr ⟨⟨.object, some v⟩, ?_, ?_⟩
    · rw [perform, quiet_ofUpdate, Frame.writeObject, Frame.writeTagged_quiet hs _ hk,
        ofUpdate_done]
    · rw [show ((writeObject t v).perform mem f).log = _ from Frame.writeTagged_log hs _ hk]
      exact .writeObject
  | storeElement t i n =>
    obtain rfl : t = s := Option.some.inj hop
    rw [perform, Frame.storeElement?]
    cases ha : f.array t with
    | error err => exact .inl ⟨.access err, rfl, rfl⟩
    | ok a =>
      obtain ⟨old', hs', held⟩ := Frame.array_eq_ok_iff.mp ha
      obtain rfl : old = old' := Option.some.inj (hs.symm.trans hs')
      cases hb : a.set? i n with
      | none => exact .inl ⟨.outOfBounds, by simp [hb], by simp [hb, Outcome.fail]⟩
      | some b =>
        refine .inr ⟨⟨old.kind, some (.array b)⟩, ?_, ?_⟩
        · simp [hb, Frame.replaceArray_of_slot? hs]
        · simp only [hb, Option.map_some]
          exact .storeElement held

end Reports

/-! ## What a step says about a slot -/

section Stored
variable {mem : Allocator} {f : Frame} {op : Operation} {s : SlotId}

theorem stored?_of_fail {r : Refusal} (h : (op.perform mem f).quiet = .fail r f) :
    stored? mem s f op = none := by
  simp only [stored?, (Outcome.quiet_eq_fail_iff.mp h).1]

theorem stored?_of_receiver?_ne (h : op.receiver? ≠ some s) : stored? mem s f op = none := by
  unfold stored?
  cases (op.perform mem f).result with
  | error r => rfl
  | ok u => exact if_neg h

theorem receiver?_of_stored? {v : Value} (h : stored? mem s f op = some v) :
    op.receiver? = some s := by
  by_cases hr : op.receiver? = some s
  · exact hr
  · rw [stored?_of_receiver?_ne hr] at h
    cases h

theorem stored?_of_done {old new : Slot} (hs : f.slot? s = some old)
    (h : (op.perform mem f).quiet = .done (f.put s new)) :
    stored? mem s f op = if op.receiver? = some s then new.value else none := by
  obtain ⟨hok, hframe⟩ := Outcome.quiet_eq_done_iff.mp h
  simp only [stored?, hok, hframe, Frame.value?_of_slot? (Frame.slot?_put_self hs new)]

/-- A generalisation is what an assignment does that stores a value of another type in a
specialised slot. -/
theorem generalized?_eq_some_iff {type : String} :
    generalized? mem s f op = some type ↔
      ∃ e p v, op = .exec (.assign s e) ∧ f.kind s = .ok (.primitive p) ∧
        stored? mem s f op = some v ∧ v.kind ≠ .primitive p ∧ type = v.typeName := by
  constructor
  · intro h
    unfold generalized? at h
    split at h
    case h_1 t e =>
      obtain ⟨k, hk, hbind⟩ := Option.bind_eq_some_iff.mp h
      obtain ⟨v, hv, htype⟩ := Option.bind_eq_some_iff.mp hbind
      obtain rfl : t = s := Option.some.inj (receiver?_of_stored? hv)
      cases k with
      | illegal | object => cases htype
      | primitive p =>
        by_cases hvp : v.kind = .primitive p
        · simp [Kind.generalizedBy?, hvp] at htype
        · simp only [Kind.generalizedBy?, if_neg hvp, Option.some.injEq] at htype
          exact ⟨e, p, v, rfl, Frame.kind_eq_ok_iff.mpr hk, hv, hvp, htype.symm⟩
    case h_2 => cases h
  · rintro ⟨e, p, v, rfl, hk, hv, hne, rfl⟩
    simp [generalized?, Frame.kind_eq_ok_iff.mp hk, hv, Kind.generalizedBy?, hne]

theorem generalized?_of_stored?_eq_none (h : stored? mem s f op = none) :
    generalized? mem s f op = none := by
  unfold generalized?
  split
  · simp [h]
  · rfl

end Stored

/-- What a single step does to a slot of the frame, which held `old` before and holds `new`
afterwards, and what it says about it. -/
structure Accounts (mem : Allocator) (s : SlotId) (f : Frame) (op : Operation) (old new : Slot) :
    Prop where
  after : (op.perform mem f).frame.slot? s = some new
  widens : old.kind.canWidenTo new.kind = true
  /-- Without a store the value may be another array, but not of another type. -/
  type : new.value.map Value.typeName = ((stored? mem s f op).or old.value).map Value.typeName
  retagged : (op.perform mem f).log.filterMap (Event.widening? s) =
    if old.kind = new.kind then [] else [(old.kind, new.kind)]
  generalized : (op.perform mem f).log.filterMap (Event.generalizing? s) =
    (generalized? mem s f op).toList
  written : (op.perform mem f).log.filterMap (Event.writing? s) =
    ((stored? mem s f op).map Value.typeName).toList

section Accounts
variable {mem : Allocator} {f : Frame} {op : Operation} {s : SlotId} {old new : Slot}

/-- A step that does nothing to a slot and does not mention it. -/
theorem Accounts.idle (hslot : (op.perform mem f).frame.slot? s = some old)
    (hstored : stored? mem s f op = none)
    (hlog : ∀ e ∈ (op.perform mem f).log, e.slot? ≠ some s) : Accounts mem s f op old old where
  after := hslot
  widens := old.kind.canWidenTo_refl
  type := by rw [hstored, Option.none_or]
  retagged := by
    rw [if_pos rfl, List.filterMap_eq_nil_iff]
    exact fun e he => Event.widening?_of_slot?_ne (hlog e he)
  generalized := by
    rw [generalized?_of_stored?_eq_none hstored, Option.toList_none, List.filterMap_eq_nil_iff]
    exact fun e he => Event.generalizing?_of_slot?_ne (hlog e he)
  written := by
    rw [hstored, Option.map_none, Option.toList_none, List.filterMap_eq_nil_iff]
    exact fun e he => Event.writing?_of_slot?_ne (hlog e he)

/-- A step that gives an account of its slot, perhaps after the report of an array. -/
theorem Accounts.of_log (created : List Nat)
    (hslot : (op.perform mem f).frame.slot? s = some new)
    (hwidens : old.kind.canWidenTo new.kind = true)
    (htype : new.value.map Value.typeName =
      ((stored? mem s f op).or old.value).map Value.typeName)
    (hlog : (op.perform mem f).log = created.map (.allocated · s) ++
      Event.account s (generalized? mem s f op) ((stored? mem s f op).map Value.typeName)
        old.kind new.kind) : Accounts mem s f op old new where
  after := hslot
  widens := hwidens
  type := htype
  retagged := by
    rw [hlog, List.filterMap_append, Event.filterMap_widening?_account]
    simp [Event.widening?]
  generalized := by
    rw [hlog, List.filterMap_append, Event.filterMap_generalizing?_account]
    simp [Event.generalizing?]
  written := by
    rw [hlog, List.filterMap_append, Event.filterMap_writing?_account]
    simp [Event.writing?]

/-- A step that is carried out gives an account of its slot. -/
theorem Reports.accounts (h : Reports s old op new (op.perform mem f).log)
    (hs : f.slot? s = some old) (hquiet : (op.perform mem f).quiet = .done (f.put s new)) :
    Accounts mem s f op old new := by
  have hslot : (op.perform mem f).frame.slot? s = some new := by
    rw [(Outcome.quiet_eq_done_iff.mp hquiet).2, Frame.slot?_put_self hs]
  have hstored := stored?_of_done hs hquiet
  have hnothing : op.receiver? = none → stored? mem s f op = none := fun hr => by
    simp [hstored, hr]
  generalize hlog : (op.perform mem f).log = log at h
  cases h with
  | @assign e v =>
    have hv : stored? mem s f (.exec (.assign s e)) = some v := hstored.trans (if_pos rfl)
    have hg : generalized? mem s f (.exec (.assign s e)) = old.kind.generalizedBy? v := by
      simp [generalized?, Frame.kind?_of_slot? hs, hv]
    refine .of_log [] hslot (Kind.canWidenTo_join _ _) (by rw [hv]; rfl) ?_
    rw [hlog, hv, hg]
    rfl
  | @create e a =>
    have hv : stored? mem s f (.exec (.create s e)) = some (.array a) :=
      hstored.trans (if_pos rfl)
    refine .of_log [a.length] hslot (Kind.canWidenTo_object _) (by rw [hv]; rfl) ?_
    rw [hlog, hv]
    rfl
  | @store i x a b held =>
    have hv : stored? mem s f (.exec (.store s i x)) = none := hnothing rfl
    refine .of_log [] hslot (Kind.canWidenTo_refl _) (by rw [hv, held]; rfl) ?_
    rw [hlog, hv]
    simp [generalized?, Event.account, Event.retagging]
  | @write v =>
    have hv : stored? mem s f (.write s v) = some v := hstored.trans (if_pos rfl)
    refine .of_log [] hslot (Kind.canWidenTo_refl _) (by rw [hv]; rfl) ?_
    rw [hlog, hv]
    simp [generalized?, Event.account, Event.retagging]
  | @setKind k widens =>
    have hv : stored? mem s f (.setKind s k) = none := hnothing rfl
    refine .of_log [] hslot widens (by rw [hv]; rfl) ?_
    rw [hlog, hv]
    rfl
  | @writeAs p x widens =>
    have hv : stored? mem s f (.writeAs p s x) = some (.of p x) := hstored.trans (if_pos rfl)
    refine .of_log [] hslot widens (by rw [hv]; rfl) ?_
    rw [hlog, hv]
    rfl
  | @writeObject v =>
    have hv : stored? mem s f (.writeObject s v) = some v := hstored.trans (if_pos rfl)
    refine .of_log [] hslot (Kind.canWidenTo_object _) (by rw [hv]; rfl) ?_
    rw [hlog, hv]
    rfl
  | @storeElement i n a b held =>
    have hv : stored? mem s f (.storeElement s i n) = none := hnothing rfl
    refine .of_log [] hslot (Kind.canWidenTo_refl _) (by rw [hv, held]; rfl) ?_
    rw [hlog, hv]
    simp [generalized?, Event.account, Event.retagging]

end Accounts

/-! ## Other slots -/

section Others
variable {mem : Allocator} {f : Frame} {op : Operation} {s t : SlotId}

/-- A single step changes no other slot. -/
theorem slot?_perform_of_ne (hop : op.place? = some t) (hts : s ≠ t) :
    (op.perform mem f).frame.slot? s = f.slot? s := by
  have hput : ∀ new, (f.put t new).slot? s = f.slot? s := Frame.slot?_put_ne hts
  have hupdate : op.target? = some t → (op.perform mem f).frame.slot? s = f.slot? s := by
    intro ht
    rcases op.perform_cases mem f ht with ⟨r, -, hframe⟩ | ⟨old, new, -, -, -, hframe⟩
    · rw [hframe]
    · rw [hframe, hput]
  cases op with
  | exec d =>
    show (d.exec mem f).frame.slot? s = f.slot? s
    rcases d.exec_cases mem f hop with ⟨r, -, hframe⟩ | ⟨old, new, -, -, -, hframe⟩
    · rw [hframe]
    · rw [hframe, hput]
  | _ => exact hupdate hop

/-- A single step stores a value in no other slot. -/
theorem place?_of_receiver? (h : op.receiver? = some s) : op.place? = some s := by
  unfold receiver? at h
  split at h <;> first | exact h | cases h

/-- A single step reports about its own slot only. -/
theorem slot?_of_mem_perform_log (hop : op.place? = some t) {e : Event}
    (h : e ∈ (op.perform mem f).log) : e.slot? = some t := by
  cases op with
  | exec d => exact Stmt.slot?_of_mem_log hop h
  | write u v =>
    obtain rfl : u = t := Option.some.inj hop
    rw [show ((write u v).perform mem f).log = _ from Frame.write_log f u v] at h
    rw [List.mem_singleton.mp h, Event.slot?]
  | setKind u k =>
    obtain rfl : u = t := Option.some.inj hop
    exact Frame.slot?_of_mem_setKind_log h
  | writeAs p u x =>
    obtain rfl : u = t := Option.some.inj hop
    exact Frame.slot?_of_mem_writeTagged_log h
  | writeObject u v =>
    obtain rfl : u = t := Option.some.inj hop
    exact Frame.slot?_of_mem_writeTagged_log h
  | storeElement u i n =>
    rw [perform] at h
    split at h <;> cases h

end Others

/-- **One step.** Whatever a single step does, it gives an account of every slot. -/
theorem exists_accounts (mem : Allocator) {f : Frame} {op : Operation} {s t : SlotId} {old : Slot}
    (hop : op.place? = some t) (hs : f.slot? s = some old) :
    ∃ new, Accounts mem s f op old new := by
  by_cases hts : s = t
  · subst hts
    rcases perform_reports mem hop hs with ⟨r, hfail, hlog⟩ | ⟨new, hdone, hrep⟩
    · refine ⟨old, .idle ?_ (stored?_of_fail hfail) ?_⟩
      · rw [(Outcome.quiet_eq_fail_iff.mp hfail).2, hs]
      · rw [hlog]
        intro e he
        cases he
    · exact ⟨new, hrep.accounts hs hdone⟩
  · refine ⟨old, .idle ?_ ?_ ?_⟩
    · rw [slot?_perform_of_ne hop hts, hs]
    · exact stored?_of_receiver?_ne fun h =>
        hts (Option.some.inj ((place?_of_receiver? h).symm.trans hop))
    · intro e he hslot
      rw [slot?_of_mem_perform_log hop he] at hslot
      exact hts (Option.some.inj hslot).symm

end Operation

end TaggedSlots
