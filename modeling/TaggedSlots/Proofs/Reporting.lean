import TaggedSlots.Routine
import TaggedSlots.Text.Escaped
import TaggedSlots.Text.Lines

/-! # What an execution reports

Executing statements reports details only: writes, changes of kind, new arrays, and the
statements themselves (`Event.IsDetail`, `Stmt.exec_details`). A routine adds its start and
its end. None of this is an error, and all of it is worded in a single line, because names
of types and nodes and decimal numerals have no line feeds in them
(`Routine.level_ne_error_of_mem_log`, `Routine.oneLine_of_mem_log`).

That a text is a single line is `Text.OneLine`. A message that is one stays one when its
control characters are escaped for the terminal.
-/
namespace TaggedSlots

/-! ## Texts of a single line -/

namespace Text

/-- A text without a line feed. -/
def OneLine (t : String) : Prop := '\n' ∉ t.toList

instance (t : String) : Decidable (OneLine t) := inferInstanceAs (Decidable (¬ _))

@[simp] theorem oneLine_append {t u : String} : OneLine (t ++ u) ↔ OneLine t ∧ OneLine u := by
  simp [OneLine]

/-- Numerals consist of digits. -/
@[simp] theorem oneLine_natText (n : Nat) : OneLine (Decimal.natText n) := by
  intro h
  rw [Decimal.natText, String.toList_ofList] at h
  exact absurd (Decimal.isDigit_of_mem_digits h) (by decide)

@[simp] theorem oneLine_longText (n : Int64) : OneLine (Long.text n) := by
  intro h
  rw [Long.text, String.toList_ofList, Long.chars] at h
  cases hi : n.toInt with
  | ofNat k =>
    rw [hi] at h
    exact absurd (Decimal.isDigit_of_mem_digits h) (by decide)
  | negSucc k =>
    rw [hi, Decimal.chars] at h
    rcases List.mem_cons.mp h with h | h
    · exact absurd h (by decide)
    · exact absurd (Decimal.isDigit_of_mem_digits h) (by decide)

@[simp] theorem oneLine_slotText (s : SlotId) : OneLine s.text := by
  rw [SlotId.text, oneLine_append]
  exact ⟨by decide, oneLine_natText s.index⟩

theorem digitChar_ne_lineFeed (n : Nat) : Nat.digitChar n ≠ '\n' := by
  by_cases h : n < 16
  · revert n
    decide
  · have hstar : Nat.digitChar n = '*' := by
      simp (disch := omega) only [Nat.digitChar, if_neg]
    rw [hstar]
    decide

/-- Escaping a character makes no line feed of it. -/
theorem not_mem_escapeChar {c : Char} (hc : c ≠ '\n') : '\n' ∉ escapeChar c := by
  have hhex : ∀ n, '\n' ∉ hexPair n := fun n h => by
    simp only [hexPair, List.mem_cons, List.not_mem_nil, or_false] at h
    rcases h with h | h
    · exact digitChar_ne_lineFeed _ h.symm
    · exact digitChar_ne_lineFeed _ h.symm
  unfold escapeChar
  split
  · simp [hhex]
  · split
    · simp [hhex]
    · simpa using Ne.symm hc

theorem oneLine_escaped {t : String} (h : OneLine t) : OneLine (escaped t) := by
  intro hmem
  rw [escaped, String.toList_ofList] at hmem
  obtain ⟨c, hc, hn⟩ := List.mem_flatMap.mp hmem
  refine not_mem_escapeChar ?_ hn
  rintro rfl
  exact h hc

theorem lines_of_oneLine {t : String} (h : OneLine t) : lines t = [t] := by
  rw [lines, splitLines_of_not_mem h, List.map_singleton, String.ofList_toList]

end Text

/-! ## Details -/

/-- The events by which an execution says what it does. -/
inductive Event.IsDetail : Event → Prop where
  | writing (v : Value) (s : SlotId) : IsDetail (.writing v.typeName s)
  | widened (s : SlotId) (source target : Kind) : IsDetail (.widened s source target)
  | generalized (s : SlotId) (v : Value) : IsDetail (.generalizing s v.typeName)
  | allocated (n : Nat) (s : SlotId) : IsDetail (.allocated n s)
  | executing (c : Stmt) : IsDetail (.executing c.label)

/-- The names of types and kinds are single words. -/
@[simp] theorem Value.oneLine_typeName (v : Value) : Text.OneLine v.typeName := by
  cases v <;> simp +decide only [typeName]

@[simp] theorem Kind.oneLine_name (k : Kind) : Text.OneLine k.name := by
  cases k with
  | illegal => decide
  | primitive p => cases p <;> decide
  | object => decide

@[simp] theorem Stmt.oneLine_label (c : Stmt) : Text.OneLine c.label.text := by
  cases c with
  | block body => exact (by decide : Text.OneLine "Block")
  | _ => simp +decide [label, NodeLabel.text]

/-- A fault of a statement is worded in a single line if its cause is. -/
theorem Stmt.oneLine_fault (c : Stmt) {cause : Cause} (h : Text.OneLine cause.message) :
    Text.OneLine (Fault.message ⟨c.label, cause⟩) := by
  change Text.OneLine (c.label.text ++ _ ++ cause.message)
  simp +decide [h]

namespace Event.IsDetail

theorem level_eq {e : Event} (h : e.IsDetail) : e.level = .debug := by
  cases h <;> rfl

/-- The shape of the wording is given to `simp`, which would otherwise compute texts. -/
theorem oneLine {e : Event} (h : e.IsDetail) : Text.OneLine e.message := by
  cases h with
  | writing v s =>
    change Text.OneLine (_ ++ v.typeName ++ _ ++ s.text)
    simp +decide
  | widened s source target =>
    change Text.OneLine (_ ++ s.text ++ _ ++ source.name ++ _ ++ target.name)
    simp +decide
  | generalized s v =>
    change Text.OneLine (_ ++ s.text ++ _ ++ v.typeName ++ _)
    simp +decide
  | allocated n s =>
    change Text.OneLine (_ ++ Decimal.natText n ++ _ ++ s.text)
    simp +decide
  | executing c =>
    change Text.OneLine (_ ++ c.label.text)
    simp +decide

end Event.IsDetail

/-! ## Executions -/

namespace Outcome
variable {ε : Type}

/-- An outcome with nothing but details in its log. -/
def Details (o : Outcome ε) : Prop := ∀ e ∈ o.log, e.IsDetail

namespace Details
variable {o : Outcome ε}

theorem done (f : Frame) : (Outcome.done f : Outcome ε).Details := nofun

theorem fail (e : ε) (f : Frame) : (Outcome.fail e f).Details := nofun

theorem after {e : Event} (he : e.IsDetail) (h : o.Details) : (o.after e).Details := by
  intro e' he'
  rcases List.mem_cons.mp he' with rfl | he'
  · exact he
  · exact h e' he'

theorem raisedBy (node : NodeLabel) {o : Outcome AccessError} (h : o.Details) :
    (o.raisedBy node).Details := h

theorem andThen {next : Frame → Outcome ε} (h : o.Details) (hnext : ∀ f, (next f).Details) :
    (o.andThen next).Details := by
  obtain ⟨r, f, log⟩ := o
  cases r with
  | error e => exact h
  | ok u =>
    intro e he
    rcases List.mem_append.mp he with he | he
    · exact h e he
    · exact hnext f e he

end Details

end Outcome

namespace Frame

theorem write_details (f : Frame) (s : SlotId) (v : Value) : (f.write s v).Details := by
  refine .after (.writing v s) ?_
  cases f.slot? s with
  | none => exact .fail _ f
  | some e => exact .done _

theorem setKind_details (f : Frame) (s : SlotId) (k : Kind) : (f.setKind s k).Details := by
  unfold setKind
  split
  · exact .fail _ f
  · split
    · exact .fail _ f
    · split
      · exact .done f
      · exact .after (.widened s _ k) (.done _)

theorem writeTagged_details (f : Frame) (s : SlotId) (v : Value) (k : Kind) :
    (f.writeTagged s v k).Details := by
  unfold writeTagged
  split
  · exact .fail _ f
  · split
    · exact .fail _ f
    · exact (f.write_details s v).andThen fun g => g.setKind_details s k

end Frame

namespace Stmt

theorem execAssign_details (f : Frame) (s : SlotId) (e : Expr) : (execAssign f s e).Details := by
  unfold execAssign
  split
  · exact .fail _ f
  · split
    · exact .fail _ f
    · exact .raisedBy _ (f.writeTagged_details s _ _)
  · split
    · exact .raisedBy _ (f.writeTagged_details s _ _)
    · exact .fail _ f
    · exact .after (.generalized s _) (.raisedBy _ (f.writeTagged_details s _ _))
  · split
    · exact .fail _ f
    · exact .raisedBy _ (f.writeTagged_details s _ _)

theorem execCreate_details (mem : Allocator) (f : Frame) (s : SlotId) (e : Expr) :
    (execCreate mem f s e).Details := by
  unfold execCreate
  split
  · exact .fail _ f
  · split
    · exact .fail _ f
    · split
      · exact .fail _ f
      · refine .after (.allocated _ s) (.raisedBy _ ?_)
        exact (f.write_details s _).andThen fun g => g.setKind_details s .object

theorem execStore_details (f : Frame) (s : SlotId) (i v : Expr) : (execStore f s i v).Details := by
  unfold execStore
  split
  · exact .fail _ f
  · split
    · exact .fail _ f
    · split
      · exact .fail _ f
      · split
        · exact .fail _ f
        · exact .done _

mutual

/-- **An execution reports details only.** -/
theorem exec_details (mem : Allocator) : ∀ (c : Stmt) (f : Frame), (c.exec mem f).Details
  | .assign s e, f => execAssign_details f s e
  | .create s e, f => execCreate_details mem f s e
  | .store s i v, f => execStore_details f s i v
  | .block body, f => execAll_details mem body f

theorem execAll_details (mem : Allocator) :
    ∀ (body : List Stmt) (f : Frame), (execAll mem f body).Details
  | [], f => .done f
  | c :: rest, f =>
    .after (.executing c) ((exec_details mem c f).andThen fun g => execAll_details mem rest g)

end

end Stmt

/-! ## Routines -/

namespace Routine
variable {mem : Allocator} {routine : Routine} {e : Event}

/-- A run reports its start and its end, and between them the details of its body. -/
theorem run_log_cases (h : e ∈ (routine.run mem).log) :
    e = .running routine.name ∨ e = .invoking routine.name routine.layout.size ∨ e.IsDetail ∨
      e = .completed routine.name := by
  have hbody := Stmt.exec_details mem (.block routine.body) routine.layout.newFrame
  rw [run, invoke] at h
  rcases List.mem_cons.mp h with h | h
  · exact .inl h
  · cases hr : (Stmt.exec mem routine.layout.newFrame (.block routine.body)).result with
    | error r =>
      rw [hr] at h
      rcases List.mem_cons.mp h with h | h
      · exact .inr (.inl h)
      · exact .inr (.inr (.inl (hbody e h)))
    | ok u =>
      rw [hr] at h
      rcases List.mem_append.mp h with h | h
      · rcases List.mem_cons.mp h with h | h
        · exact .inr (.inl h)
        · exact .inr (.inr (.inl (hbody e h)))
      · exact .inr (.inr (.inr (List.mem_singleton.mp h)))

/-- Nothing that a run reports is an error. -/
theorem level_ne_error_of_mem_log (h : e ∈ (routine.run mem).log) : e.level ≠ .error := by
  rcases run_log_cases h with rfl | rfl | hd | rfl
  · simp [Event.level]
  · simp [Event.level]
  · simp [hd.level_eq]
  · simp [Event.level]

/-- A run of a routine whose name is a single line reports in single lines. -/
theorem oneLine_of_mem_log (hname : Text.OneLine routine.name) (h : e ∈ (routine.run mem).log) :
    Text.OneLine e.message := by
  rcases run_log_cases h with rfl | rfl | hd | rfl
  · change Text.OneLine (_ ++ routine.name)
    simp +decide [hname]
  · change Text.OneLine (_ ++ routine.name ++ _ ++ Decimal.natText _ ++ _)
    simp +decide [hname]
  · exact hd.oneLine
  · change Text.OneLine (routine.name ++ _)
    simp +decide [hname]

end Routine

end TaggedSlots
