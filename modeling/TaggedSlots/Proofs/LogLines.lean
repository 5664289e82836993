import TaggedSlots.Proofs.Reporting

/-! # Reading a log

A log is a list of lines, and a line is all that is left of an event. Still the events by
which an execution says what it does can be told from their lines: by how a line begins and,
for a write, by how it ends. The slot that a line is about can be told as well, because the
number of a slot is followed by a blank or by the end of the line.

For each kind of event there is a test of lines beside a view of events. `Event.filter_lines`
says that the lines which pass a test are those of the events which the view picks out, and
`Event.Told` is what has to be shown of a single event for that.
-/
namespace TaggedSlots

/-! ## Beginnings and ends of texts -/

namespace Text

/-- A text begins with another one. -/
def Begins (p t : String) : Prop := p.toList <+: t.toList

/-- A text ends with another one. -/
def Ends (p t : String) : Prop := p.toList <:+ t.toList

instance (p t : String) : Decidable (Begins p t) := inferInstanceAs (Decidable (_ <+: _))

instance (p t : String) : Decidable (Ends p t) := inferInstanceAs (Decidable (_ <:+ _))

theorem begins_append (p t : String) : Begins p (p ++ t) := by
  simp [Begins]

end Text

namespace SlotId
variable {s t : SlotId}

theorem toList_text (s : SlotId) : s.text.toList = '#' :: Decimal.digits s.index := by
  simp [text, Decimal.natText]

/-- In front of a blank a slot can be told from its text. -/
theorem text_blank_prefix_iff {u v : List Char} :
    s.text.toList ++ ' ' :: u <+: t.text.toList ++ ' ' :: v ↔ s = t ∧ u <+: v := by
  constructor
  · rintro ⟨w, hw⟩
    simp only [toList_text, List.append_assoc, List.cons_append, List.cons.injEq, true_and] at hw
    have hdigits := congrArg (List.takeWhile Char.isDigit) hw
    rw [Decimal.takeWhile_digits_append _ (by decide),
      Decimal.takeWhile_digits_append _ (by decide), Decimal.digits_inj] at hdigits
    rw [hdigits, List.append_cancel_left_eq, List.cons.injEq] at hw
    exact ⟨congrArg SlotId.mk hdigits, w, hw.2⟩
  · rintro ⟨rfl, huv⟩
    rw [List.prefix_append_right_inj, List.cons_prefix_cons]
    exact ⟨rfl, huv⟩

/-- At the end of a line a slot can be told from its text. -/
theorem text_suffix_iff {p q : List Char} :
    p ++ s.text.toList <:+ q ++ (p ++ t.text.toList) ↔ s = t := by
  constructor
  · rintro ⟨w, hw⟩
    -- Read from the end, the digits come first and the number sign ends them.
    have hdigits := congrArg (fun cs => cs.reverse.takeWhile Char.isDigit) hw
    have hread : ∀ (n : Nat) (u : List Char),
        ((Decimal.digits n).reverse ++ '#' :: u).takeWhile Char.isDigit =
          (Decimal.digits n).reverse := fun n u => by
      rw [List.takeWhile_append_of_pos fun d hd =>
          Decimal.isDigit_of_mem_digits (List.mem_reverse.mp hd),
        List.takeWhile_cons_of_neg (by decide), List.append_nil]
    simp only [toList_text, List.reverse_append, List.reverse_cons, List.append_assoc,
      List.cons_append, List.nil_append, hread, List.reverse_inj, Decimal.digits_inj] at hdigits
    exact congrArg SlotId.mk hdigits
  · rintro rfl
    exact List.suffix_append q _

end SlotId

/-! ## The lines of events -/

namespace Event

theorem line_executing (l : NodeLabel) :
    (executing l).line = "DEBUG Executing statement: " ++ l.text := by
  change "DEBUG" ++ " " ++ ("Executing statement: " ++ l.text) = _
  exact String.toList_inj.mp (by simp)

theorem line_writing (type : String) (s : SlotId) :
    (writing type s).line = "DEBUG Writing " ++ type ++ " to slot " ++ s.text := by
  change "DEBUG" ++ " " ++ ("Writing " ++ type ++ " to slot " ++ s.text) = _
  exact String.toList_inj.mp (by simp)

theorem line_widened (s : SlotId) (a b : Kind) :
    (widened s a b).line =
      "DEBUG Slot " ++ s.text ++ " widened from " ++ a.name ++ " to " ++ b.name := by
  change "DEBUG" ++ " " ++ ("Slot " ++ s.text ++ " widened from " ++ a.name ++ " to " ++ b.name) = _
  exact String.toList_inj.mp (by simp)

theorem line_generalizing (s : SlotId) (type : String) :
    (Event.generalizing s type).line =
      "DEBUG Slot " ++ s.text ++ " got " ++ type ++ ", generalizing to object" := by
  change "DEBUG" ++ " " ++ ("Slot " ++ s.text ++ " got " ++ type ++ ", generalizing to object") = _
  exact String.toList_inj.mp (by simp)

theorem line_allocated (n : Nat) (s : SlotId) :
    (allocated n s).line =
      "DEBUG Allocated long[" ++ Decimal.natText n ++ "] for slot " ++ s.text := by
  change "DEBUG" ++ " " ++ ("Allocated long[" ++ Decimal.natText n ++ "] for slot " ++ s.text) = _
  exact String.toList_inj.mp (by simp)

theorem line_running (name : String) :
    (running name).line = "INFO Running function: " ++ name := by
  change "INFO" ++ " " ++ ("Running function: " ++ name) = _
  exact String.toList_inj.mp (by simp)

theorem line_invoking (name : String) (n : Nat) :
    (invoking name n).line =
      "INFO Invoking " ++ name ++ " (" ++ Decimal.natText n ++ " slots)" := by
  change "INFO" ++ " " ++ ("Invoking " ++ name ++ " (" ++ Decimal.natText n ++ " slots)") = _
  exact String.toList_inj.mp (by simp)

theorem line_completed (name : String) :
    (completed name).line = "INFO " ++ name ++ " completed" := by
  change "INFO" ++ " " ++ (name ++ " completed") = _
  exact String.toList_inj.mp (by simp)

/-! ## Views of events -/

/-- The statement that is announced. -/
def announced? : Event → Option NodeLabel
  | .executing l => some l
  | _ => none

/-- The kinds between which a slot has changed. -/
def widening? (s : SlotId) : Event → Option (Kind × Kind)
  | .widened t a b => if t = s then some (a, b) else none
  | _ => none

/-- The type for which a slot was generalised. -/
def generalizing? (s : SlotId) : Event → Option String
  | .generalizing t type => if t = s then some type else none
  | _ => none

/-- The type of a value that is stored in a slot. -/
def writing? (s : SlotId) : Event → Option String
  | .writing type t => if t = s then some type else none
  | _ => none

/-- Whether an event is picked out can be told from its line: the line passes a test and
says what was picked out, or does not pass the test. -/
def Told {α : Type} (test : String → Prop) (say : α → String) (x : Option α) (line : String) :
    Prop :=
  match x with
  | some a => test line ∧ line = say a
  | none => ¬ test line

/-- The lines that pass a test are those of the events that are picked out. -/
theorem filter_lines {α : Type} {test : String → Prop} [DecidablePred test]
    {view : Event → Option α} {say : α → String} {log : List Event}
    (h : ∀ e ∈ log, Told test say (view e) e.line) :
    (log.map line).filter (fun t => decide (test t)) = (log.filterMap view).map say := by
  induction log with
  | nil => rfl
  | cons e log ih =>
    have he := h e List.mem_cons_self
    have hlog := ih fun e' he' => h e' (List.mem_cons_of_mem e he')
    cases hv : view e with
    | none =>
      rw [hv] at he
      rw [List.map_cons, List.filter_cons_of_neg (by simpa [Told] using he), hlog,
        List.filterMap_cons_none hv]
    | some a =>
      rw [hv] at he
      rw [List.map_cons, List.filter_cons_of_pos (by simpa using he.1), hlog,
        List.filterMap_cons_some hv, List.map_cons, he.2]

namespace IsDetail
variable {e : Event}

theorem line_begins (h : e.IsDetail) : Text.Begins "DEBUG " e.line := by
  have hline : e.line = "DEBUG " ++ e.message := by rw [line, h.level_eq]; rfl
  rw [hline]
  exact Text.begins_append _ _

theorem announced_told (h : e.IsDetail) :
    Told (Text.Begins "DEBUG Executing statement: ")
      (fun l : NodeLabel => "DEBUG Executing statement: " ++ l.text) e.announced? e.line := by
  cases h with
  | executing c =>
    rw [line_executing]
    exact ⟨Text.begins_append _ _, rfl⟩
  | writing v s => simp [Told, announced?, line_writing, Text.Begins]
  | widened s a b => simp [Told, announced?, line_widened, Text.Begins]
  | generalized s v => simp [Told, announced?, line_generalizing, Text.Begins]
  | allocated n s => simp [Told, announced?, line_allocated, Text.Begins]

theorem widening_told (h : e.IsDetail) (s : SlotId) :
    Told (Text.Begins ("DEBUG Slot " ++ s.text ++ " widened from "))
      (fun k : Kind × Kind =>
        "DEBUG Slot " ++ s.text ++ " widened from " ++ k.1.name ++ " to " ++ k.2.name)
      (e.widening? s) e.line := by
  cases h with
  | widened t a b =>
    rw [line_widened, widening?]
    by_cases hts : t = s
    · subst hts
      simp [Told, Text.Begins]
    · simp [Told, hts, Text.Begins, SlotId.text_blank_prefix_iff, Ne.symm hts]
  | generalized t v =>
    simp [Told, widening?, line_generalizing, Text.Begins, SlotId.text_blank_prefix_iff]
  | executing c => simp [Told, widening?, line_executing, Text.Begins]
  | writing v t => simp [Told, widening?, line_writing, Text.Begins]
  | allocated n t => simp [Told, widening?, line_allocated, Text.Begins]

theorem generalizing_told (h : e.IsDetail) (s : SlotId) :
    Told (Text.Begins ("DEBUG Slot " ++ s.text ++ " got "))
      (fun type => "DEBUG Slot " ++ s.text ++ " got " ++ type ++ ", generalizing to object")
      (e.generalizing? s) e.line := by
  cases h with
  | generalized t v =>
    rw [line_generalizing, generalizing?]
    by_cases hts : t = s
    · subst hts
      simp [Told, Text.Begins]
    · simp [Told, hts, Text.Begins, SlotId.text_blank_prefix_iff, Ne.symm hts]
  | widened t a b =>
    simp [Told, generalizing?, line_widened, Text.Begins, SlotId.text_blank_prefix_iff]
  | executing c => simp [Told, generalizing?, line_executing, Text.Begins]
  | writing v t => simp [Told, generalizing?, line_writing, Text.Begins]
  | allocated n t => simp [Told, generalizing?, line_allocated, Text.Begins]

theorem writing_told (h : e.IsDetail) (s : SlotId) :
    Told (fun t => Text.Begins "DEBUG Writing " t ∧ Text.Ends (" to slot " ++ s.text) t)
      (fun type => "DEBUG Writing " ++ type ++ " to slot " ++ s.text)
      (e.writing? s) e.line := by
  cases h with
  | writing v t =>
    have hends : Text.Ends (" to slot " ++ s.text) (Event.writing v.typeName t).line ↔ s = t := by
      rw [line_writing, String.append_assoc, Text.Ends]
      simp only [String.toList_append, SlotId.text_suffix_iff]
    have hbegins : Text.Begins "DEBUG Writing " (Event.writing v.typeName t).line := by
      rw [line_writing, String.append_assoc, String.append_assoc]
      exact Text.begins_append _ _
    rw [writing?]
    by_cases hts : t = s
    · subst hts
      simp only [Told, if_true]
      exact ⟨⟨hbegins, hends.mpr rfl⟩, line_writing v.typeName t⟩
    · simp only [Told, if_neg hts, hends]
      exact fun h => hts h.2.symm
  | widened t a b => simp [Told, writing?, line_widened, Text.Begins]
  | generalized t v => simp [Told, writing?, line_generalizing, Text.Begins]
  | executing c => simp [Told, writing?, line_executing, Text.Begins]
  | allocated n t => simp [Told, writing?, line_allocated, Text.Begins]

end IsDetail

end Event

end TaggedSlots
