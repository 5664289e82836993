import TaggedSlots.CommandLine.Session
import TaggedSlots.Proofs.Attribution
import TaggedSlots.Proofs.Reporting

/-! # A session does what its command line asks for

A session reads two texts, builds a routine of up to three statements, runs it on a slot
that specialises on whatever is stored first, and prints the slot. All that a user has to
know of this is when a command line is `Options.Accepted`: its texts are literals, the size
is a long that is a length, and the fill value, if there is one, goes inside the array. Then
the array is shown, zeros but for the fill value, and otherwise there is one error and the
exit code says so (`session_does_as_asked`). The initial value is gone from the slot by the
time it is shown.

Log and output share a channel, line by line. `Report.stdout` is what stands on it without
a level. A message of several lines has a level on its first line only, so its further
lines are found there too (`Report.stdout_eq`). The messages of a run are single lines, and
so are those of the faults of a session. The message that quotes a refused text is one only
if the text is.
-/
namespace TaggedSlots.CommandLine

/-! ## What is printed -/

/-- The lines of a message behind the first one. -/
def furtherLines (e : Event) : List String := (Text.lines (Text.escaped e.message)).tail

theorem furtherLines_of_oneLine {e : Event} (h : Text.OneLine e.message) :
    furtherLines e = [] := by
  rw [furtherLines, Text.lines_of_oneLine (Text.oneLine_escaped h)]
  rfl

theorem furtherLines_failed {reason : String} (h : Text.OneLine reason) :
    furtherLines (.failed reason) = [] := by
  apply furtherLines_of_oneLine
  change Text.OneLine ("Interpretation failed: " ++ reason)
  simp +decide [h]

/-- The error that quotes a text has further lines only if the text has. -/
theorem furtherLines_quoted {t : String} (h : Text.OneLine t) :
    furtherLines (.failed ("Invalid literal: '" ++ t ++ "'")) = [] := by
  apply furtherLines_failed
  simp +decide [h]

namespace Line

/-- The texts of the lines that have no level. -/
def unmarked (ls : List Line) : List String :=
  (ls.filter fun l => l.level.isNone).map Line.text

theorem unmarked_append (ks ls : List Line) : unmarked (ks ++ ls) = unmarked ks ++ unmarked ls := by
  simp only [unmarked, List.filter_append, List.map_append]

theorem unmarked_plain (ts : List String) : unmarked (ts.map plain) = ts := by
  induction ts with
  | nil => rfl
  | cons t ts ih => exact congrArg (t :: ·) ih

/-- Only the first line of a message is marked. -/
theorem unmarked_ofEvent (e : Event) : unmarked (ofEvent e) = furtherLines e := by
  unfold ofEvent furtherLines
  cases Text.lines (Text.escaped e.message) with
  | nil => rfl
  | cons first rest => exact unmarked_plain rest

end Line

/-- A log in which nothing is an error or has more than one line. -/
def Unremarkable (log : List Event) : Prop :=
  ∀ e ∈ log, e.level ≠ .error ∧ Text.OneLine e.message

theorem unremarkable_nil : Unremarkable [] := nofun

theorem Unremarkable.append {log log' : List Event} (h : Unremarkable log)
    (h' : Unremarkable log') : Unremarkable (log ++ log') := fun e he =>
  (List.mem_append.mp he).elim (h e) (h' e)

theorem unremarkable_interpreted : Unremarkable [.interpreted] := by
  intro e he
  obtain rfl := List.mem_singleton.mp he
  have hmessage : Text.OneLine "Interpretation completed" := by decide
  exact ⟨by decide, hmessage⟩

namespace Report

/-- The lines on standard output that are not marked as lines of the log. -/
def stdout (r : Report) (v : Verbosity) : List String := Line.unmarked (r.printed v)

/-- The errors among the events that were reported, shown or not. -/
def errors (r : Report) : List Event := r.log.filter fun e => e.level = .error

/-- Beside the output, the further lines of the messages shown have no level. -/
theorem stdout_eq (r : Report) (v : Verbosity) :
    r.stdout v = (r.log.filter fun e => v.shows e.level).flatMap furtherLines ++ r.output := by
  rw [stdout, printed, Line.unmarked_append, Line.unmarked_plain]
  generalize r.log.filter (fun e => v.shows e.level) = log
  congr 1
  induction log with
  | nil => rfl
  | cons e log ih =>
    rw [List.flatMap_cons, Line.unmarked_append, ih, Line.unmarked_ofEvent, List.flatMap_cons]

section
variable {log : List Event} (hlog : Unremarkable log)
include hlog

theorem furtherLines_of_unremarkable (v : Verbosity) :
    (log.filter fun e => v.shows e.level).flatMap furtherLines = [] := by
  rw [List.flatMap_eq_nil_iff]
  intro e he
  exact furtherLines_of_oneLine (hlog e (List.mem_filter.mp he).1).2

theorem filter_error_of_unremarkable : (log.filter fun e => e.level = .error) = [] := by
  rw [List.filter_eq_nil_iff]
  intro e he
  simpa using (hlog e he).1

theorem stdout_succeeded (line : String) (v : Verbosity) :
    (succeeded line log).stdout v = [line] := by
  rw [stdout_eq, succeeded, furtherLines_of_unremarkable hlog, List.nil_append]

theorem stdout_failed (x : SessionError) (v : Verbosity) :
    (failed x log).stdout v =
      if v.shows .error then furtherLines (.failed x.message) else [] := by
  rw [stdout_eq, failed, List.append_nil, List.filter_append, List.flatMap_append,
    furtherLines_of_unremarkable hlog, List.nil_append]
  cases hv : v.shows .error <;> simp [Event.level, hv]

theorem errors_succeeded (line : String) : (succeeded line log).errors = [] :=
  filter_error_of_unremarkable hlog

theorem errors_failed (x : SessionError) : (failed x log).errors = [.failed x.message] := by
  rw [errors, failed, List.filter_append, filter_error_of_unremarkable hlog]
  rfl

end

end Report

/-! ## What is asked for -/

/-- The line that shows an array with the given elements. -/
def arrayLine (xs : List Int64) : String :=
  "a: kind=object value=[" ++ ", ".intercalate (xs.map Long.text) ++ "]"

namespace Options

/-- The initial value, if there is one, is a literal. -/
def ReadsInitial (o : Options) : Prop :=
  ∀ t, o.initial = some t → ∃ c, Literal.ofText? t = some c

/-- The size is that of an array of length `n`. -/
def AsksFor (o : Options) (n : Nat) : Prop :=
  ∃ k : Int64, Literal.ofText? o.size = some (.long k) ∧ k.toInt = n ∧ n ≤ LongArray.maxLength

/-- The fill value, if there is one, goes inside an array of length `n`. -/
def FillsWithin (o : Options) (n : Nat) : Prop :=
  ∀ x, o.fill = some x → 0 ≤ o.index.toInt ∧ o.index.toInt < n

/-- A command line that asks for an array of length `n`, and for nothing that cannot be
done. -/
structure Accepted (o : Options) (n : Nat) : Prop where
  initial : o.ReadsInitial
  size : o.AsksFor n
  fill : o.FillsWithin n

/-- A text of the command line should be a literal and is none. -/
def Refuses (o : Options) (t : String) : Prop :=
  Literal.ofText? t = none ∧ (o.initial = some t ∨ o.size = t)

/-- The elements that are asked for: the fill value at its index, and zeros. -/
def elements (o : Options) (n : Nat) : List Int64 :=
  (List.range n).map fun i : Nat => if o.index.toInt = (i : Int) then o.fill.getD 0 else 0

theorem AsksFor.unique {o : Options} {m n : Nat} (hm : o.AsksFor m) (hn : o.AsksFor n) :
    m = n := by
  obtain ⟨j, hj, hjm, -⟩ := hm
  obtain ⟨k, hk, hkn, -⟩ := hn
  rw [hj] at hk
  cases hk
  omega

/-- If the initial value is a literal, only the size can be refused. -/
theorem ReadsInitial.size_of_refuses {o : Options} {t : String} (h : o.ReadsInitial)
    (ht : o.Refuses t) : o.size = t := by
  obtain ⟨hnone, hinitial | hsize⟩ := ht
  · obtain ⟨c, hc⟩ := h t hinitial
    rw [hnone] at hc
    cases hc
  · exact hsize

/-! ## The array -/

section Array
variable {o : Options} {n : Nat}

/-- The array that is asked for. -/
def contents (o : Options) (n : Nat) : LongArray := ⟨(o.elements n).toArray⟩

theorem contents_of_fill_none (h : o.fill = none) : o.contents n = .zeroed n := by
  simp [contents, elements, h, LongArray.zeroed, List.map_const']

theorem set?_zeroed {x : Int64} (h : o.fill = some x) {i : Nat} (hi : o.index.toInt = i)
    (hn : i < n) : (LongArray.zeroed n).set? i x = some (o.contents n) := by
  have hsize : i < (Array.replicate n (0 : Int64)).size := by simpa using hn
  rw [LongArray.zeroed, LongArray.set?, dif_pos hsize, Option.some.injEq, contents,
    LongArray.mk.injEq]
  refine Array.ext (by simp [elements]) fun j hj _ => ?_
  simp only [elements, Array.getElem_set, Array.getElem_replicate, List.getElem_toArray,
    List.getElem_map, List.getElem_range, h, hi, Option.getD_some, Int.natCast_inj]

end Array

end Options

/-! ## The execution

The slot of a session exists throughout, so the only things that can go wrong are the size
and the index. -/

/-- The frame of a session whose slot holds an array. -/
def holding (a : LongArray) : Frame := ⟨[⟨.object, some (.array a)⟩]⟩

section Execution
variable {mem : Allocator} {o : Options} {n : Nat} {c : Literal}

/-- The initial value is refused as a text, or it can be stored: the slot takes whatever
comes first. -/
theorem initialStep_cases (mem : Allocator) (o : Options) :
    (∃ t, o.Refuses t ∧ o.initialStep = .error (.invalidLiteral t)) ∨
    (o.ReadsInitial ∧ ∃ first old, o.initialStep = .ok first ∧
      (Stmt.execAll mem layoutA.newFrame first).quiet = .done ⟨[old]⟩) := by
  unfold Options.initialStep
  cases hi : o.initial with
  | none =>
    refine .inr ⟨fun t ht => ?_, [], ⟨.illegal, none⟩, rfl, rfl⟩
    rw [hi] at ht
    cases ht
  | some t =>
    cases hc : Literal.ofText? t with
    | none => exact .inl ⟨t, ⟨hc, .inl hi⟩, by simp only [literal, hc]; rfl⟩
    | some c =>
      refine .inr ⟨fun u hu => ?_, [.assign slotA (.literal c)],
        ⟨Kind.illegal.join c.value.kind, some c.value⟩, ?_, ?_⟩
      · rw [hi] at hu
        cases hu
        exact ⟨c, hc⟩
      · simp only [literal, hc]
        rfl
      · rw [Stmt.execAll_singleton_quiet, Stmt.exec, Stmt.execAssign_quiet]
        rfl

/-- A literal yields its long, or is of another type. -/
theorem evalLong_literal (c : Literal) (f : Frame) :
    (∃ k, c = .long k ∧ (Expr.literal c).evalAs .long f = .ok k) ∨
      (Expr.literal c).evalAs .long f = .error (.mismatch ⟨.long, c.value⟩) := by
  rw [Expr.evalAs, Expr.evalLong]
  obtain ⟨p, x⟩ := c
  cases p with
  | long => exact .inl ⟨x, rfl, rfl⟩
  | double => exact .inr rfl
  | boolean => exact .inr rfl

theorem createdArray_of_asksFor (hc : Literal.ofText? o.size = some c) (h : o.AsksFor n)
    (hmem : mem n = true) (f : Frame) :
    Stmt.createdArray mem f slotA (.literal c) = .ok (.zeroed n) := by
  obtain ⟨k, hk, hkn, hmax⟩ := h
  obtain rfl : c = .long k := Option.some.inj (hc.symm.trans hk)
  have hlen : LongArray.lengthOfSize k = .ok n := LongArray.lengthOfSize_eq_ok_iff.mpr ⟨hkn, hmax⟩
  have hzero : mem.zeroed? n = some (.zeroed n) := by simp [Allocator.zeroed?, hmem]
  simp only [Stmt.createdArray, Expr.evalAs, Expr.evalLong, Literal.evalAs, hlen, hzero]

/-- A size that is no length is refused in a single line. -/
theorem createdArray_of_not_asksFor (mem : Allocator) (hc : Literal.ofText? o.size = some c)
    (h : ∀ n, ¬ o.AsksFor n) (f : Frame) :
    ∃ r, Stmt.createdArray mem f slotA (.literal c) = .error r ∧ Text.OneLine r.message := by
  rcases evalLong_literal c f with ⟨k, rfl, hk⟩ | hmis
  · cases hlen : LongArray.lengthOfSize k with
    | ok n => exact absurd ⟨k, hc, LongArray.lengthOfSize_eq_ok_iff.mp hlen⟩ (h n)
    | error cause =>
      refine ⟨⟨(Stmt.create slotA (.literal (.long k))).label, cause⟩, ?_, ?_⟩
      · simp only [Stmt.createdArray, hk, hlen]
      refine Stmt.oneLine_fault _ ?_
      rcases LongArray.lengthOfSize_eq_error hlen with ⟨rfl, -⟩ | ⟨rfl, -⟩
      · change Text.OneLine (_ ++ Long.text k)
        simp +decide
      · change Text.OneLine (_ ++ Long.text k ++ _ ++ Decimal.natText LongArray.maxLength)
        simp +decide
  · refine ⟨⟨(Stmt.create slotA (.literal c)).label, .mismatch ⟨.long, c.value⟩⟩, ?_, ?_⟩
    · simp only [Stmt.createdArray, hmis, EvalError.toFault]
    refine Stmt.oneLine_fault _ ?_
    change Text.OneLine (_ ++ "long" ++ _ ++ c.value.typeName)
    simp +decide

theorem storedArray_literals (a : LongArray) (i x : Int64) :
    Stmt.storedArray (holding a) slotA (.literal (.long i)) (.literal (.long x)) =
      match (Long.toIndex? i).bind fun k => a.set? k x with
      | none => .error ⟨(Stmt.store slotA (.literal (.long i)) (.literal (.long x))).label,
          .indexOutOfBounds i a.length⟩
      | some b => .ok b := rfl

/-- The fill value, if there is one, is stored in the array, or its index is refused in a
single line. -/
theorem execAll_fillStep (mem : Allocator) (o : Options) (n : Nat) :
    (o.FillsWithin n ∧
      (Stmt.execAll mem (holding (.zeroed n)) o.fillStep).quiet = .done (holding (o.contents n))) ∨
    (¬ o.FillsWithin n ∧ ∃ r,
      (Stmt.execAll mem (holding (.zeroed n)) o.fillStep).quiet = .fail r (holding (.zeroed n)) ∧
      Text.OneLine r.message) := by
  unfold Options.fillStep
  cases hf : o.fill with
  | none =>
    refine .inl ⟨fun x hx => ?_, ?_⟩
    · rw [hf] at hx
      cases hx
    · rw [Options.contents_of_fill_none hf]
      rfl
  | some x =>
    simp only [Stmt.execAll_singleton_quiet, Stmt.exec, Stmt.execStore_quiet, storedArray_literals]
    by_cases hin : 0 ≤ o.index.toInt ∧ o.index.toInt < n
    · have hi : Long.toIndex? o.index = some o.index.toInt.toNat :=
        Long.toIndex?_eq_some_iff.mpr (by omega)
      have hset := Options.set?_zeroed hf (i := o.index.toInt.toNat) (n := n) (by omega) (by omega)
      simp only [hi, Option.bind_some, hset]
      exact .inl ⟨fun _ _ => hin, rfl⟩
    · have hset : (Long.toIndex? o.index).bind (fun k => (LongArray.zeroed n).set? k x) = none := by
        rw [Long.bind_toIndex?_eq_none_iff fun i => LongArray.set?_eq_none_iff,
          LongArray.length_zeroed]
        omega
      simp only [hset]
      refine .inr ⟨fun h => hin (h x hf), _, rfl, Stmt.oneLine_fault _ ?_⟩
      rw [LongArray.length_zeroed]
      change Text.OneLine (_ ++ Long.text o.index ++ _ ++ Decimal.natText n)
      simp +decide

/-- The statements of a session leave the array that is asked for, or fault in a single
line. -/
theorem exec_body {first : List Stmt} {old : Slot}
    (hfirst : (Stmt.execAll mem layoutA.newFrame first).quiet = .done ⟨[old]⟩)
    (hc : Literal.ofText? o.size = some c) (hmem : ∀ n, o.AsksFor n → mem n = true) :
    let run := (Stmt.block (first ++ .create slotA (.literal c) :: o.fillStep)).exec mem
      layoutA.newFrame
    (∃ n, o.AsksFor n ∧ o.FillsWithin n ∧ run.quiet = .done (holding (o.contents n))) ∨
      ((∀ n, o.AsksFor n → ¬ o.FillsWithin n) ∧
        ∃ r g, run.quiet = .fail r g ∧ Text.OneLine r.message) := by
  simp only [Stmt.exec, Stmt.execAll_append, Outcome.quiet_andThen, hfirst, Outcome.done_andThen]
  have hcreate := Stmt.execCreate_quiet mem ⟨[old]⟩ slotA (.literal c)
  by_cases hsize : ∃ n, o.AsksFor n
  · obtain ⟨n, hn⟩ := hsize
    rw [createdArray_of_asksFor hc hn (hmem n hn)] at hcreate
    obtain ⟨hok, hframe⟩ := Outcome.quiet_eq_done_iff.mp hcreate
    rw [Stmt.execAll_cons_of_ok (by rw [Stmt.exec, hok]), Stmt.exec, hframe]
    rcases execAll_fillStep mem o n with ⟨hfill, hdone⟩ | ⟨hfill, r, hfail, hone⟩
    · exact .inl ⟨n, hn, hfill, hdone⟩
    · refine .inr ⟨fun m hm => ?_, r, _, hfail, hone⟩
      rw [hm.unique hn]
      exact hfill
  · obtain ⟨r, hr, hone⟩ := createdArray_of_not_asksFor mem hc
      (fun n hn => hsize ⟨n, hn⟩) ⟨[old]⟩
    rw [hr] at hcreate
    obtain ⟨herr, -⟩ := Outcome.quiet_eq_fail_iff.mp hcreate
    rw [Stmt.execAll_cons_of_error (by rw [Stmt.exec, herr])]
    exact .inr ⟨fun n hn => absurd ⟨n, hn⟩ hsize, r, _, rfl, hone⟩

end Execution

/-! ## The report -/

theorem unremarkable_run (mem : Allocator) (body : List Stmt) :
    Unremarkable (Routine.run mem ⟨"main", layoutA, body⟩).log := by
  intro e he
  have hname : Text.OneLine "main" := by decide
  exact ⟨Routine.level_ne_error_of_mem_log he, Routine.oneLine_of_mem_log hname he⟩

/-- The line of a session's slot that holds the array that is asked for. -/
theorem slotLine_holding (o : Options) (n : Nat) :
    slotLine (holding (o.contents n)) = .ok (arrayLine (o.elements n)) := by
  have hkind : (holding (o.contents n)).kind slotA = .ok .object := rfl
  have hread : (holding (o.contents n)).read slotA = .ok (.array (o.contents n)) := rfl
  have hstart : "a: kind=" ++ "object" ++ " value=" ++ "[" = "a: kind=object value=[" := by decide
  rw [slotLine, hkind, hread]
  change Except.ok ("a: kind=" ++ "object" ++ " value=" ++ ("[" ++ _ ++ "]")) =
    Except.ok ("a: kind=object value=[" ++ ", ".intercalate ((o.elements n).map Long.text) ++ "]")
  rw [← hstart]
  simp only [String.append_assoc]
  rfl

/-- The ways in which a command line is reported on. -/
inductive Options.Yields (o : Options) : Report → Prop where
  /-- The array that is asked for is shown. -/
  | shown {n : Nat} {log : List Event} (accepted : o.Accepted n) (quiet : Unremarkable log) :
    Yields o (.succeeded (arrayLine (o.elements n)) log)
  /-- A text is refused before anything is run. -/
  | refused {t : String} (refuses : o.Refuses t) : Yields o (.failed (.invalidLiteral t) [])
  /-- The texts are literals, and the routine faults on what they ask for. -/
  | faulted {x : Failure} {log : List Event} (reads : ∀ t, ¬ o.Refuses t)
    (unaccepted : ∀ n, ¬ o.Accepted n) (single : Text.OneLine x.message)
    (quiet : Unremarkable log) : Yields o (.failed (.failure x) log)

/-- **Every command line is reported on in one of these ways.** -/
theorem Options.perform_yields (mem : Allocator) (o : Options)
    (hmem : ∀ n, o.AsksFor n → mem n = true) : o.Yields (o.perform mem) := by
  rcases initialStep_cases mem o with ⟨t, ht, hinit⟩ | ⟨hinitial, first, old, hinit, hfirst⟩
  · simp only [perform, routine, hinit]
    exact .refused ht
  · cases hc : Literal.ofText? o.size with
    | none =>
      simp only [perform, routine, hinit, literal, hc]
      exact .refused ⟨hc, .inr rfl⟩
    | some c =>
      obtain ⟨r, hr⟩ : ∃ r : Routine, r =
        ⟨"main", layoutA, first ++ .create slotA (.literal c) :: o.fillStep⟩ := ⟨_, rfl⟩
      have hlog : Unremarkable (r.run mem).log := hr ▸ unremarkable_run mem _
      have hbody := exec_body hfirst hc hmem
      simp only [perform, routine, hinit, literal, hc, ← hr]
      rcases hbody with ⟨n, hn, hfill, hdone⟩ | ⟨hnot, x, g, hfail, hone⟩
      · have hrun : (r.run mem).result = .ok (holding (o.contents n)) :=
          Routine.run_eq_ok_iff.mpr (hr ▸ hdone)
        simp only [hrun, slotLine_holding]
        exact .shown ⟨hinitial, hn, hfill⟩ (hlog.append unremarkable_interpreted)
      · have hrun : (r.run mem).result = .error ⟨"main", x⟩ :=
          Routine.run_eq_error_iff.mpr (hr ▸ ⟨rfl, g, hfail⟩)
        simp only [hrun]
        refine .faulted ?_ (fun n h => hnot n h.size h.fill) ?_ hlog
        · intro t ht
          rw [hinitial.size_of_refuses ht, ht.1] at hc
          cases hc
        · change Text.OneLine ("Function '" ++ "main" ++ "' failed" ++ ": " ++ x.message)
          simp +decide [hone]

/-! ## What is seen of a report -/

namespace Options
variable {o o' : Options} {n : Nat} {t : String}

theorem Accepted.not_refuses (h : o.Accepted n) : ¬ o.Refuses t := by
  intro ht
  obtain ⟨k, hk, -⟩ := h.size
  rw [h.initial.size_of_refuses ht, ht.1] at hk
  cases hk

/-- Two command lines that ask for the same array. They may differ in an initial value that
can be read, and in an index at which nothing is stored. -/
structure AskAlike (o o' : Options) : Prop where
  initial : o.ReadsInitial
  initial' : o'.ReadsInitial
  size : o.size = o'.size
  fill : o.fill = o'.fill
  index : o.fill ≠ none → o.index = o'.index

namespace AskAlike

theorem symm (h : AskAlike o o') : AskAlike o' o where
  initial := h.initial'
  initial' := h.initial
  size := h.size.symm
  fill := h.fill.symm
  index hfill := (h.index (h.fill ▸ hfill)).symm

theorem asksFor (h : AskAlike o o') (hn : o.AsksFor n) : o'.AsksFor n := by
  obtain ⟨k, hk, hlength⟩ := hn
  exact ⟨k, h.size ▸ hk, hlength⟩

theorem accepted (h : AskAlike o o') (hn : o.Accepted n) : o'.Accepted n where
  initial := h.initial'
  size := h.asksFor hn.size
  fill x hx := by
    have hfill : o.fill = some x := h.fill.trans hx
    rw [← h.index (by simp [hfill])]
    exact hn.fill x hfill

theorem elements_eq (h : AskAlike o o') (n : Nat) : o.elements n = o'.elements n := by
  cases hfill : o.fill with
  | none => simp [elements, hfill, ← h.fill]
  | some x => simp [elements, h.index (by simp [hfill]), h.fill]

theorem refuses (h : AskAlike o o') (ht : o.Refuses t) : o'.Refuses t :=
  ⟨ht.1, .inr (h.size ▸ h.initial.size_of_refuses ht)⟩

end AskAlike

end Options

namespace Options.Yields
variable {o o' : Options} {r r' : Report}

theorem of_accepted (h : o.Yields r) {n : Nat} (hn : o.Accepted n) :
    r.exitCode = 0 ∧ r.errors = [] ∧ ∀ v, r.stdout v = [arrayLine (o.elements n)] := by
  cases h with
  | shown accepted quiet =>
    obtain rfl := accepted.size.unique hn.size
    exact ⟨rfl, Report.errors_succeeded quiet _, Report.stdout_succeeded quiet _⟩
  | refused refuses => exact absurd refuses hn.not_refuses
  | faulted reads unaccepted single quiet => exact absurd hn (unaccepted n)

/-- What is not accepted is an error, and the only one. It quotes a text that was refused,
or its message is a single line. -/
theorem of_not_accepted (h : o.Yields r) (hnot : ∀ n, ¬ o.Accepted n) :
    r.exitCode = 1 ∧ ∃ e, r.errors = [e] ∧
      (∀ v, r.stdout v = if v.shows .error then furtherLines e else []) ∧
      ((∃ t, o.Refuses t ∧ e = .failed ("Invalid literal: '" ++ t ++ "'")) ∨
        ((∀ t, ¬ o.Refuses t) ∧ furtherLines e = [])) := by
  cases h with
  | shown accepted quiet => exact absurd accepted (hnot _)
  | @refused t refuses =>
    exact ⟨rfl, _, Report.errors_failed unremarkable_nil _,
      Report.stdout_failed unremarkable_nil _, .inl ⟨t, refuses, rfl⟩⟩
  | faulted reads unaccepted single quiet =>
    exact ⟨rfl, _, Report.errors_failed quiet _, Report.stdout_failed quiet _,
      .inr ⟨reads, furtherLines_failed single⟩⟩

theorem exitCode_eq_zero_iff (h : o.Yields r) : r.exitCode = 0 ↔ ∃ n, o.Accepted n := by
  constructor
  · intro hzero
    by_cases hacc : ∃ n, o.Accepted n
    · exact hacc
    · have hone := (h.of_not_accepted fun n hn => hacc ⟨n, hn⟩).1
      omega
  · rintro ⟨n, hn⟩
    exact (h.of_accepted hn).1

/-- Command lines that ask for the same array are seen to have the same outcome. -/
theorem seen_alike (h : o.Yields r) (h' : o'.Yields r') (halike : o.AskAlike o') :
    r.exitCode = r'.exitCode ∧ ∀ v, r.stdout v = r'.stdout v := by
  by_cases hacc : ∃ n, o.Accepted n
  · obtain ⟨n, hn⟩ := hacc
    obtain ⟨hexit, -, hout⟩ := h.of_accepted hn
    obtain ⟨hexit', -, hout'⟩ := h'.of_accepted (halike.accepted hn)
    refine ⟨hexit.trans hexit'.symm, fun v => ?_⟩
    rw [hout, hout', halike.elements_eq]
  · have hnot : ∀ n, ¬ o.Accepted n := fun n hn => hacc ⟨n, hn⟩
    have hnot' : ∀ n, ¬ o'.Accepted n := fun n hn => hnot n (halike.symm.accepted hn)
    obtain ⟨hexit, e, -, hout, he⟩ := h.of_not_accepted hnot
    obtain ⟨hexit', e', -, hout', he'⟩ := h'.of_not_accepted hnot'
    have hmore : furtherLines e = furtherLines e' := by
      rcases he with ⟨t, ht, rfl⟩ | ⟨hreads, hnil⟩
      · rcases he' with ⟨t', ht', rfl⟩ | ⟨hreads', -⟩
        · -- Both quote the size, which is the only text that they can refuse.
          obtain rfl : t = t' := calc
            t = o.size := (halike.initial.size_of_refuses ht).symm
            _ = o'.size := halike.size
            _ = t' := halike.initial'.size_of_refuses ht'
          rfl
        · exact absurd (halike.refuses ht) (hreads' t)
      · rcases he' with ⟨t', ht', rfl⟩ | ⟨-, hnil'⟩
        · exact absurd (halike.symm.refuses ht') (hreads t')
        · rw [hnil, hnil']
    refine ⟨hexit.trans hexit'.symm, fun v => ?_⟩
    rw [hout, hout', hmore]

end Options.Yields

/-- **A session does what its command line asks for**, as far as there is memory for the
array. It succeeds exactly when the command line is accepted. Then it shows the array, zeros
but for the fill value at its index, and reports no error. Otherwise the exit code is 1 and
exactly one error is reported; the output is empty but for the further lines of its message,
if errors are shown, and there are such lines only if it quotes a text with a line feed that
is no literal. Neither an initial value that can be read nor the index of a missing fill
value makes a difference to what is seen. -/
theorem session_does_as_asked (mem : Allocator) (o : Options)
    (hmem : ∀ n, o.AsksFor n → mem n = true) :
    ((o.perform mem).exitCode = 0 ↔ ∃ n, o.Accepted n) ∧
    (∀ n, o.Accepted n → (o.perform mem).errors = [] ∧
      ∀ v, (o.perform mem).stdout v = [arrayLine (o.elements n)]) ∧
    ((∀ n, ¬ o.Accepted n) → (o.perform mem).exitCode = 1 ∧
      ∃ e, (o.perform mem).errors = [e] ∧
        (∀ v, (o.perform mem).stdout v = if v.shows .error then furtherLines e else []) ∧
        (furtherLines e ≠ [] → ∃ t, o.Refuses t ∧ '\n' ∈ t.toList ∧
          e = .failed ("Invalid literal: '" ++ t ++ "'"))) ∧
    ∀ o' : Options, o.AskAlike o' →
      (o'.perform mem).exitCode = (o.perform mem).exitCode ∧
        ∀ v, (o'.perform mem).stdout v = (o.perform mem).stdout v := by
  have hyields := o.perform_yields mem hmem
  refine ⟨hyields.exitCode_eq_zero_iff, fun n hn => (hyields.of_accepted hn).2, fun hnot => ?_,
    fun o' halike => ?_⟩
  · obtain ⟨hexit, e, herrors, hout, he⟩ := hyields.of_not_accepted hnot
    refine ⟨hexit, e, herrors, hout, fun hmore => ?_⟩
    rcases he with ⟨t, ht, rfl⟩ | ⟨-, hnil⟩
    · have hlines : ¬ Text.OneLine t := fun hone => hmore (furtherLines_quoted hone)
      exact ⟨t, ht, Decidable.not_not.mp hlines, rfl⟩
    · exact absurd hnil hmore
  · have hmem' : ∀ n, o'.AsksFor n → mem n = true :=
      fun n hn => hmem n (halike.symm.asksFor hn)
    exact (o'.perform_yields mem hmem').seen_alike hyields halike.symm

/-- A double stored before the array leaves no trace, and the last element of the array is
filled. One position further the session fails, without any output. -/
theorem session_fills_last_element :
    let mem := Allocator.atMost 5
    let o : Options := ⟨"3", some "2.5", some 7, 2⟩
    let bare : Options := ⟨"3", none, some 7, 2⟩
    let beyond : Options := ⟨"3", none, some 7, 3⟩
    (∀ n, o.AsksFor n → mem n = true) ∧ (o.perform mem).exitCode = 0 ∧
      (∀ v, (o.perform mem).stdout v = ["a: kind=object value=[0, 0, 7]"]) ∧
      (o.AskAlike bare ∧ (bare.perform mem).exitCode = (o.perform mem).exitCode) ∧
      (∀ n, ¬ beyond.Accepted n) ∧ (beyond.perform mem).exitCode = 1 := by
  intro mem o bare beyond
  have hthree : Long.ofText "3" = .ok 3 := rfl
  have hsize : Literal.ofText? "3" = some (.long 3) := by simp only [Literal.ofText?, hthree]
  have hinitial : (Literal.ofText? "2.5").isSome = true := by decide +kernel
  have hasks : o.AsksFor 3 := ⟨3, hsize, by decide, by decide⟩
  have hmem : ∀ n, o.AsksFor n → mem n = true := fun n hn => by
    rw [← hasks.unique hn]
    rfl
  have hreads : o.ReadsInitial := by
    intro t ht
    obtain rfl := Option.some.inj ht
    exact Option.isSome_iff_exists.mp hinitial
  have haccepted : o.Accepted 3 := ⟨hreads, hasks, fun x hx => by decide⟩
  have halike : o.AskAlike bare := ⟨hreads, nofun, rfl, rfl, fun _ => rfl⟩
  have hbeyond : ∀ n, ¬ beyond.Accepted n := by
    intro n hn
    obtain rfl : 3 = n := hasks.unique hn.size
    exact absurd (hn.fill 7 rfl) (by decide)
  have hline : arrayLine (o.elements 3) = "a: kind=object value=[0, 0, 7]" := by decide +kernel
  obtain ⟨hexit, hshown, -, halikes⟩ := session_does_as_asked mem o hmem
  obtain ⟨-, -, hfailed, -⟩ := session_does_as_asked mem beyond hmem
  refine ⟨hmem, hexit.mpr ⟨3, haccepted⟩, fun v => ?_, ⟨halike, (halikes bare halike).1⟩, hbeyond,
    (hfailed hbeyond).1⟩
  rw [(hshown 3 haccepted).2 v, hline]

/-- A size with a line feed behind it is no literal. The error quotes it, so the mark that
closes the quotation stands on a line of its own, and there it is not seen to belong to the
log. -/
theorem refused_size_of_two_lines :
    let o : Options := ⟨"3\n", none, none, 0⟩
    (∀ n, ¬ o.AsksFor n) ∧ (∀ n, ¬ o.Accepted n) ∧ (o.perform .unlimited).exitCode = 1 ∧
      (o.perform .unlimited).stdout (.atLeast .info) = ["'"] := by
  intro o
  have hnone : (Literal.ofText? "3\n").isNone = true := by decide +kernel
  have hasks : ∀ n, ¬ o.AsksFor n := by
    rintro n ⟨k, hk, -⟩
    rw [show o.size = "3\n" from rfl] at hk
    rw [hk] at hnone
    cases hnone
  refine ⟨hasks, fun n hn => hasks n hn.size, ?_, ?_⟩
  · decide +kernel
  · decide +kernel

end TaggedSlots.CommandLine
