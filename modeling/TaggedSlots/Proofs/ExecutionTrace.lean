import TaggedSlots.Proofs.Flattening
import TaggedSlots.Proofs.LogLines
import TaggedSlots.Proofs.StepReports

/-! # The log of an execution is a trace

A block announces each of its statements before executing it. So the announcements of an
execution follow the tree of statements in preorder, up to the statement that faults and
not beyond it; and if the execution faults, the last statement that was announced is the
culprit (`log_traces_execution`).

The nesting is dealt with first. The statements inside of a block, each before those inside
of it, are a list (`Stmt.inside`), and this list can be walked through from its beginning to
its end: every statement is announced, but only single statements are executed
(`Stmt.walk`). Executing the block is the same as this walk, report by report
(`Stmt.exec_eq_walk`). What is left is a fact about lists. How far a walk gets is told by
`Stmt.Trace`, which has a rule for each way in which a walk goes on or ends.
-/
namespace TaggedSlots

namespace Stmt

/-! ## Preorder -/

mutual

/-- All statements strictly inside a statement, each before those inside of it. -/
def inside : Stmt → List Stmt
  | .assign .. => []
  | .create .. => []
  | .store .. => []
  | .block body => insideAll body

/-- All statements of a list and inside of them. -/
def insideAll : List Stmt → List Stmt
  | [] => []
  | c :: rest => c :: (c.inside ++ insideAll rest)

end

mutual

/-- The labels that a block announces are those of the statements inside of it. -/
theorem announced_eq_inside : ∀ c : Stmt, c.announced = c.inside.map label
  | .assign s e => by rw [announced, inside, List.map_nil]
  | .create s e => by rw [announced, inside, List.map_nil]
  | .store s i v => by rw [announced, inside, List.map_nil]
  | .block body => by rw [announced, inside, announcedAll_eq_insideAll body]

theorem announcedAll_eq_insideAll :
    ∀ body : List Stmt, announcedAll body = (insideAll body).map label
  | [] => by rw [announcedAll, insideAll, List.map_nil]
  | c :: rest => by
    rw [announcedAll, insideAll, List.map_cons, List.map_append, announced_eq_inside c,
      announcedAll_eq_insideAll rest]

end

/-- A statement without a slot of its own is a block. -/
theorem eq_block_of_target {c : Stmt} (hc : c.target? = none) : ∃ body, c = .block body := by
  cases c with
  | block body => exact ⟨body, rfl⟩
  | _ => cases hc

/-- The single statements of a list; blocks are left out. -/
def singles (cs : List Stmt) : List Stmt := cs.filter fun c => c.target?.isSome

theorem singles_cons_of_target {d : Stmt} {s : SlotId} (hd : d.target? = some s)
    (cs : List Stmt) : singles (d :: cs) = d :: singles cs :=
  List.filter_cons_of_pos (by rw [hd]; rfl)

theorem singles_cons_block (body cs : List Stmt) : singles (.block body :: cs) = singles cs :=
  List.filter_cons_of_neg (by simp [target?])

/-! ## Walks -/

/-- What a statement does itself, without the statements inside of it. -/
def alone (mem : Allocator) (f : Frame) : Stmt → Outcome Fault
  | .block _ => .done f
  | d => d.exec mem f

theorem alone_of_target {d : Stmt} {s : SlotId} (hd : d.target? = some s) (mem : Allocator)
    (f : Frame) : d.alone mem f = d.exec mem f := by
  cases d with
  | block body => cases hd
  | _ => rfl

/-- Goes through a list of statements until one of them faults: each is announced and does
what it does itself. -/
def walk (mem : Allocator) (f : Frame) : List Stmt → Outcome Fault
  | [] => .done f
  | c :: rest =>
    Outcome.after (.executing c.label) ((c.alone mem f).andThen fun g => walk mem g rest)

theorem walk_append (mem : Allocator) (f : Frame) (xs ys : List Stmt) :
    walk mem f (xs ++ ys) = (walk mem f xs).andThen fun g => walk mem g ys := by
  induction xs generalizing f with
  | nil => rw [List.nil_append, walk, Outcome.done_andThen]
  | cons c rest ih =>
    simp only [List.cons_append, walk, Outcome.after_andThen, Outcome.andThen_assoc, ih]

section Cons
variable {mem : Allocator} {f : Frame} {d : Stmt} {s : SlotId}

theorem walk_cons_block (mem : Allocator) (f : Frame) (body cs : List Stmt) :
    walk mem f (.block body :: cs) =
      (walk mem f cs).after (.executing (Stmt.block body).label) := by
  rw [walk, alone, Outcome.done_andThen]

theorem walk_cons_of_error (hd : d.target? = some s) {r : Fault}
    (h : (d.exec mem f).result = .error r) (cs : List Stmt) :
    walk mem f (d :: cs) = ⟨.error r, f, .executing d.label :: (d.exec mem f).log⟩ := by
  rw [walk, alone_of_target hd]
  simp only [Outcome.after, Outcome.andThen, h, frame_of_fault hd h]

theorem walk_cons_of_ok (hd : d.target? = some s) (h : (d.exec mem f).result = .ok ())
    (cs : List Stmt) :
    walk mem f (d :: cs) =
      let o := walk mem (d.exec mem f).frame cs
      ⟨o.result, o.frame, .executing d.label :: ((d.exec mem f).log ++ o.log)⟩ := by
  rw [walk, alone_of_target hd]
  simp only [Outcome.after, Outcome.andThen, h]

end Cons

mutual

/-- **Execution is a walk.** Executing a statement is doing what it does itself, and then
walking through the statements inside of it; the log is the same, too. -/
theorem exec_eq_walk (mem : Allocator) : ∀ (c : Stmt) (f : Frame),
    c.exec mem f = (c.alone mem f).andThen fun g => walk mem g c.inside
  | .assign s e, f => by
    rw [inside]
    exact (Outcome.andThen_done _).symm
  | .create s e, f => by
    rw [inside]
    exact (Outcome.andThen_done _).symm
  | .store s i v, f => by
    rw [inside]
    exact (Outcome.andThen_done _).symm
  | .block body, f => by rw [exec, alone, inside, Outcome.done_andThen, execAll_eq_walk mem body f]

theorem execAll_eq_walk (mem : Allocator) : ∀ (body : List Stmt) (f : Frame),
    execAll mem f body = walk mem f (insideAll body)
  | [], f => by rw [execAll, insideAll, walk]
  | c :: rest, f => by
    -- The statements inside of `c` come before the rest, whether or not there are any.
    simp only [execAll, insideAll, walk, walk_append, exec_eq_walk mem c f, Outcome.andThen_assoc,
      execAll_eq_walk mem rest]

end

/-! ## Traces -/

/-- How far a walk gets from a frame: of the first list of statements it announces the
second one, it has a result, and it leaves a frame. -/
inductive Trace (mem : Allocator) :
    Frame → List Stmt → List Stmt → Except Fault Unit → Frame → Prop where
  /-- The end is reached. -/
  | nil (f : Frame) : Trace mem f [] [] (.ok ()) f
  /-- A block is announced, and nothing else happens. -/
  | block {f g : Frame} {body cs done : List Stmt} {r : Except Fault Unit}
    (rest : Trace mem f cs done r g) :
    Trace mem f (.block body :: cs) (.block body :: done) r g
  /-- A single statement succeeds, and the walk goes on from the frame it leaves. -/
  | step {f g : Frame} {d : Stmt} {s : SlotId} {cs done : List Stmt} {r : Except Fault Unit}
    (single : d.target? = some s) (succeeds : (d.exec mem f).result = .ok ())
    (rest : Trace mem (d.exec mem f).frame cs done r g) :
    Trace mem f (d :: cs) (d :: done) r g
  /-- A single statement faults: it is the last to be announced, and it changes nothing. -/
  | fault {f : Frame} {d : Stmt} {s : SlotId} {cs : List Stmt} {r : Fault}
    (single : d.target? = some s) (faults : (d.exec mem f).result = .error r) :
    Trace mem f (d :: cs) [d] (.error r) f

namespace Trace
variable {mem : Allocator} {f g : Frame} {cs done : List Stmt}

/-- What is announced is a prefix of the whole list. -/
theorem isPrefix {r : Except Fault Unit} (h : Trace mem f cs done r g) : done <+: cs := by
  induction h with
  | nil f => exact List.prefix_rfl
  | block rest ih => exact List.cons_prefix_cons.mpr ⟨rfl, ih⟩
  | step single succeeds rest ih => exact List.cons_prefix_cons.mpr ⟨rfl, ih⟩
  | fault single faults => exact List.cons_prefix_cons.mpr ⟨rfl, List.nil_prefix⟩

/-- A walk that succeeds announces everything, and its single statements succeed in turn. -/
theorem of_ok (h : Trace mem f cs done (.ok ()) g) :
    done = cs ∧ inTurn? mem f (singles done) = some g := by
  generalize hr : Except.ok () = r at h
  induction h with
  | nil f => exact ⟨rfl, rfl⟩
  | block rest ih =>
    obtain ⟨hdone, hturn⟩ := ih hr
    rw [singles_cons_block, hdone]
    exact ⟨rfl, hdone ▸ hturn⟩
  | step single succeeds rest ih =>
    obtain ⟨hdone, hturn⟩ := ih hr
    rw [singles_cons_of_target single, inTurn?_cons_of_ok succeeds, hdone]
    exact ⟨rfl, hdone ▸ hturn⟩
  | fault single faults => cases hr

/-- A walk that faults ends at the culprit: a single statement that has this fault on the
frame which is left, and before it the single statements have succeeded in turn. -/
theorem of_error {r : Fault} (h : Trace mem f cs done (.error r) g) :
    ∃ before d s, done = before ++ [d] ∧ d.target? = some s ∧
      inTurn? mem f (singles before) = some g ∧ (d.exec mem g).result = .error r := by
  generalize hr : Except.error r = r' at h
  induction h with
  | nil f => cases hr
  | @block f g body cs done r' rest ih =>
    obtain ⟨before, d, s, rfl, hd, hturn, hfault⟩ := ih hr
    refine ⟨.block body :: before, d, s, rfl, hd, ?_, hfault⟩
    rw [singles_cons_block]
    exact hturn
  | @step f g e t cs done r' single succeeds rest ih =>
    obtain ⟨before, d, s, rfl, hd, hturn, hfault⟩ := ih hr
    refine ⟨e :: before, d, s, rfl, hd, ?_, hfault⟩
    rw [singles_cons_of_target single, inTurn?_cons_of_ok succeeds]
    exact hturn
  | @fault f d s cs r' single faults =>
    cases hr
    exact ⟨[], d, s, rfl, single, rfl, faults⟩

end Trace

/-! ## Announcements -/

/-- A single statement announces nothing. -/
theorem announced?_of_target {d : Stmt} {s : SlotId} (hd : d.target? = some s) (mem : Allocator)
    (f : Frame) : (d.exec mem f).log.filterMap Event.announced? = [] := by
  rw [List.filterMap_eq_nil_iff]
  intro e he
  have hslot := slot?_of_mem_log hd he
  cases e with
  | executing l => cases hslot
  | _ => rfl

/-- **A walk announces what its trace says.** -/
theorem exists_trace_walk (mem : Allocator) (cs : List Stmt) (f : Frame) :
    ∃ done, Trace mem f cs done (walk mem f cs).result (walk mem f cs).frame ∧
      (walk mem f cs).log.filterMap Event.announced? = done.map label := by
  induction cs generalizing f with
  | nil => exact ⟨[], .nil f, rfl⟩
  | cons c cs ih =>
    cases hc : c.target? with
    | none =>
      obtain ⟨body, rfl⟩ := eq_block_of_target hc
      obtain ⟨done, htrace, hlog⟩ := ih f
      rw [walk_cons_block]
      exact ⟨.block body :: done, .block htrace, congrArg (List.cons _) hlog⟩
    | some s =>
      have hown := announced?_of_target hc mem f
      cases hr : (c.exec mem f).result with
      | error r =>
        rw [walk_cons_of_error hc hr]
        exact ⟨[c], .fault hc hr, congrArg (List.cons _) hown⟩
      | ok u =>
        obtain ⟨done, htrace, hlog⟩ := ih (c.exec mem f).frame
        rw [walk_cons_of_ok hc hr]
        refine ⟨c :: done, .step hc hr htrace, congrArg (List.cons _) ?_⟩
        rw [List.filterMap_append, hown, List.nil_append, hlog]

end Stmt

/-! ## Routines -/

namespace Routine
variable {mem : Allocator} {routine : Routine}

/-- A run that succeeds reports its start, what its body reports, and its end. -/
theorem run_log_of_ok {g : Frame} (h : (routine.run mem).result = .ok g) :
    (routine.run mem).log =
      .running routine.name :: .invoking routine.name routine.layout.size ::
        (((Stmt.block routine.body).exec mem routine.layout.newFrame).log ++
          [.completed routine.name]) := by
  obtain ⟨hbody, -⟩ := Outcome.quiet_eq_done_iff.mp (run_eq_ok_iff.mp h)
  simp only [run, invoke, hbody, List.cons_append]

/-- A run that fails reports its start and what its body reports. -/
theorem run_log_of_error {x : Failure} (h : (routine.run mem).result = .error x) :
    (routine.run mem).log =
      .running routine.name :: .invoking routine.name routine.layout.size ::
        ((Stmt.block routine.body).exec mem routine.layout.newFrame).log := by
  obtain ⟨-, g, hfail⟩ := run_eq_error_iff.mp h
  obtain ⟨hbody, -⟩ := Outcome.quiet_eq_fail_iff.mp hfail
  simp only [run, invoke, hbody]

end Routine

namespace Event

/-- The line of a routine's end is not that of its start. -/
theorem line_invoking_ne_completed (name : String) (n : Nat) :
    (invoking name n).line ≠ "INFO " ++ name ++ " completed" := by
  intro h
  have hlength := congrArg (fun t => t.toList.length) h
  simp [line_invoking] at hlength

/-- The line of a routine's end is not that of a detail. -/
theorem IsDetail.line_ne_completed {e : Event} (h : e.IsDetail) (name : String) :
    e.line ≠ "INFO " ++ name ++ " completed" := by
  intro hline
  have hbegins := h.line_begins
  rw [hline] at hbegins
  simp [Text.Begins] at hbegins

end Event

/-- A run that fails does not end with the line of its end. -/
theorem Routine.getLast?_of_error {mem : Allocator} {routine : Routine} {x : Failure}
    (h : (routine.run mem).result = .error x) :
    ((routine.run mem).log.map Event.line).getLast? ≠
      some ("INFO " ++ routine.name ++ " completed") := by
  have hbody := Stmt.exec_details mem (.block routine.body) routine.layout.newFrame
  rw [run_log_of_error h, List.map_cons, List.map_cons, List.getLast?_cons_cons, ← List.map_cons]
  intro hlast
  obtain ⟨e, he, hline⟩ := List.mem_map.mp (List.mem_of_getLast? hlast)
  rcases List.mem_cons.mp he with rfl | he
  · exact Event.line_invoking_ne_completed _ _ hline
  · exact (hbody e he).line_ne_completed _ hline

/-- **The log of an execution is a trace.** A block announces, in this order, a prefix of the
statements inside of it, each before those inside of it. If it succeeds these are all of them,
and the single statements among them have succeeded in turn. If it faults, the last one
announced is a single statement that has this very fault on the frame that is left, and the
single statements before it have succeeded in turn. A run of a routine reports its start, the
details of its body, and, exactly if it succeeds, its end. -/
theorem log_traces_execution (mem : Allocator) :
    (∀ (body : List Stmt) (f : Frame),
      let c := Stmt.block body
      let o := c.exec mem f
      c.inside.map Stmt.label = c.announced ∧
      ∃ done, done <+: c.inside ∧
        (o.log.map Event.line).filter
            (fun t => decide (Text.Begins "DEBUG Executing statement: " t)) =
          done.map (fun d => "DEBUG Executing statement: " ++ d.label.text) ∧
        (o.result = .ok () →
          done = c.inside ∧ Stmt.inTurn? mem f (Stmt.singles done) = some o.frame) ∧
        ∀ r, o.result = .error r →
          ∃ before d, done = before ++ [d] ∧ (∀ b, d ≠ .block b) ∧
            Stmt.inTurn? mem f (Stmt.singles before) = some o.frame ∧
            (d.exec mem o.frame).result = .error r) ∧
    ∀ routine : Routine,
      let start := ["INFO Running function: " ++ routine.name,
        "INFO Invoking " ++ routine.name ++ " (" ++ Decimal.natText routine.layout.size ++
          " slots)"]
      let details :=
        ((Stmt.block routine.body).exec mem routine.layout.newFrame).log.map Event.line
      let completed := "INFO " ++ routine.name ++ " completed"
      let lines := (routine.run mem).log.map Event.line
      (∀ t ∈ details, Text.Begins "DEBUG " t) ∧
      (∀ g, (routine.run mem).result = .ok g → lines = start ++ details ++ [completed]) ∧
      (∀ x, (routine.run mem).result = .error x → lines = start ++ details) ∧
      (lines.getLast? = some completed ↔ ∃ g, (routine.run mem).result = .ok g) := by
  refine ⟨fun body f => ?_, fun routine => ?_⟩
  · intro c o
    refine ⟨c.announced_eq_inside.symm, ?_⟩
    have hwalk : o = Stmt.walk mem f c.inside := Stmt.exec_eq_walk mem c f
    obtain ⟨done, htrace, hlog⟩ := Stmt.exists_trace_walk mem c.inside f
    rw [← hwalk] at htrace hlog
    refine ⟨done, htrace.isPrefix, ?_, fun hok => ?_, fun r hr => ?_⟩
    · rw [Event.filter_lines fun e he => (Stmt.exec_details mem c f e he).announced_told, hlog,
        List.map_map]
      rfl
    · rw [hok] at htrace
      exact htrace.of_ok
    · rw [hr] at htrace
      obtain ⟨before, d, s, hdone, hd, hturn, hfault⟩ := htrace.of_error
      refine ⟨before, d, hdone, ?_, hturn, hfault⟩
      rintro b rfl
      cases hd
  · intro start details completed lines
    have hok : ∀ g, (routine.run mem).result = .ok g → lines = start ++ details ++ [completed] := by
      intro g hg
      simp only [lines, start, details, completed, Routine.run_log_of_ok hg, List.map_cons,
        List.map_append, List.map_nil, Event.line_running, Event.line_invoking,
        Event.line_completed, List.cons_append, List.nil_append]
    refine ⟨?_, hok, fun x hx => ?_, ?_⟩
    · intro t ht
      obtain ⟨e, he, rfl⟩ := List.mem_map.mp ht
      exact (Stmt.exec_details mem _ _ e he).line_begins
    · simp only [lines, start, details, Routine.run_log_of_error hx, List.map_cons,
        Event.line_running, Event.line_invoking, List.cons_append, List.nil_append]
    · constructor
      · intro hlast
        cases hx : (routine.run mem).result with
        | ok g => exact ⟨g, rfl⟩
        | error x => exact absurd hlast (Routine.getLast?_of_error hx)
      · rintro ⟨g, hg⟩
        rw [hok g hg, List.getLast?_concat]

/-- A routine whose body is nested and has an empty block in it, and which divides by zero
three blocks deep. Of the six statements inside, the first five are announced; the division is
the last of them, and the run ends without the line of its end. -/
theorem trace_ends_at_nested_division :
    let a : SlotId := ⟨0⟩
    let b : SlotId := ⟨1⟩
    let divide := Stmt.assign b (.binary .div (.read a) (.literal (.long 0)))
    let routine : Routine := ⟨"main", ⟨[⟨"a", .illegal⟩, ⟨"b", .illegal⟩]⟩,
      [.block [], .block [.assign a (.literal (.long 7)), .block [divide]], .create a (.read a)]⟩
    let c := Stmt.block routine.body
    let f := routine.layout.newFrame
    let o := c.exec .unlimited f
    let announcements := (o.log.map Event.line).filter
      fun t => decide (Text.Begins "DEBUG Executing statement: " t)
    let lines := (routine.run .unlimited).log.map Event.line
    let fault : Fault := ⟨⟨"Binary", none⟩, .divisionByZero⟩
    (c.inside.length = 6 ∧ announcements.length = 5 ∧ o.result = .error fault ∧
        (routine.run .unlimited).result = .error ⟨"main", fault⟩) ∧
      announcements = (c.inside.take 4 ++ [divide]).map
        (fun d => "DEBUG Executing statement: " ++ d.label.text) ∧
      Stmt.inTurn? .unlimited f (Stmt.singles (c.inside.take 4)) = some o.frame ∧
      (divide.exec .unlimited o.frame).result = .error fault ∧
      lines.take 2 = ["INFO Running function: main", "INFO Invoking main (2 slots)"] ∧
      lines.getLast? ≠ some "INFO main completed" := by
  intro a b divide routine c f o announcements lines fault
  have hcount : announcements.length = 5 := by decide +kernel
  have hresult : o.result = .error fault := rfl
  have hrun : (routine.run .unlimited).result = .error ⟨"main", fault⟩ := rfl
  obtain ⟨hblock, hroutine⟩ := log_traces_execution .unlimited
  obtain ⟨-, done, hprefix, hlines, -, hculprit⟩ := hblock routine.body f
  obtain ⟨-, -, hfailed, hlast⟩ := hroutine routine
  have hdone : done = c.inside.take 4 ++ [divide] := by
    have hlength : done.length = 5 := by
      rw [← hcount, show announcements = _ from hlines, List.length_map]
    rw [List.prefix_iff_eq_take.mp hprefix, hlength]
    rfl
  obtain ⟨before, d, hsplit, -, hturn, hfault⟩ := hculprit fault hresult
  obtain ⟨rfl, hd⟩ := List.append_inj' (hsplit.symm.trans hdone) rfl
  obtain rfl : d = divide := List.singleton_inj.mp hd
  refine ⟨⟨rfl, hcount, hresult, hrun⟩, hdone ▸ hlines, hturn, hfault, ?_, ?_⟩
  · have hstart := congrArg (List.take 2) (hfailed _ hrun)
    exact hstart.trans (by decide +kernel)
  · intro h
    obtain ⟨g, hg⟩ := hlast.mp h
    rw [hrun] at hg
    cases hg

end TaggedSlots
