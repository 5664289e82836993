import TaggedSlots.CommandLine.Options
import TaggedSlots.Expr.Literal
import TaggedSlots.Routine
import TaggedSlots.Text.Escaped
import TaggedSlots.Text.Lines

/-! # Sessions

A session does what one command line asks for. It builds a routine with a single
slot `a`: store the initial value, if one is given; create the array; store the
fill value, if one is given. Then it runs the routine and shows the slot.

The result of a session is a `Report`: an exit code, lines of output, the log
and, for a refused command line, the usage error. Output and log are printed on
the same channel, line by line (`Report.printed`); how much of the log is printed
depends on a `Verbosity`.

Printing the log stands for the library `tracing-subscriber`, of which only this is
described: `Text.escaped` is how it writes the control characters of a message, and
`Verbosity.ofName` is its `EnvFilter` where the filter is one level for the whole
program. Left out are the filters that name a target, a span or a field, alone or in
a list, and the time and the target in front of a message.
-/
namespace TaggedSlots.CommandLine

/-! ## The routine of a command line -/

/-- Why a session failed. -/
inductive SessionError where
  /-- A text that should be a literal is none. -/
  | invalidLiteral (text : String)
  /-- The routine faulted. -/
  | failure (x : Failure)
  /-- The slot to be shown could not be read. -/
  | access (e : AccessError)

/-- The wording of a `SessionError`. -/
def SessionError.message : SessionError → String
  | .invalidLiteral t => "Invalid literal: '" ++ t ++ "'"
  | .failure x => x.message
  | .access e => e.message

/-- The expression that a literal text stands for. -/
def literal (t : String) : Except SessionError Expr :=
  match Literal.ofText? t with
  | some c => .ok (.literal c)
  | none => .error (.invalidLiteral t)

/-- The slot that a session works on. -/
def slotA : SlotId := ⟨0⟩

/-- The layout of a session's frame: the slot `a`, not specialised yet. -/
def layoutA : Layout := ⟨[⟨"a", .illegal⟩]⟩

namespace Options

/-- The statement that stores the initial value, if one is given. -/
def initialStep (o : Options) : Except SessionError (List Stmt) :=
  match o.initial with
  | none => .ok []
  | some t => (literal t).map fun e => [.assign slotA e]

/-- The statement that stores the fill value, if one is given. -/
def fillStep (o : Options) : List Stmt :=
  match o.fill with
  | none => []
  | some n => [.store slotA (.literal (.long o.index)) (.literal (.long n))]

/-- The routine of a command line. The initial value is read before the size. -/
def routine (o : Options) : Except SessionError Routine :=
  match o.initialStep with
  | .error e => .error e
  | .ok first =>
    match literal o.size with
    | .error e => .error e
    | .ok size => .ok ⟨"main", layoutA, first ++ .create slotA size :: o.fillStep⟩

end Options

/-! ## Reports -/

/-- What a session shows to the outside. -/
structure Report where
  exitCode : Nat
  output : List String
  log : List Event
  error : Option UsageError

namespace Report

/-- The report of a session that showed the given line. -/
def succeeded (line : String) (log : List Event) : Report := ⟨0, [line], log, none⟩

/-- The report of a session that failed after reporting the given events. -/
def failed (e : SessionError) (log : List Event) : Report :=
  ⟨1, [], log ++ [.failed e.message], none⟩

/-- The report of a session that only gave information. -/
def informed (lines : List String) : Report := ⟨0, lines, [], none⟩

/-- The report of a command line that was refused. -/
def refused (e : UsageError) : Report := ⟨2, [], [], some e⟩

end Report

/-- The line that shows the slot of a session. -/
def slotLine (f : Frame) : Except AccessError String :=
  match f.kind slotA with
  | .error e => .error e
  | .ok k =>
    match f.read slotA with
    | .error e => .error e
    | .ok v => .ok ("a: kind=" ++ k.name ++ " value=" ++ v.text)

/-- Runs the routine of a command line and shows its slot. -/
def Options.perform (mem : Allocator) (o : Options) : Report :=
  match o.routine with
  | .error e => .failed e []
  | .ok r =>
    let run := r.run mem
    match run.result with
    | .error x => .failed (.failure x) run.log
    | .ok f =>
      let log := run.log ++ [.interpreted]
      match slotLine f with
      | .error e => .failed (.access e) log
      | .ok line => .succeeded line log

/-- The lines that explain the command line. -/
def helpLines : List String :=
  [ "Allocate a local long array in a type-specialized frame",
    "",
    "Usage: slotframe [OPTIONS] --size <SIZE>",
    "",
    "Options:",
    "      --size <SIZE>        Array size literal (long, double or boolean)",
    "      --initial <INITIAL>  Value stored in the slot before the array, fixing its initial kind",
    "      --fill <FILL>        Long written into the array after allocation",
    "      --index <INDEX>      Index written by `--fill` [default: 0]",
    "  -h, --help               Print help",
    "  -V, --version            Print version" ]

/-- The line that names the program and its version. -/
def versionLine : String := "slotframe 0.0.1"

/-- The report of a request. -/
def Request.report (mem : Allocator) : Request → Report
  | .run o => o.perform mem
  | .help => .informed helpLines
  | .version => .informed [versionLine]
  | .refused e => .refused e

/-- The session of a list of arguments. -/
def session (mem : Allocator) (args : List String) : Report :=
  (Request.ofArguments args).report mem

/-! ## Verbosity -/

/-- How much of the log is shown: nothing, or the events of a level and above. -/
inductive Verbosity where
  | off
  | atLeast (l : Level)
deriving DecidableEq

namespace Verbosity

/-- Whether events of a level are shown. -/
def shows : Verbosity → Level → Bool
  | .off, _ => false
  | .atLeast .debug, _ => true
  | .atLeast .info, l => l ≠ .debug
  | .atLeast .error, l => l = .error

/-- The verbosity of a level, given by its name in any letter case or by its
number. No event has the level `warn` or `trace`, so these show what `error` and
`debug` do. Without a level it is that of `info`, and the empty text is that of
`error`. A filter that is not a single level is left out, and is taken as `error`. -/
def ofName : Option String → Verbosity
  | none => .atLeast .info
  | some name =>
    let level := name.toLower
    if level ∈ ["off", "0"] then .off
    else if level ∈ ["trace", "5", "debug", "4"] then .atLeast .debug
    else if level ∈ ["info", "3"] then .atLeast .info
    else .atLeast .error

end Verbosity

/-! ## Printing -/

/-- A printed line. The first line of a log message carries the message's level. -/
structure Line where
  level : Option Level
  text : String
deriving DecidableEq

namespace Line

/-- A line without a level. -/
def plain (t : String) : Line := ⟨none, t⟩

/-- The text of a line, with its level in front. -/
def render (l : Line) : String :=
  match l.level with
  | none => l.text
  | some v => v.name ++ " " ++ l.text

/-- The lines of a log message, whose control characters are escaped. A message
may quote a text of several lines; only its first line has the level. -/
def ofEvent (e : Event) : List Line :=
  match Text.lines (Text.escaped e.message) with
  | [] => []
  | first :: rest => ⟨some e.level, first⟩ :: rest.map plain

end Line

namespace Report

/-- The lines on standard output: the log as far as a verbosity shows it, then the
output. -/
def printed (r : Report) (v : Verbosity) : List Line :=
  (r.log.filter fun e => v.shows e.level).flatMap Line.ofEvent ++ r.output.map Line.plain

/-- The lines on standard error: the usage error, if there is one. -/
def complaint (r : Report) : List String :=
  match r.error with
  | none => []
  | some e => Text.lines e.message

end Report

end TaggedSlots.CommandLine
