import TaggedSlots.Long
import TaggedSlots.Text.ControlSequence

/-! # Command line options

The command line consists of options that each take a value, written as two
arguments or as one argument with an equals sign, and of the flags for help and
version. There are no positional arguments and no abbreviations.

Arguments are handled from left to right, and the first problem decides
(`Request.ofArguments`). Three rules make the order precise:

* An option without an equals sign takes the next argument as its value,
  whatever that argument looks like.
* Such a value is **held** at first. It is checked, and the option checked for
  repetition, when the next known option or flag is met, or at the end. A problem
  with an unknown argument in between is therefore reported first.
* Help and version are granted as soon as they are met.

A lone `--` ends the options, and nothing may follow it.

The scan stands for the argument parser `clap`, a library that is not described
here otherwise. Its rules are those of the parser for the options of this program:
each takes one value, which may begin with a hyphen, and is given once at most. A
usage error is the parser's first paragraph, quoted through `Text.visible`; the tip
and the usage line that it prints below are left out.
-/
namespace TaggedSlots.CommandLine

/-! ## Options -/

/-- An option that takes a value. -/
inductive Key where
  | size
  | initial
  | fill
  | index
deriving DecidableEq

namespace Key

/-- The name of an option, as written after two hyphens. -/
def name : Key → String
  | .size => "size"
  | .initial => "initial"
  | .fill => "fill"
  | .index => "index"

/-- How an option and its value are shown. -/
def usage : Key → String
  | .size => "--size <SIZE>"
  | .initial => "--initial <INITIAL>"
  | .fill => "--fill <FILL>"
  | .index => "--index <INDEX>"

/-- The option of a name. -/
def ofName? (n : String) : Option Key :=
  [Key.size, Key.initial, Key.fill, Key.index].find? fun k => k.name == n

end Key

/-- What a command line asks to be done: the text of the array size and, if
given, the text of a value to store before, a long to store in the array, and
the index at which to store it. -/
structure Options where
  size : String
  initial : Option String
  fill : Option Int64
  index : Int64
deriving DecidableEq

/-! ## Usage errors -/

/-- Why a command line was refused. -/
inductive UsageError where
  /-- No array size was given. -/
  | sizeMissing
  /-- The last argument is an option without a value. -/
  | valueMissing (key : Key)
  /-- An argument is not known. -/
  | unexpectedArgument (shown : String)
  /-- A flag was given a value. -/
  | unexpectedValue (value flag : String)
  /-- An option was given twice. -/
  | repeated (key : Key)
  /-- The value of an option is not a long. -/
  | invalidValue (value : String) (key : Key) (reason : Long.ReadError)
deriving DecidableEq

/-- A text from the command line, as an error message quotes it: without what a
terminal would obey. -/
def quoted (t : String) : String := "'" ++ Text.visible t ++ "'"

/-- The wording of a usage error, which may span several lines. -/
def UsageError.message : UsageError → String
  | .sizeMissing =>
    "error: the following required arguments were not provided:\n  " ++ Key.size.usage
  | .valueMissing k => "error: a value is required for '" ++ k.usage ++ "' but none was supplied"
  | .unexpectedArgument shown => "error: unexpected argument " ++ quoted shown ++ " found"
  | .unexpectedValue value flag =>
    "error: unexpected value " ++ quoted value ++ " for '" ++ flag
      ++ "' found; no more were expected"
  | .repeated k => "error: the argument '" ++ k.usage ++ "' cannot be used multiple times"
  | .invalidValue value k reason =>
    "error: invalid value " ++ quoted value ++ " for '" ++ k.usage ++ "': " ++ reason.message

/-! ## Collecting options -/

/-- The options met so far. -/
structure Draft where
  size : Option String := none
  initial : Option String := none
  fill : Option Int64 := none
  index : Option Int64 := none
deriving DecidableEq

namespace Draft

/-- Whether an option has been met. -/
def has (d : Draft) : Key → Bool
  | .size => d.size.isSome
  | .initial => d.initial.isSome
  | .fill => d.fill.isSome
  | .index => d.index.isSome

/-- Reads the value of an option that is a long. -/
def readLong (k : Key) (v : String) : Except UsageError Int64 :=
  (Long.ofText v).mapError (.invalidValue v k)

/-- Adds an option with its value. Repetition is refused before the value is
looked at. -/
def enter (d : Draft) (k : Key) (v : String) : Except UsageError Draft :=
  if d.has k then .error (.repeated k)
  else match k with
    | .size => .ok { d with size := some v }
    | .initial => .ok { d with initial := some v }
    | .fill => (readLong k v).map fun n => { d with fill := some n }
    | .index => (readLong k v).map fun n => { d with index := some n }

/-- Adds the option whose value is held, if there is one. -/
def settle (d : Draft) : Option (Key × String) → Except UsageError Draft
  | none => .ok d
  | some (k, v) => d.enter k v

/-- The options of a complete command line. The index is zero unless given. -/
def finish (d : Draft) : Except UsageError Options :=
  match d.size with
  | none => .error .sizeMissing
  | some size => .ok ⟨size, d.initial, d.fill, d.index.getD 0⟩

end Draft

/-! ## Arguments -/

/-- What an argument is by its form, where an option may stand. -/
inductive Argument where
  /-- An option, with the value behind its equals sign if there is one. -/
  | option (key : Key) (value : Option String)
  | help
  | version
  /-- The end of the options. -/
  | terminator
  /-- An argument that is refused. -/
  | refused (e : UsageError)
deriving DecidableEq

namespace Argument

/-- A flag, which takes no value. -/
def flag (a : Argument) (shown : String) : Option String → Argument
  | none => a
  | some v => .refused (.unexpectedValue v shown)

/-- Splits off what stands behind the first equals sign. -/
def splitEquals (cs : List Char) : String × Option String :=
  (String.ofList (cs.takeWhile (· ≠ '=')),
    match cs.dropWhile (· ≠ '=') with
    | [] => none
    | _ :: v => some (String.ofList v))

/-- An argument that begins with two hyphens, given what follows them. -/
def ofLong (cs : List Char) : Argument :=
  let (name, value) := splitEquals cs
  match Key.ofName? name with
  | some k => .option k value
  | none =>
    if name = "help" then flag .help "--help" value
    else if name = "version" then flag .version "--version" value
    else .refused (.unexpectedArgument ("--" ++ name))

/-- The meaning of an argument. Behind a single hyphen the first letter
decides: it is a short flag, or it is unknown. -/
def classify (arg : String) : Argument :=
  match arg.toList with
  | ['-', '-'] => .terminator
  | '-' :: '-' :: cs => ofLong cs
  | '-' :: 'h' :: _ => .help
  | '-' :: 'V' :: _ => .version
  | '-' :: c :: _ => .refused (.unexpectedArgument (String.ofList ['-', c]))
  | _ => .refused (.unexpectedArgument arg)

end Argument

/-! ## Requests -/

/-- What a command line asks for. -/
inductive Request where
  | run (o : Options)
  | help
  | version
  | refused (e : UsageError)
deriving DecidableEq

namespace Request

/-- The request of a complete command line. -/
def ofDraft (d : Except UsageError Draft) : Request :=
  match d.bind Draft.finish with
  | .ok o => .run o
  | .error e => .refused e

/-- Handles arguments from left to right, with the options met so far and the
option whose value is held. -/
def scan (d : Draft) (held : Option (Key × String)) : List String → Request
  | [] => ofDraft (d.settle held)
  | arg :: rest =>
    match Argument.classify arg with
    | .refused e => .refused e
    | .terminator =>
      match rest with
      | [] => ofDraft (d.settle held)
      | next :: _ => .refused (.unexpectedArgument next)
    | .help =>
      match d.settle held with
      | .error e => .refused e
      | .ok _ => .help
    | .version =>
      match d.settle held with
      | .error e => .refused e
      | .ok _ => .version
    | .option k (some v) =>
      match (d.settle held).bind fun d' => d'.enter k v with
      | .error e => .refused e
      | .ok d' => scan d' none rest
    | .option k none =>
      match d.settle held with
      | .error e => .refused e
      | .ok d' =>
        match rest with
        | [] => .refused (.valueMissing k)
        | v :: rest' => scan d' (some (k, v)) rest'

/-- The request that a list of arguments makes. -/
def ofArguments (args : List String) : Request := scan {} none args

end Request

end TaggedSlots.CommandLine
