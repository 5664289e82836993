/-! # Text without terminal control sequences

A terminal takes some runs of characters as commands: an escape character and
what belongs to it. `visible` is what is left of a text when these runs and all
other controls are taken out, as for an error message that quotes an argument.

The runs are recognised the way terminals do it, by a machine that reads one
character at a time. `State` says what kind of run it is in.

* After the escape character, `[` starts a control sequence, which ends with a
  character from `@` to `~`. Other short runs end with their first character that
  is no intermediate, that is, above `/`.
* `]` starts an operating system command, which ends with the bell character.
* `P` starts a device control string, with parameters in front; `X`, `^` and `_`
  start strings of other kinds. Such a string ends with the octet `9C`, also where
  that octet is only a part of a character's encoding.
* Anywhere, the escape character starts a new run, and the cancel and substitute
  characters end the current one.

Outside of runs, all characters are kept but the controls, and of these the
*blank* ones are kept: tab, line feed, form feed and carriage return. A blank
control inside of a short run or control sequence is kept as well. It suspends
the run: what follows is kept until the next control that is not blank, and that
one takes the run up again (`Reader`).
-/
namespace TaggedSlots.Text

/-- The controls that separate words and lines. -/
def isBlankControl (c : Char) : Bool := c == '\t' || c == '\n' || c == '\x0c' || c == '\r'

/-- Whether a character is no control of seven bits. -/
def isPrinting (c : Char) : Bool := 0x20 ≤ c.toNat && c.toNat ≠ 0x7f

/-- Whether the encoding of a character ends a string: it is beyond ASCII and has
the octet `9C`. -/
def endsString (c : Char) : Bool := (String.utf8EncodeChar c).contains 0x9c

/-- The kind of run that a terminal is in. -/
inductive State where
  /-- Ordinary text. -/
  | ground
  /-- Right behind the escape character. -/
  | escape
  /-- In a short run, behind an intermediate character. -/
  | intermediate
  /-- In a control sequence. -/
  | sequence
  /-- In an operating system command. -/
  | command
  /-- At the start of a device control string. -/
  | deviceEntry
  /-- In the parameters of a device control string. -/
  | deviceParameter
  /-- Behind an intermediate character of a device control string. -/
  | deviceIntermediate
  /-- In the body of a string. -/
  | string
deriving DecidableEq

namespace State

/-- Whether a character is kept. -/
def keeps : State → Char → Bool
  | .ground, c => isPrinting c || isBlankControl c
  | .escape, c | .intermediate, c | .sequence, c => isBlankControl c
  | _, _ => false

/-- The kind of run that a character behind the escape character leads to. -/
def ofEscape (c : Char) : State :=
  if c.toNat < 0x20 then .escape
  else if c.toNat ≤ 0x2f then .intermediate
  else if c = '[' then .sequence
  else if c = ']' then .command
  else if c = 'P' then .deviceEntry
  else if c = 'X' ∨ c = '^' ∨ c = '_' then .string
  else if c.toNat ≤ 0x7e then .ground
  else .escape

/-- The state after a character. -/
def next (s : State) (c : Char) : State :=
  let n := c.toNat
  if n = 0x1b then .escape
  else if n = 0x18 ∨ n = 0x1a then .ground
  else match s with
    | .ground => .ground
    | .escape => ofEscape c
    | .intermediate => if 0x30 ≤ n ∧ n ≤ 0x7e then .ground else .intermediate
    | .sequence => if 0x40 ≤ n ∧ n ≤ 0x7e then .ground else .sequence
    | .command => if n = 0x07 then .ground else .command
    | .deviceEntry =>
      if n < 0x20 ∨ 0x7e < n then .deviceEntry
      else if n ≤ 0x2f then .deviceIntermediate
      else if n ≤ 0x3f then .deviceParameter
      else .string
    | .deviceParameter =>
      if n < 0x20 ∨ 0x7e < n then .deviceParameter
      else if n ≤ 0x2f then .deviceIntermediate
      else if n ≤ 0x3b then .deviceParameter
      else .string
    | .deviceIntermediate => if 0x30 ≤ n ∧ n ≤ 0x7e then .string else .deviceIntermediate
    | .string => if endsString c then .ground else .string

end State

/-- The machine that takes runs out of a text: the run it is in, and whether it is
in the middle of text that is kept. A run in the middle of such text is
suspended. -/
structure Reader where
  state : State
  showing : Bool
deriving DecidableEq

namespace Reader

/-- The machine in front of a text. -/
def start : Reader := ⟨.ground, false⟩

/-- Whether a character is kept. -/
def keeps (r : Reader) (c : Char) : Bool :=
  if r.showing then State.ground.keeps c else r.state.keeps c

/-- The machine behind a character. A character beyond ASCII that is kept ends a
suspended run. -/
def next (r : Reader) (c : Char) : Reader :=
  if r.showing && r.keeps c then ⟨if c.toNat < 0x80 then r.state else .ground, true⟩
  else ⟨r.state.next c, r.keeps c⟩

/-- The characters of a text that are kept. -/
def visible (r : Reader) : List Char → List Char
  | [] => []
  | c :: cs => if r.keeps c then c :: (r.next c).visible cs else (r.next c).visible cs

end Reader

/-- A text without control sequences and without controls that are not blank. -/
def visible (t : String) : String := String.ofList (Reader.start.visible t.toList)

end TaggedSlots.Text
