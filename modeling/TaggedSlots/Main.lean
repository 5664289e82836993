import TaggedSlots.CommandLine.Session

/-! # The program

Reads the arguments and the environment, runs a session and prints its report.
Log lines and output go to standard output, a usage error to standard error.
-/

open TaggedSlots CommandLine

/-- Runs the session of the given arguments. -/
def main (args : List String) : IO UInt32 := do
  let verbosity := Verbosity.ofName (← IO.getEnv "SLOTFRAME_LOG")
  let report := session .unlimited args
  for line in report.printed verbosity do
    IO.println line.render
  for line in report.complaint do
    IO.eprintln line
  return report.exitCode.toUInt32
