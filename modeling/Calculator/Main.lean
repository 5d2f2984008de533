import Calculator.CommandLine.Run

/-!
# Running the program

Connects the program to the arguments, the standard streams and the terminals. Lines are answered as
they come in.
-/

namespace Calculator.CommandLine

/-- The bytes of the next line of a stream without its line feed, in reverse, and whether there was
a line feed. -/
partial def readBytes (stream : IO.FS.Stream) (reversed : List UInt8) : IO (List UInt8 × Bool) := do
  let chunk ← stream.read 1
  match chunk.data.toList with
  | [] => return (reversed, false)
  | b :: _ => if b = 10 then return (reversed, true) else readBytes stream (b :: reversed)

/-- The next line of a stream, if there is one. -/
def nextLine? (stream : IO.FS.Stream) : IO (Option Line) := do
  let (reversed, ended) ← readBytes stream []
  if ended then return some (.ofEnded reversed)
  else return (Line.split reversed []).head?

/-- Writes to standard error and then to standard output. -/
def write (out err : String) : IO Unit := do
  let stderr ← IO.getStderr
  stderr.putStr err
  let stdout ← IO.getStdout
  stdout.putStr out
  stdout.flush

/-- Answers the lines and then those of standard input, if they are read too. -/
partial def converse (s : Settings) (lines : List Line) (reading : Bool) : IO UInt32 := do
  let (line?, later) ← match lines with
    | line :: later => pure (some line, later)
    | [] =>
      if reading then
        let line? ← nextLine? (← IO.getStdin)
        pure (line?, [])
      else pure (none, [])
  match line? with
  | none => return Ending.success.exitCode.toUInt32
  | some line =>
    let r := s.reply line
    write r.out r.err
    match r.ending with
    | some ending => return ending.exitCode.toUInt32
    | none => converse s later reading

end Calculator.CommandLine

open Calculator.CommandLine in
/-- The program. -/
def main (args : List String) : IO UInt32 := do
  let terminals : Terminals := {
    input := ← (← IO.getStdin).isTty
    output := ← (← IO.getStdout).isTty
    error := ← (← IO.getStderr).isTty }
  match Plan.ofArguments args terminals with
  | .report r =>
    write r.out r.err
    return r.exit.toUInt32
  | .session s lines reading =>
    write s.prompt ""
    converse s lines reading
