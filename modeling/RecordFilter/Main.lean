import RecordFilter.Command.Run

/-!
# The program

Reads the words of the command line, runs what they ask for, and writes the one response to the
standard output.  What goes wrong is told on the standard error, with exit status 1, or 2 where the
words themselves are at fault.
-/

namespace RecordFilter

/-- How the program is used. -/
def usage : String :=
  "Usage: record-filter [--config PATH] [--log-json] COMMAND\n\n" ++
  "Commands:\n" ++
  "  schema TYPE [--depth N] [--override-ignores]  Print the schema of a sample type\n" ++
  "  types                                         List the types marked for compilation\n" ++
  "  query TYPE --data PATH [--request PATH]       Apply a filter request to a JSON array\n" ++
  "  explain TYPE [--request PATH]                 Print the predicate of a filter request\n\n" ++
  "Types: person, address, order, category, audit\n"

/-- What is told when the words are no invocation, and the exit status. -/
def ArgumentError.report : ArgumentError → String × UInt32
  | help => (usage, 0)
  | version => ("record-filter 0.1.0\n", 0)
  | helpForNothing => (usage, 2)
  | missingSubcommand => ("error: a command is required\n\n" ++ usage, 2)
  | unknownSubcommand => ("error: unrecognized command\n\n" ++ usage, 2)
  | unknownArgument => ("error: unexpected argument\n\n" ++ usage, 2)
  | missingArgument => ("error: a required argument was not provided\n\n" ++ usage, 2)
  | invalidValue | malformedValue => ("error: invalid value for an argument\n\n" ++ usage, 2)
  | unneededValue => ("error: unexpected value for a flag\n\n" ++ usage, 2)
  | repeated => ("error: an option cannot be used twice\n\n" ++ usage, 2)

/-- The text of a file, if it can be read. -/
def readFile? (path : String) : IO (Option String) := do
  try
    return some (← IO.FS.readFile path)
  catch _ => return none

/-- The text of the standard input, if it can be read. -/
def readInput? : IO (Option String) := do
  try
    return some (← (← IO.getStdin).readToEnd)
  catch _ => return none

/-- The paths that an invocation names. -/
def Invocation.paths (i : Invocation) : List String :=
  i.settings.toList ++ match i.command with
    | .query _ data request => data :: request.toList
    | .explain _ request => request.toList
    | .schema .. | .types => []

/-- Whether a command reads its request from the standard input. -/
def Command.readsInput : Command → Bool
  | query _ _ request | explain _ request => request.isNone
  | schema .. | types => false

/-- The documents that an invocation names. -/
def Invocation.documents (i : Invocation) : IO Documents := do
  let files ← i.paths.mapM fun path => return (path, ← readFile? path)
  let input? ← if i.command.readsInput then readInput? else pure (some "")
  return {
    file? path := (files.lookup path).join
    input := input?.getD ""
    inputFault := if input?.isNone then some "stream did not contain valid UTF-8" else none }

end RecordFilter

open RecordFilter in
/-- Runs the program. -/
def main (words : List String) : IO UInt32 := do
  match Invocation.ofWords words with
  | .error e =>
    let (text, status) := e.report
    if status = 0 then IO.print text else IO.eprint text
    return status
  | .ok invocation =>
    match invocation.run (← invocation.documents) with
    | .error e =>
      IO.eprintln (e.code ++ ": " ++ e.message)
      return 1
    | .ok outcome =>
      IO.print outcome.output
      (← IO.getStdout).flush
      match outcome.error with
      | none => return 0
      | some e =>
        IO.eprintln (e.code ++ ": " ++ e.message)
        return 1
