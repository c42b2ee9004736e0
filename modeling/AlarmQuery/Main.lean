import AlarmQuery.Command.Run

/-!
# The program

Reads the files that a command line names, carries out what it asks for and prints the outcome.
Log records and failures go to the error stream.  When the variable `SCLAUSE_QUIET` is set, only
warnings of the program itself are logged.
-/

namespace AlarmQuery

/-- The files that a request may read. -/
def Request.files (request : Request) (usual : Option Text) : List Text :=
  let clauses := match request.command with
    | .toQuery file => [file]
    | _ => []
  (request.settingsFile.or usual).toList ++ clauses

/-- The contents of a file that can be read. -/
def readContents (file : Text) : IO (Option Text) := do
  try
    let contents ← IO.FS.readFile (String.ofList file)
    return some contents.toList
  catch _ => return none

/-- The usual place of the settings file. -/
def usualSettings : IO (Option Text) := do
  let beneath (directory : String) : Text :=
    directory.toList ++ "/sclause/config.toml".toList
  match ← IO.getEnv "XDG_CONFIG_HOME" with
  | some directory => if directory.startsWith "/" then return some (beneath directory)
  | none => pure ()
  return (← IO.getEnv "HOME").map fun home => beneath (home ++ "/.config")

end AlarmQuery

open AlarmQuery in
/-- Carries out what the command line asks for. -/
def main (words : List String) : IO UInt32 := do
  let invocation := Invocation.ofWords (words.map String.toList)
  let usual ← usualSettings
  let files := match invocation with
    | .request request => request.files usual
    | _ => []
  let read ← files.mapM fun file => return (file, ← readContents file)
  let contents (file : Text) : Option Text := (read.lookup file).bind id
  let outcome := invocation.run contents usual (← IO.getEnv "SCLAUSE_QUIET").isSome
  for record in outcome.log do
    IO.eprintln (String.ofList record.text)
  IO.print (String.ofList outcome.output)
  if let some failure := outcome.failure then
    IO.eprintln ("Error: " ++ String.ofList failure.message)
  return UInt32.ofNat outcome.exitCode
