import HostView.CommandLine

/-!
# The command

Reads the files that the command line names, runs the command over them and prints its report. A
script file holds a script as a document.
-/

namespace HostView.Main

open CommandLine

/-- The text of a file, or the reason why there is none. -/
def readText (path : String) : IO (File String) := do
  try
    return .content (← IO.FS.readFile path)
  catch e =>
    match e with
    | .noFileOrDirectory .. => return .unreadable "No such file or directory (os error 2)"
    | .permissionDenied .. => return .unreadable "Permission denied (os error 13)"
    | .inappropriateType .. => return .unreadable "Is a directory (os error 21)"
    | e => return .unreadable (toString e)

/-- The script that a text writes. -/
def scriptOf : File String → File Script.Program
  | .unreadable reason => .unreadable reason
  | .content text =>
    match (Json.parse? text).bind Script.Program.ofJson? with
    | some p => .content p
    | none => .unreadable "not a script"

/-- The files that the arguments name. -/
def readFiles (arguments : List String) : IO Files := do
  match parse arguments with
  | .error _ => return ⟨fun _ => .unreadable "", fun _ => .unreadable ""⟩
  | .ok a => do
    let settings ← readText (a.settings.getD "")
    let script ← readText a.script
    return ⟨fun _ => settings, fun _ => scriptOf script⟩

end HostView.Main

/-- Runs the command with the given arguments and ends with its exit code. -/
def main (arguments : List String) : IO UInt32 := do
  let report := HostView.CommandLine.run arguments (← HostView.Main.readFiles arguments)
  report.stdout.forM IO.println
  report.stderr.forM IO.eprintln
  return .ofNat report.code
