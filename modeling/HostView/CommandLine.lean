import HostView.Folder
import HostView.Json.Printer
import HostView.Sandbox
import HostView.Sample
import HostView.Script.Document

/-!
# The command line

One command: a script is run over a sample connection, which it sees as a global, and its result
is printed together with what became of the connection. The command reads two files, which are
given here by a function, and its output is a list of lines, so that a run is a function of its
arguments and files.
-/

namespace HostView.CommandLine

open Script

/-- The name of the program. -/
def program : String := "netval"

/-- The version of the program. -/
def version : String := "0.1.0"

/-- The files that a command can read: settings as text and scripts as programs. -/
structure Files where
  settings : String → File String
  script : String → File Program

/-- What the command line asks for. -/
structure Arguments where
  settings : Option String
  script : String

/-- Why a command failed. -/
inductive Fault where
  | missingPath
  | unexpected (argument : String)
  | usage
  | unreadableScript (path reason : String)
  | sandbox (fault : SandboxFault)
  | sample (fault : HostFault)

/-- The lines for a fault: what failed and, if something lies behind it, the cause. -/
def Fault.lines : Fault → List String
  | .missingPath => ["Error: --settings needs a path"]
  | .unexpected argument => ["Error: unexpected argument '" ++ argument ++ "'"]
  | .usage => ["Error: usage: " ++ program ++ " [--settings <path>] <script.js>"]
  | .unreadableScript path reason =>
    ["Error: failed to read " ++ path, "Caused by:", "    " ++ reason]
  | .sandbox (.unreadable path reason) =>
    ["Error: " ++ SandboxFault.message (.unreadable path reason), "Caused by:", "    " ++ reason]
  | .sandbox fault => ["Error: " ++ fault.message]
  | .sample fault => ["Error: " ++ fault.message]

/-- Reads the arguments from left to right; the last settings path counts. -/
def parseFrom (settings script : Option String) : List String → Except Fault Arguments
  | [] =>
    match script with
    | some script => .ok ⟨settings, script⟩
    | none => .error .usage
  | argument :: rest =>
    if argument = "--settings" then
      match rest with
      | [] => .error .missingPath
      | path :: rest => parseFrom (some path) script rest
    else
      match script with
      | none => parseFrom settings (some argument) rest
      | some _ => .error (.unexpected argument)

/-- The arguments of a command. -/
def parse (arguments : List String) : Except Fault Arguments := parseFrom none none arguments

/-- The output of a command. -/
structure Report where
  code : Nat
  stdout : List String
  stderr : List String

/-- A character as the log writes it: one that could steer a terminal is written as its number. -/
def escape (c : Char) : List Char :=
  let n := c.toNat
  let digits := Nat.toDigits 16 n
  if n = 7 ∨ n = 8 ∨ n = 0xC then '\\' :: 'x' :: '0' :: digits
  else if n = 0x1B ∨ n = 0x7F then '\\' :: 'x' :: digits
  else if 0x80 ≤ n ∧ n ≤ 0x9F then '\\' :: 'u' :: '\x7b' :: (digits ++ ['\x7d'])
  else [c]

/-- A line of the log. -/
def info (source text : String) : String :=
  "INFO " ++ source ++ ": " ++ String.ofList (text.toList.flatMap escape)

/-- The settings at a path, or the default. -/
def loadSettings (files : Files) : Option String → Except Fault Settings
  | none => .ok .default
  | some path =>
    match files.settings path with
    | .unreadable reason => .error (.sandbox (.unreadable path reason))
    | .content text =>
      match Settings.parse? text with
      | some s => .ok s
      | none => .error (.sandbox .settings)

/-- A sandbox with a console in which the sample connection is exposed, and the connection. -/
def prepare (settings : Settings) : Except Fault (Ref × Sandbox) := do
  let (conn, heap) ← (Sample.connection 0 .empty).mapError .sample
  let (_, sandbox) := Sandbox.installConsole (.start settings heap)
  match Sandbox.exposeDefault "conn" conn sandbox with
  | (.ok (), r) => .ok (conn, r)
  | (.error fault, _) => .error (.sandbox fault)

/-- What the log says of a run that succeeded. -/
def summary (result : Json) (conn : Ref) (r : Sandbox) : List String :=
  let s := r.collect.statistics
  [info program ("script result: " ++ result.pretty),
    info program ("conn after script: " ++ r.machine.heap.render conn),
    info program ("wraps created " ++ toString s.created ++ ", released " ++ toString s.released ++
      ", live " ++ toString s.live)]

/-- Runs a script over the sample connection: the log, and the fault if it failed. -/
def runScript (files : Files) (path : String) (conn : Ref) (r : Sandbox) :
    List String × Option Fault :=
  match files.script path with
  | .unreadable reason => ([], some (.unreadableScript path reason))
  | .content script =>
    let (result, r) := r.evaluate script
    let console := r.machine.console.reverse.map (info "script")
    match result with
    | .ok j => (console ++ summary j conn r, none)
    | .error fault => (console, some (.sandbox fault))

/-- Runs a command: the log after its first line, and the fault if it failed. -/
def perform (arguments : List String) (files : Files) : List String × Option Fault :=
  let prepared : Except Fault (String × Ref × Sandbox) := do
    let a ← parse arguments
    let settings ← loadSettings files a.settings
    let (conn, r) ← prepare settings
    return (a.script, conn, r)
  match prepared with
  | .error fault => ([], some fault)
  | .ok (path, conn, r) => runScript files path conn r

/-- Runs a command. -/
def run (arguments : List String) (files : Files) : Report :=
  let (log, fault) := perform arguments files
  let stdout := info program ("Netval v" ++ version) :: log
  match fault with
  | none => ⟨0, stdout, []⟩
  | some fault => ⟨1, stdout, fault.lines⟩

end HostView.CommandLine
