import HostView.Script.Eval
import HostView.Script.Outline
import HostView.Script.Reach
import HostView.Settings

/-!
# The script sandbox

A sandbox runs scripts over a host heap under some settings. Host values are exposed to it as
globals under a mask, scripts are run for their effect or for their result, and what a script
leaves behind is converted back. Whatever fails leaves the effects that came before.
-/

namespace HostView

open Script

/-- Why an operation of the sandbox failed. -/
inductive SandboxFault where
  /-- The script threw an error that nothing caught, with a message unless it has none. -/
  | uncaught (message : Option String)
  /-- A value other than a function was called. -/
  | notCallable (typeName : String)
  /-- The result of a script is not a document that can be read back. -/
  | result
  | conversion (fault : ConversionFault)
  /-- A file could not be read. -/
  | unreadable (path reason : String)
  | settings

/-- The message for a fault. The error of a script is told by its message alone. -/
def SandboxFault.message : SandboxFault → String
  | .uncaught message =>
    "uncaught exception: Error:" ++ ((message.map fun text => " " ++ text).getD "")
  | .notCallable typeName =>
    "script engine error: Error converting from js '" ++ typeName ++ "' into type 'function'"
  | .result => "script result is not valid JSON"
  | .conversion fault => fault.message
  | .unreadable path reason => "failed to read " ++ path ++ ": " ++ reason
  | .settings => "invalid settings"

/-- A script sandbox. -/
structure Sandbox where
  settings : Settings
  machine : Machine

/-- The counts that a sandbox keeps. -/
structure Statistics where
  created : Nat
  released : Nat
  live : Nat
  recordTypes : Nat
  bigIntegers : Nat

/-- An operation of a sandbox. -/
abbrev Operation (α : Type) := Sandbox → Except SandboxFault α × Sandbox

namespace Sandbox

variable {α : Type}

/-- A new sandbox over the given host values. -/
def start (settings : Settings) (heap : Heap) : Sandbox := ⟨settings, .start heap⟩

/-- The sandbox is replaced by a new one under other settings; host values stay. -/
def restart (s : Sandbox) (settings : Settings) : Sandbox := start settings s.machine.heap

/-- Runs an effect, which may call functions. -/
def run (effect : Effect α) (s : Sandbox) : α × Sandbox :=
  let (result, machine) := (effect.run (invoke callLimit)).run s.machine
  (result, { s with machine })

/-- Runs an action; what it throws is told by a routine. -/
def attempt {β : Type} (action : Action α) (tell : Thrown → Routine β) (otherwise : β)
    (s : Sandbox) : Except β α × Sandbox :=
  s.run do
    match ← action.run with
    | .ok a => return .ok a
    | .error thrown => return .error ((← (tell thrown).run).toOption.getD otherwise)

/-- Runs an action and tells the name and the message of what it throws. -/
def perform (action : Action α) (s : Sandbox) : Except Complaint α × Sandbox :=
  s.attempt action complaint ⟨"", ""⟩

/-- Runs an action as a script. -/
def script (action : Action α) : Operation α := fun s =>
  let (result, s) := s.attempt action (fun thrown => do messageOf? (← thrown.toValue)) none
  (result.mapError .uncaught, s)

/-- Runs an action of the bridge, which does not tell what was thrown. -/
def bridge (action : Action α) : Operation α := fun s =>
  let (result, s) := s.run action.run
  (result.mapError fun _ => .conversion (.engine .exception), s)

/-- Gives scripts a console, whose `log` method writes a line. -/
def installConsole : Operation Unit :=
  bridge do
    let console ← newPlain
    setProperty console (.name "log") (.object (← newFunction .console false none))
    setProperty Intrinsic.globals (.name "console") (.object console)

/-- Gives a host value to scripts as a global, under a mask. -/
def expose (name : String) (value : Ref) (mask : Mask) : Operation Unit :=
  bridge do
    setProperty Intrinsic.globals (.name name) (← wrapValue mask value)

/-- Gives a host value to scripts under the mask of the settings. -/
def exposeDefault (name : String) (value : Ref) : Operation Unit := fun s =>
  expose name value s.settings.defaultMask s

/-- Gives a host value to scripts as an object, even one that is no record or table. -/
def exposeObject (name : String) (value : Ref) (mask : Mask) (s : Sandbox) :
    Except Complaint Unit × Sandbox :=
  s.perform do
    setProperty Intrinsic.globals (.name name) (← wrapObject mask value)

/-- Runs a script for its effect. -/
def execute (program : Program) : Operation Unit :=
  script do
    let _ ← program.run

/-- Runs a script and gives its result as a document. -/
def evaluate (program : Program) : Operation Json := fun s =>
  match script (do document (← program.run)) s with
  | (.ok j, s) => if isStrict nestingLimit j then (.ok j, s) else (.error .result, s)
  | (.error fault, s) => (.error fault, s)

/-- The value of a global. -/
def global (name : String) : Operation Value :=
  bridge (getProperty Intrinsic.globals (.name name))

/-- Calls a global function. -/
def call (name : String) : Operation Unit := fun s =>
  match global name s with
  | (.error fault, s) => (.error fault, s)
  | (.ok v, s) =>
    if s.machine.isFunction v then
      script (do
        let _ ← callValue v .undefined []) s
    else (.error (.notCallable (s.machine.typeName v)), s)

/-- Converts a script value to a host value. -/
def convert (v : Value) (type : HostType) : Operation Ref := fun s =>
  let (result, s) := s.run (toHost type v).run
  (result.mapError .conversion, s)

/-- Converts a global to a host value. -/
def readGlobal (name : String) (type : HostType) : Operation Ref := fun s =>
  match global name s with
  | (.error fault, s) => (.error fault, s)
  | (.ok v, s) => convert v type s

/-- Releases the wraps that scripts cannot reach. -/
def collect (s : Sandbox) : Sandbox := { s with machine := s.machine.collect }

/-- The counts of a sandbox, in which only wraps are live to which something holds on. -/
def statistics (s : Sandbox) : Statistics :=
  let m := s.machine.prune
  ⟨m.wraps.created, m.wraps.released, m.wraps.liveCount, m.offsets.size, m.integers.size⟩

end Sandbox

end HostView
