import HostView.Attribute
import HostView.Json.Fields
import HostView.Json.Reader

/-!
# Settings

Limits for the script engine, and whether records show only the fields that are logged. Settings
are stored as a document in which everything may be left out.
-/

namespace HostView

/-- Limits for the script engine in bytes; one that is absent is the engine's own. -/
structure EngineLimits where
  memory : Option Nat
  collection : Option Nat
  stack : Option Nat
  deriving DecidableEq

/-- The settings of a script sandbox. -/
structure Settings where
  limits : EngineLimits
  /-- Records show only the fields that are logged. -/
  loggableOnly : Bool
  deriving DecidableEq

/-- The stack is limited to one mebibyte. -/
def EngineLimits.default : EngineLimits := ⟨none, none, some (1024 * 1024)⟩

namespace Settings

/-- Every field of a record is shown. -/
def default : Settings := ⟨.default, false⟩

/-- The mask under which values are exposed unless one is given. -/
def defaultMask (s : Settings) : Mask := if s.loggableOnly then .loggable else .all

/-- A limit: a number of bytes, or null. -/
def limit? : Json → Option (Option Nat)
  | .null => some none
  | j => (j.naturalUpTo? (2 ^ 64 - 1)).map some

/-- The value that a field stores, or a default if it is missing. -/
def fieldOr {α : Type} (value : α) (read? : Json → Option α) : Option Json → Option α
  | none => some value
  | some j => read? j

/-- The limits that a document stores. -/
def limits? (j : Json) : Option EngineLimits := do
  let [memory, collection, stack] ←
    j.fields? ["memory_limit_bytes", "gc_threshold_bytes", "max_stack_size_bytes"] | none
  return ⟨← fieldOr EngineLimits.default.memory limit? memory,
    ← fieldOr EngineLimits.default.collection limit? collection,
    ← fieldOr EngineLimits.default.stack limit? stack⟩

/-- The rule for showing fields that a document stores. -/
def loggableOnly? (j : Json) : Option Bool := do
  let [loggable] ← j.fields? ["loggable_only"] | none
  fieldOr Settings.default.loggableOnly Json.bool? loggable

/-- The settings that a document stores. -/
def ofJson? (j : Json) : Option Settings := do
  let [engine, exposure] ← j.fields? ["engine", "exposure"] | none
  return ⟨← fieldOr Settings.default.limits limits? engine,
    ← fieldOr Settings.default.loggableOnly loggableOnly? exposure⟩

/-- The settings that a text stores. -/
def parse? (s : String) : Option Settings := (Json.parse? s).bind ofJson?

/-- The document of a limit. -/
def limitJson (limit : Option Nat) : Json :=
  (limit.map fun n => Json.number (.natural n)).getD .null

/-- The document of settings. -/
def toJson (s : Settings) : Json :=
  .ofFields
    [("engine", .ofFields
      [("memory_limit_bytes", limitJson s.limits.memory),
        ("gc_threshold_bytes", limitJson s.limits.collection),
        ("max_stack_size_bytes", limitJson s.limits.stack)]),
      ("exposure", .ofFields [("loggable_only", .bool s.loggableOnly)])]

end Settings

end HostView
