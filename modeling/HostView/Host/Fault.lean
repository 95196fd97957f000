/-!
# Faults of host operations

What a host operation can refuse, with the message for each cause. Types and values are given by
their texts, as the messages show them.
-/

namespace HostView

/-- Why a host operation was refused. -/
inductive HostFault where
  /-- A value of another kind was needed. -/
  | wrongKind (expected actual : String)
  | typeMismatch (expected actual : String)
  | badOffset (record : String) (offset : Nat)
  | unknownField (record field : String)
  | fieldType (record field expected actual : String)
  /-- A field that must be set was to be cleared. -/
  | requiredField (record field : String)
  | invalidKeyType (type : String)
  | unknownVariant (enumeration variant : String)
  /-- A value was given for a member of a set, or none for an entry of a table. -/
  | yieldMismatch
  deriving DecidableEq

/-- The message for a fault. -/
def HostFault.message : HostFault → String
  | .wrongKind expected actual => "expected a " ++ expected ++ " value, got " ++ actual
  | .typeMismatch expected actual =>
    "value of type " ++ actual ++ " does not match declared type " ++ expected
  | .badOffset record offset => "record " ++ record ++ " has no field at offset " ++ toString offset
  | .unknownField record field => "record " ++ record ++ " has no field '" ++ field ++ "'"
  | .fieldType record field expected actual =>
    "field '" ++ field ++ "' of record " ++ record ++ " expects " ++ expected ++ ", got " ++ actual
  | .requiredField record field =>
    "field '" ++ field ++ "' of record " ++ record ++ " is not optional"
  | .invalidKeyType type => "type " ++ type ++ " cannot be used as a table key"
  | .unknownVariant enumeration variant =>
    "enum " ++ enumeration ++ " has no variant '" ++ variant ++ "'"
  | .yieldMismatch => "sets take no yield value and tables require one"

end HostView
