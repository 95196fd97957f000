import HostView.Host.Fault
import HostView.Text.Decimal

/-!
# Faults of conversion and of writes

A conversion that fails says what was expected and what was found, in the part of the value that
is at fault; the path to that part is wrapped around it from the inside out. A write through a
live value is refused for one of a few causes of its own, or because the conversion of what is
written failed.
-/

namespace HostView

/-- Why the script engine could not give a property or a text. -/
inductive EngineCause where
  /-- Reading a property threw. -/
  | exception
  /-- A string is no text from the given UTF-8 position on. -/
  | illFormed (index : Nat)
  deriving DecidableEq

/-- The message for an engine cause. -/
def EngineCause.message : EngineCause → String
  | .exception => "Exception generated by QuickJS"
  | .illFormed index =>
    "Conversion from string failed: invalid utf-8 sequence of 1 bytes from index " ++
      Decimal.ofNat index

/-- Why a script value could not be converted. -/
inductive ConversionFault where
  | mismatch (expected actual : String)
  | invalid (expected literal : String)
  | outOfRange (target value : String)
  | missingField (record field : String)
  | inField (field : String) (source : ConversionFault)
  | inKey (key : String) (source : ConversionFault)
  | inElement (index : Nat) (source : ConversionFault)
  | host (fault : HostFault)
  | engine (cause : EngineCause)
  deriving DecidableEq

/-- The message for a fault, with the path to it. -/
def ConversionFault.message : ConversionFault → String
  | .mismatch expected actual => "expected " ++ expected ++ ", got " ++ actual
  | .invalid expected literal => "expected " ++ expected ++ ", got '" ++ literal ++ "'"
  | .outOfRange target value => value ++ " is out of range for " ++ target
  | .missingField record field => "missing required field '" ++ field ++ "' for record " ++ record
  | .inField field source => "field '" ++ field ++ "': " ++ message source
  | .inKey key source => "key '" ++ key ++ "': " ++ message source
  | .inElement index source => "element " ++ Decimal.ofNat index ++ ": " ++ message source
  | .host fault => fault.message
  | .engine cause => "script engine error: " ++ cause.message

/-- The flags of a property that a descriptor may set. -/
inductive Flag where
  | configurable
  | writable
  | enumerable
  deriving DecidableEq

/-- The name of a flag. -/
def Flag.render : Flag → String
  | .configurable => "configurable"
  | .writable => "writable"
  | .enumerable => "enumerable"

/-- Why a write through a live value was refused. -/
inductive Refusal where
  /-- The wrap has given up its host value. -/
  | released
  | symbolKey
  /-- The record shows no field of the name. -/
  | noField (type name : String)
  /-- The name is no key of the table. -/
  | badKey (type : String) (fault : ConversionFault)
  /-- What is written does not convert. -/
  | value (fault : ConversionFault)
  /-- The host refused to store what is written. -/
  | host (fault : HostFault)
  /-- Membership of a set was given by something other than a truth value. -/
  | membership (got : String)
  | accessor
  /-- A flag was to be switched off. -/
  | flag (flag : Flag)
  | valueMissing
  /-- The value was to be frozen, sealed or closed to new properties. -/
  | closed
  deriving DecidableEq

/-- The message for a refusal. -/
def Refusal.message : Refusal → String
  | .released => "receiver is not a live host value"
  | .symbolKey => "symbol properties cannot be assigned on host values"
  | .noField type name => type ++ " has no field '" ++ name ++ "'"
  | .badKey type fault => "invalid key for " ++ type ++ ": " ++ fault.message
  | .value fault => fault.message
  | .host fault => fault.message
  | .membership got => "set membership must be a boolean, got " ++ got
  | .accessor => "accessor properties cannot be defined on host values"
  | .flag f => "host value properties cannot be made non-" ++ f.render
  | .valueMissing => "property definitions on host values need a value"
  | .closed => "host values cannot be frozen, sealed or made non-extensible"

end HostView
