/-!
# Faults of network literals

What can be wrong with the text of a port or a subnet, and the message for each fault.
-/

namespace HostView

/-- Why a text is no port, protocol or subnet. -/
inductive LiteralFault where
  | port (text : String)
  | protocol (text : String)
  | subnet (text : String)
  /-- A subnet longer than the addresses of its family. -/
  | tooLong (length limit : Nat)
  deriving DecidableEq

/-- The message for a fault. -/
def LiteralFault.message : LiteralFault → String
  | .port text => "invalid port '" ++ text ++ "'"
  | .protocol text => "unknown transport protocol '" ++ text ++ "'"
  | .subnet text => "invalid subnet '" ++ text ++ "'"
  | .tooLong length limit =>
    "prefix length " ++ toString length ++ " exceeds " ++ toString limit ++ " bits"

/-- The parts of a text before and after its first slash. -/
def splitSlash? (s : String) : Option (String × String) :=
  let cs := s.toList
  match cs.dropWhile (· ≠ '/') with
  | [] => none
  | _ :: rest => some (String.ofList (cs.takeWhile (· ≠ '/')), String.ofList rest)

end HostView
