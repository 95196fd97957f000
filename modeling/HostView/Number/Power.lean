/-!
# Powers

Powers of natural numbers and of integers are repeated products. The instances stand here, so that
what a power means does not hang on what else is imported.
-/

namespace HostView

@[default_instance 20001]
instance natPower : Pow Nat Nat := ⟨Nat.pow⟩

@[default_instance 20000]
instance intPower : Pow Int Nat := ⟨Int.pow⟩

end HostView
