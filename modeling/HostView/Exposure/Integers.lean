/-!
# The cache of script integers

Counts cross to scripts as big integers. Those below 65536 are made once and handed out again; the
slot of a number is its low sixteen bits, which below that bound is the number itself. A big
integer is a value with a serial number that tells one made earlier from one made later.
-/

namespace HostView

/-- A big integer as it was handed out. -/
structure BigInteger where
  serial : Nat
  value : Int
  deriving DecidableEq

/-- The numbers from here on are not kept. -/
def integerCacheRange : Nat := 65536

/-- The integers made so far, by slot, and the next serial number. -/
structure IntegerCache where
  slots : List (UInt16 × BigInteger)
  next : Nat

namespace IntegerCache

/-- No integers. -/
def empty : IntegerCache := ⟨[], 0⟩

/-- The number of integers kept. -/
def size (cache : IntegerCache) : Nat := cache.slots.length

/-- The big integer of a count. -/
def get (cache : IntegerCache) (n : UInt64) : BigInteger × IntegerCache :=
  let fresh : BigInteger := ⟨cache.next, n.toNat⟩
  if integerCacheRange ≤ n.toNat then (fresh, { cache with next := cache.next + 1 })
  else
    match cache.slots.lookup n.toUInt16 with
    | some kept => (kept, cache)
    | none => (fresh, ⟨(n.toUInt16, fresh) :: cache.slots, cache.next + 1⟩)

end IntegerCache

end HostView
