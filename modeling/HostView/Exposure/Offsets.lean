import HostView.Host.Type

/-!
# The cache of field offsets

Looking up a field by name is served from a layout, which is made once for each record descriptor
and never for other types. A layout knows the first field of each hash of a name and the last
field of each name. An answer found by hash is checked against the declared name before it is
given, so a collision of hashes costs a second look-up and nothing else. Any function may serve as
the hash.
-/

namespace HostView

/-- The layout of a record: its field names in order, with offsets by hash and by name. -/
structure Layout where
  names : List String
  byHash : List (UInt64 × Nat)
  byName : List (String × Nat)

namespace Layout

/-- Enters the names from `offset` on: a hash keeps its first offset and a name its last. -/
def enter (hash : String → UInt64) (offset : Nat) : List String → Layout → Layout
  | [], layout => layout
  | name :: rest, layout =>
    let byHash :=
      if (layout.byHash.lookup (hash name)).isSome then layout.byHash
      else layout.byHash ++ [(hash name, offset)]
    enter hash (offset + 1) rest { layout with byHash, byName := (name, offset) :: layout.byName }

/-- The layout of a record with the given field names. -/
def ofNames (hash : String → UInt64) (names : List String) : Layout :=
  enter hash 0 names ⟨names, [], []⟩

/-- The offset of a field. -/
def offset? (hash : String → UInt64) (layout : Layout) (name : String) : Option Nat :=
  match layout.byHash.lookup (hash name) with
  | some offset =>
    if layout.names[offset]? = some name then some offset else layout.byName.lookup name
  | none => layout.byName.lookup name

end Layout

/-- The layouts made so far, by descriptor. -/
structure OffsetCache where
  layouts : List (Nat × Layout)

namespace OffsetCache

/-- No layouts. -/
def empty : OffsetCache := ⟨[]⟩

/-- The number of layouts. -/
def size (cache : OffsetCache) : Nat := cache.layouts.length

/-- The offset of a field of a record type, and the cache with the layout of that type. -/
def lookup (hash : String → UInt64) (cache : OffsetCache) (type : HostType) (name : String) :
    Option Nat × OffsetCache :=
  match type with
  | .record descriptor _ fields =>
    match cache.layouts.lookup descriptor with
    | some layout => (layout.offset? hash name, cache)
    | none =>
      let layout := Layout.ofNames hash (fields.map (·.name))
      (layout.offset? hash name, ⟨(descriptor, layout) :: cache.layouts⟩)
  | _ => (none, cache)

end OffsetCache

/-- The hash of names that is in use: the FNV-1a sum of the characters. -/
def nameHash (name : String) : UInt64 :=
  name.toList.foldl (fun h c => (h ^^^ c.toNat.toUInt64) * 0x100000001B3) 0xCBF29CE484222325

end HostView
