import HostView.Host.Atom

/-!
# Entries

The entries of a table, a finite map from atoms kept as a list sorted by key. Every operation is
one pass over the list; inserting at a key that is present replaces its entry.
-/

namespace HostView

/-- A finite map from atoms, sorted by key. -/
abbrev Entries (α : Type) := List (Atom × α)

namespace Entries

variable {α : Type}

/-- The entry at a key. -/
def find? (key : Atom) : Entries α → Option α
  | [] => none
  | (k, v) :: rest =>
    match key.compare k with
    | .lt => none
    | .eq => some v
    | .gt => find? key rest

/-- Puts an entry at a key. -/
def insert (key : Atom) (value : α) : Entries α → Entries α
  | [] => [(key, value)]
  | (k, v) :: rest =>
    match key.compare k with
    | .lt => (key, value) :: (k, v) :: rest
    | .eq => (key, value) :: rest
    | .gt => (k, v) :: insert key value rest

/-- Takes the entry at a key away. -/
def erase (key : Atom) : Entries α → Entries α
  | [] => []
  | (k, v) :: rest =>
    match key.compare k with
    | .lt => (k, v) :: rest
    | .eq => rest
    | .gt => (k, v) :: erase key rest

/-- Keys increase strictly. -/
def Sorted (entries : Entries α) : Prop :=
  entries.Pairwise fun a b => a.1.compare b.1 = .lt

end Entries

end HostView
