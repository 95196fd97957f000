/-!
# Tables as text

A table of numbers may be written as text: rows are divided by commas and the numbers of a row by
blanks, in base 36 with a minus sign below zero. The first number of a row tells how far its place
is from that of the row before.
-/

namespace HostView.Entries

/-- The value of a digit. -/
def digit (c : Char) : Nat :=
  if c ≤ '9' then c.toNat - '0'.toNat else c.toNat - 'a'.toNat + 10

/-- The number that some characters write. -/
def number : List Char → Int
  | '-' :: cs => -(magnitude cs : Int)
  | cs => magnitude cs
where
  magnitude (cs : List Char) : Nat := cs.foldl (fun n c => 36 * n + digit c) 0

/-- The parts of a text between separators; `part` is what was read of the current one, last first.
-/
def divide (separator : Char) (part : List Char) : List Char → List (List Char)
  | [] => [part.reverse]
  | c :: rest =>
    if c = separator then part.reverse :: divide separator [] rest
    else divide separator (c :: part) rest

/-- The places of rows, given the place of the row before, with the other numbers of the rows. -/
def placed (place : Int) : List (List Int) → List (Nat × List Int)
  | [] => []
  | [] :: rest => placed place rest
  | (step :: numbers) :: rest => ((place + step).toNat, numbers) :: placed (place + step) rest

/-- The rows of a table, with their places. -/
def rows (text : String) : List (Nat × List Int) :=
  placed 0 ((divide ',' [] text.toList).map fun row => (divide ' ' [] row).map number)

end HostView.Entries
