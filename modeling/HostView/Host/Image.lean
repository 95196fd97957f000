import HostView.Host.Heap
import HostView.Number.Notation

/-!
# Images of host values

The image of a value is what it reads as at one moment: a tree in which every reference has been
followed. Each part is read at the type of its own value. The text of a value and structural
equality are functions of images.
-/

namespace HostView

/-- A part of a record image: the field's name and attributes, and what its slot holds. -/
structure Part (ι : Type) where
  name : String
  attributes : Attributes
  content : Option ι

/-- A host value with its references followed. -/
inductive Image where
  | atom (type : AtomType) (a : Atom)
  | real (kind : RealKind) (x : Binary64)
  | record (type : HostType) (parts : List (Part Image))
  /-- The entries of a table or set in the order of their keys. -/
  | table (key : AtomType) (yield : Option HostType) (entries : List (Atom × Option Image))
  | vector (element : HostType) (items : List (Option Image))
  /-- Content that does not fit its type, or lies too deep; well-typed heaps have none. -/
  | invalid

namespace Image

/-- The image of the value at a reference, with references followed so many steps. -/
def read (h : Heap) : Nat → Ref → Image
  | 0, _ => .invalid
  | n + 1, r =>
    match h.cell r with
    | ⟨.atom τ, .atom a⟩ => .atom τ a
    | ⟨.real k, .real _ x⟩ => .real k x
    | ⟨.record d name fields, .record slots⟩ =>
      .record (.record d name fields) ((fields.zip slots).map fun (f, slot) =>
        ⟨f.name, f.attributes, slot.map (read h n)⟩)
    | ⟨.table key yield, .table entries⟩ =>
      .table key yield (entries.map fun (a, e) => (a, e.yield.map (read h n)))
    | ⟨.vector element, .vector items⟩ =>
      .vector element (items.map fun item => item.map (read h n))
    | _ => .invalid

/-- The image of a value. -/
def of (h : Heap) (r : Ref) : Image := read h (h.reach r) r

mutual

/-- The text of a value, with a word for its invalid parts. -/
def renderOr (word : String) : Image → String
  | .atom τ a => a.renderOr word τ
  | .real _ x => Notation.host.render x
  | .record _ parts => "[" ++ ", ".intercalate (renderParts word parts) ++ "]"
  | .table key _ entries =>
    "\x7b" ++ ", ".intercalate (renderEntries word key entries) ++ "\x7d"
  | .vector _ items => "[" ++ ", ".intercalate (renderItems word items) ++ "]"
  | .invalid => word

/-- The text of each part of a record. -/
def renderParts (word : String) : List (Part Image) → List String
  | [] => []
  | ⟨name, _, content⟩ :: parts =>
    (name ++ "=" ++ renderSlot word content) :: renderParts word parts

/-- The text of each entry of a table. -/
def renderEntries (word : String) (key : AtomType) : List (Atom × Option Image) → List String
  | [] => []
  | (a, none) :: entries => a.renderOr word key :: renderEntries word key entries
  | (a, some v) :: entries =>
    (a.renderOr word key ++ " -> " ++ renderOr word v) :: renderEntries word key entries

/-- The text of each item of a vector. -/
def renderItems (word : String) : List (Option Image) → List String
  | [] => []
  | item :: items => renderSlot word item :: renderItems word items

/-- The text of a slot. -/
def renderSlot (word : String) : Option Image → String
  | some v => renderOr word v
  | none => "<uninitialized>"

end

mutual

/-- Structural equality of images: equal parts of the same types. Doubles are compared as numbers.
-/
def equal : Image → Image → Bool
  | .atom τ a, .atom σ b => τ = σ && a = b
  | .real k x, .real l y => k = l && x.eq y
  | .record τ ps, .record σ qs => τ.same σ && equalParts ps qs
  | .table k y es, .table l z fs => HostType.same (.table k y) (.table l z) && equalEntries es fs
  | .vector τ xs, .vector σ ys => τ.same σ && equalItems xs ys
  | .invalid, .invalid => true
  | _, _ => false

/-- Parts of two records agree one by one. -/
def equalParts : List (Part Image) → List (Part Image) → Bool
  | [], [] => true
  | ⟨_, _, a⟩ :: ps, ⟨_, _, b⟩ :: qs => equalSlot a b && equalParts ps qs
  | _, _ => false

/-- Two tables have the same keys, with equal yields. -/
def equalEntries : List (Atom × Option Image) → List (Atom × Option Image) → Bool
  | [], [] => true
  | (a, x) :: es, (b, y) :: fs => a = b && equalSlot x y && equalEntries es fs
  | _, _ => false

/-- Items of two vectors agree one by one. -/
def equalItems : List (Option Image) → List (Option Image) → Bool
  | [], [] => true
  | x :: xs, y :: ys => equalSlot x y && equalItems xs ys
  | _, _ => false

/-- Both slots are unset, or hold equal values. -/
def equalSlot : Option Image → Option Image → Bool
  | none, none => true
  | some a, some b => equal a b
  | _, _ => false

end

end Image

namespace Heap

/-- The text of a value. -/
def render (h : Heap) (r : Ref) : String :=
  (Image.of h r).renderOr Atom.invalidWord

/-- Two values have the same type and equal contents. -/
def equal (h : Heap) (a b : Ref) : Bool :=
  (Image.of h a).equal (Image.of h b)

end Heap

end HostView
