import HostView.Script.Object

/-!
# Requests to define a property

A request names what it asks for and leaves the rest as it is, or as it is by default for a
property that is not there yet. A property that may not be redefined still allows some requests.
-/

namespace HostView.Script

/-- The values cannot be told apart, not even by the sign of a zero. -/
def Value.same (a b : Value) : Bool :=
  match a.number?, b.number? with
  | some x, some y => x.bits == y.bits || x.isNaN && y.isNaN
  | none, none => a = b
  | _, _ => false

/-- A request to define a property: what it does not say is left out. -/
structure Descriptor where
  value : Option Value
  get : Option Value
  set : Option Value
  writable : Option Bool
  enumerable : Option Bool
  configurable : Option Bool

namespace Descriptor

/-- An empty request. -/
def empty : Descriptor := ⟨none, none, none, none, none, none⟩

/-- The request for an ordinary property. -/
def ordinary (v : Value) : Descriptor := ⟨some v, none, none, some true, some true, some true⟩

/-- A getter or setter: a function or nothing. -/
def accessorPart (requested : Option Value) (present : Option ObjectId) : Option ObjectId :=
  match requested with
  | some v => v.object?
  | none => present

/-- The property that a request makes of one that is there, or of none. -/
def applyTo (d : Descriptor) (current : Option Property) : Property :=
  let enumerable := d.enumerable.getD ((current.map Property.enumerable).getD false)
  let configurable := d.configurable.getD ((current.map Property.configurable).getD false)
  if d.get.isSome || d.set.isSome then
    let (get, set) := match current with
      | some (.accessor get set _ _) => (get, set)
      | _ => (none, none)
    .accessor (accessorPart d.get get) (accessorPart d.set set) enumerable configurable
  else
    match current with
    | some (.accessor get set _ _) =>
      if d.value.isSome || d.writable.isSome then
        .data (d.value.getD .undefined) (d.writable.getD false) enumerable configurable
      else .accessor get set enumerable configurable
    | some (.data v writable _ _) =>
      .data (d.value.getD v) (d.writable.getD writable) enumerable configurable
    | none => .data (d.value.getD .undefined) (d.writable.getD false) enumerable configurable

end Descriptor

namespace Property

/-- What a property that may not be redefined is, apart from its value, allows a request: one that
changes nothing, or takes the right to write away. -/
def allowsForm (p : Property) (d : Descriptor) : Bool :=
  p.configurable ||
    (d.configurable != some true && d.enumerable.all (· == p.enumerable) &&
      match p with
      | .data _ writable _ _ =>
        d.get.isNone && d.set.isNone && (writable || d.writable != some true)
      | .accessor .. => d.value.isNone && d.writable.isNone)

/-- The value of a property, or its getter and setter, allow a request if they may not be
redefined. -/
def allowsContent (p : Property) (d : Descriptor) : Bool :=
  p.configurable ||
    match p with
    | .data v writable _ _ => writable || d.value.all (·.same v)
    | .accessor get set _ _ =>
      d.get.all (fun g => g.object? = get) && d.set.all fun s => s.object? = set

/-- A property allows a request. -/
def allows (p : Property) (d : Descriptor) : Bool := p.allowsForm d && p.allowsContent d

/-! ### What a proxy may say of the properties of its target -/

/-- A value may be read for the property: one that never changes has its own value, and one that
has no value and never gets a getter has none. -/
def canRead (p : Property) (v : Value) : Bool :=
  match p with
  | .data w false _ false => w.same v
  | .accessor _ _ _ false => v = .undefined
  | _ => true

/-- A value may be taken for written to the property. -/
def canWrite (p : Property) (v : Value) : Bool :=
  match p with
  | .data w false _ false => w.same v
  | .accessor _ _ _ false => v = .undefined
  | _ => true

/-- The property may be passed over, if the target takes new properties. -/
def canVanish (extensible : Bool) (p : Property) : Bool := p.configurable && extensible

/-- The property may be what a request for it has left behind. -/
def canFollow (p : Property) (d : Descriptor) : Bool :=
  p.allowsForm d && !(p.configurable && d.configurable = some false) &&
    (p.configurable ||
      match p with
      | .data v writable _ _ =>
        if writable then d.value.isNone && d.writable.isNone || d.writable = some true
        else d.value.all (·.same v)
      | .accessor get set _ _ =>
        d.get.all (fun g => g.object? = get) && d.set.all fun s => s.object? = set)

end Property

/-- A request describes a property that the target has, or that it lacks and may take. One that may
not be redefined must be there, and be no less fixed. -/
def Descriptor.canDescribe (d : Descriptor) (present : Option Property) (extensible : Bool) :
    Bool :=
  match present with
  | none => extensible && d.configurable = some true
  | some p =>
    p.allowsForm d &&
      (d.configurable = some true ||
        (!p.configurable &&
          match p with
          | .data _ true _ _ => d.writable = some true
          | _ => true))

end HostView.Script
