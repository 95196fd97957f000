import HostView.Proofs.Exposure.Assembling

/-! # Plain data among objects

Data as a script holds it: primitive values, and arrays and plain objects of data. Plain data of the
host that is built as a script value is the same data again, if the names of every object are
distinct and no prototype gets in the way of an assignment.
-/

namespace HostView

open Script in
/-- Data of a script: a primitive value, a list of items or a list of named members. -/
inductive Datum where
  | value (v : Value)
  | array (items : List Datum)
  | object (members : List (String × Datum))

namespace Plain

mutual

/-- Plain data as data of a script. -/
def datum : Plain → Datum
  | .null => .value .null
  | .bool b => .value (.bool b)
  | .int i => .value (.ofInt i)
  | .real x => .value (.ofReal x)
  | .text s => .value (.string s)
  | .array items => .array (itemData items)
  | .object members => .object (memberData members)

/-- Items of an array. -/
def itemData : List Plain → List Datum
  | [] => []
  | p :: rest => datum p :: itemData rest

/-- Members of an object. -/
def memberData : List (String × Plain) → List (String × Datum)
  | [] => []
  | (name, p) :: rest => (name, datum p) :: memberData rest

end

theorem itemData_eq (items : List Plain) : itemData items = items.map datum := by
  induction items with
  | nil => rfl
  | cons p items ih => rw [itemData, ih, List.map_cons]

theorem memberData_eq (members : List (String × Plain)) :
    memberData members = members.map fun member => (member.1, datum member.2) := by
  induction members with
  | nil => rfl
  | cons member members ih =>
      obtain ⟨name, p⟩ := member
      rw [memberData, ih, List.map_cons]

/-- Plain data that can be built: no array is too long, and the names of an object are distinct and
none of them sets the prototype. -/
inductive Buildable : Plain → Prop where
  | null : Buildable .null
  | bool {b : Bool} : Buildable (.bool b)
  | int {i : Int} : Buildable (.int i)
  | real {x : Binary64} : Buildable (.real x)
  | text {s : String} : Buildable (.text s)
  | array {items : List Plain} (hlength : items.length ≤ 2 ^ 32 - 1)
      (hitems : ∀ p ∈ items, Buildable p) : Buildable (.array items)
  | object {members : List (String × Plain)} (hdistinct : (members.map (·.1)).Nodup)
      (hnames : ∀ member ∈ members, member.1 ≠ "__proto__")
      (hmembers : ∀ member ∈ members, Buildable member.2) : Buildable (.object members)

theorem datum_of_scalar {p : Plain} {v : Script.Value} (hp : p.scalar? = some v) : p.datum = .value v := by
  cases p with
  | array | object => cases hp
  | _ =>
      cases hp
      rfl

theorem Buildable.assemblable {p : Plain} (hp : p.Buildable) : p.Assemblable False := by
  induction hp with
  | null | bool | int | real | text => exact .scalar rfl
  | array hlength _ ih => exact .array hlength ih
  | object _ hnames _ ih =>
      exact .object (fun member hmember hname => absurd hname (hnames member hmember)) ih

end Plain

namespace Script

variable {call : Caller} {m m' : Machine} {e e' : Engine} {low low' limit o : ObjectId} {v : Value}
  {d : Datum} {p : Plain}

/-! ### Denoting data -/

/-- A value of a script is the data, with objects from `low` on. -/
inductive Engine.Denotes (e : Engine) (low : ObjectId) : Value → Datum → Prop
  | value {v : Value} (hv : v.object? = none) : e.Denotes low v (.value v)
  | array {o : ObjectId} {items : List Value} {data : List Datum} (hlow : low ≤ o)
      (hlt : o < e.objects.size) (hobject : e.object o = .arrayWith items)
      (hlength : items.length = data.length)
      (hitems : ∀ (i : Nat) (v : Value) (d : Datum), items[i]? = some v → data[i]? = some d →
        e.Denotes low v d) : e.Denotes low (.object o) (.array data)
  | object {o : ObjectId} {members : List (String × Value)} {data : List (String × Datum)}
      (hlow : low ≤ o) (hlt : o < e.objects.size) (hobject : e.object o = .plainWith members)
      (hnames : members.map (·.1) = data.map (·.1))
      (hmembers : ∀ (i : Nat) (x : String × Value) (y : String × Datum), members[i]? = some x →
        data[i]? = some y → e.Denotes low x.2 y.2) : e.Denotes low (.object o) (.object data)

/-- A value goes on to be the data as long as its objects stay as they are. -/
theorem Engine.Denotes.mono (h : e.Denotes low v d) (hkeeps : e.Keeps (low ≤ ·) e')
    (hlow : low' ≤ low) : e'.Denotes low' v d := by
  have hsame {o : ObjectId} {x : Object} (ho : low ≤ o) (hlt : o < e.objects.size)
      (hx : e.object o = x) (hsettled : x.Settled) :
      low' ≤ o ∧ o < e'.objects.size ∧ e'.object o = x :=
    ⟨Nat.le_trans hlow ho, Nat.lt_of_lt_of_le hlt hkeeps.size_le,
      (hkeeps.object_eq o hlt ho (hx ▸ hsettled)).trans hx⟩
  induction h with
  | value hv => exact .value hv
  | array ho hlt hobject hlength _ ih =>
      obtain ⟨ho', hlt', hobject'⟩ := hsame ho hlt hobject nofun
      exact .array ho' hlt' hobject' hlength ih
  | object ho hlt hobject hnames _ ih =>
      obtain ⟨ho', hlt', hobject'⟩ := hsame ho hlt hobject nofun
      exact .object ho' hlt' hobject' hnames ih

/-- No object that is data is still to be made. -/
theorem Engine.Denotes.settled (h : e.Denotes low v d) : v.Settled e := by
  cases h with
  | value hv => exact .of_object? hv
  | array _ _ hobject | object _ _ hobject =>
      rintro _ ⟨⟩
      exact hobject ▸ nofun

/-! ### Building data -/

/-- What carries data that can be built is the data. -/
theorem Engine.Carries.denotes (h : e.Carries low v p) (hp : p.Buildable) : e.Denotes low v p.datum := by
  induction h with
  | scalar hscalar =>
      rw [Plain.datum_of_scalar hscalar]
      exact .value (Plain.object?_of_scalar hscalar)
  | @array low o values items hlow hlt hobject hlength _ ih =>
      cases hp with
      | array _ hitems =>
          rw [Plain.datum, Plain.itemData_eq]
          refine .array hlow hlt hobject (by simpa using hlength) fun i v d hv hd => ?_
          rw [List.getElem?_map] at hd
          obtain ⟨p, hp, rfl⟩ := Option.map_eq_some_iff.mp hd
          have hdenotes := ih i v p hv hp (hitems p (List.mem_of_getElem? hp))
          exact hdenotes.mono (.refl _) (Nat.le_trans hlow (Nat.le_succ o))
  | @object low o values members hlow hlt hobject hnames _ ih =>
      cases hp with
      | object hdistinct hordinary hmembers =>
          rw [Plain.datum, Plain.memberData_eq]
          -- the members of different names were assigned as they are
          have hplain : Object.assembled values = .plainWith values := by
            refine Object.assembled_eq_plainWith (hnames ▸ hdistinct) fun x hx => ?_
            have hname : x.1 ∈ members.map (·.1) := hnames ▸ List.mem_map_of_mem hx
            obtain ⟨member, hmember, heq⟩ := List.mem_map.mp hname
            exact heq ▸ hordinary member hmember
          refine .object hlow hlt (hobject.trans hplain) ?_ fun i x y hx hy => ?_
          · rw [hnames, List.map_map]
            rfl
          · rw [List.getElem?_map] at hy
            obtain ⟨z, hz, rfl⟩ := Option.map_eq_some_iff.mp hy
            have hdenotes := ih i x z hx hz (hmembers z (List.mem_of_getElem? hz))
            exact hdenotes.mono (.refl _) (Nat.le_trans hlow (Nat.le_succ o))

/-- The data is built, out of new objects. -/
def Builds (call : Caller) (m : Machine) (p : Plain) : Prop :=
  ∃ v e, Gives call m (build p) v ⟨e, m.toBridge⟩ ∧ m.toEngine.Keeps (fun _ => True) e ∧
    e.Denotes m.objects.size v p.datum

/-- Data that can be built is built. -/
theorem build_gives (hp : p.Buildable) (h : m.Clear limit) (hlimit : limit ≤ m.objects.size) :
    Builds call m p := by
  have hassembles : Assembles call m p := build_assembles hp.assemblable ⟨h, False.elim⟩ hlimit
  obtain ⟨v, e, hbuilt, hkeeps, hv⟩ := hassembles
  exact ⟨v, e, hbuilt, hkeeps, hv.denotes hp⟩

end Script

end HostView
