import HostView.Exposure.Snapshot
import HostView.Proofs.Exposure.Representation
import HostView.Proofs.Script.Heirs

/-! # Plain data assembled

Plain data of the host is built as a script value by assignments to new objects: the items of an
array and the members of an object, one after the other. What comes of that is known for any names
of members, as long as no prototype that was there before gets in the way. A member of the name that
sets the prototype gives the object another one, which is new, too.
-/

namespace HostView

namespace Plain

open Script in
/-- The value that data without parts is built as. -/
def scalar? : Plain → Option Value
  | .null => some .null
  | .bool b => some (.bool b)
  | .int i => some (.ofInt i)
  | .real x => some (.ofReal x)
  | .text s => some (.string s)
  | .array _ | .object _ => none

theorem object?_of_scalar {p : Plain} {v : Script.Value} (hp : p.scalar? = some v) :
    v.object? = none := by
  cases p with
  | int i =>
      cases hp
      exact Script.object?_ofInt i
  | real x =>
      cases hp
      exact Script.object?_ofReal x
  | array | object => cases hp
  | _ =>
      cases hp
      rfl

theorem eq_null_of_scalar {p : Plain} (hp : p.scalar? = some .null) : p = .null := by
  cases p with
  | null => rfl
  | int i =>
      have hvalue := Option.some.inj hp
      unfold Script.Value.ofInt at hvalue
      split at hvalue <;> cases hvalue
  | real x =>
      have hvalue := Option.some.inj hp
      unfold Script.Value.ofReal at hvalue
      split at hvalue
      · split at hvalue <;> cases hvalue
      · cases hvalue
  | _ => cases hp

/-- Data that can be assembled: no array is too long, and a member that sets a prototype does not
take it away. There are such members only if objects are to inherit from data. -/
inductive Assemblable (inherits : Prop) : Plain → Prop
  | scalar {p : Plain} {v : Script.Value} (hp : p.scalar? = some v) : Assemblable inherits p
  | array {items : List Plain} (hlength : items.length ≤ 2 ^ 32 - 1)
      (hitems : ∀ p ∈ items, Assemblable inherits p) : Assemblable inherits (.array items)
  | object {members : List (String × Plain)}
      (hproto : ∀ member ∈ members, member.1 = "__proto__" → inherits ∧ member.2 ≠ .null)
      (hmembers : ∀ member ∈ members, Assemblable inherits member.2) :
      Assemblable inherits (.object members)

end Plain

namespace Script

variable {call : Caller} {m : Machine} {e e' : Engine} {low low' limit o q : ObjectId} {v : Value}
  {name : String} {p : Plain} {proto : Option ObjectId} {inherits : Prop}

/-! ### Prototypes that let data be built -/

/-- Nothing on the prototypes gets in the way when an object is given members or an array items by
assignment, except for the name that sets the prototype. -/
structure Engine.Clear (e : Engine) (limit : Nat) : Prop where
  members : ∀ name, name ≠ "__proto__" →
    e.Passes limit (.name name) Property.Open limit (some Intrinsic.object)
  items : ∀ i, e.Passes limit (.item i) Property.Open limit (some Intrinsic.array)

theorem Engine.Clear.keeps (h : e.Clear limit) (hkeeps : e.Keeps (· < limit) e')
    (hlimit : limit ≤ e.objects.size) : e'.Clear limit :=
  ⟨fun name hname => (h.members name hname).keeps hkeeps hlimit,
    fun i => (h.items i).keeps hkeeps hlimit⟩

/-- Objects may be given other prototypes: the setter for that is in its place, and nothing on the
prototype of arrays gets in the way of objects that inherit from arrays. -/
structure Engine.Heritable (e : Engine) (limit : Nat) : Prop where
  members : ∀ name, name ≠ "__proto__" →
    e.Passes limit (.name name) Property.Open limit (some Intrinsic.array)
  object : Intrinsic.object < limit ∧ (e.object Intrinsic.object).Settled ∧
    (e.object Intrinsic.object).isProxy = false
  array : Intrinsic.array < limit ∧ (e.object Intrinsic.array).Settled ∧
    (e.object Intrinsic.array).isProxy = false ∧
    (e.object Intrinsic.array).own? (.name "__proto__") = none ∧
    (e.object Intrinsic.array).proto = some Intrinsic.object
  setter : ∃ setter getter enumerable configurable constructs, setter < limit ∧
    (e.object Intrinsic.object).own? (.name "__proto__") =
      some (.accessor getter (some setter) enumerable configurable) ∧
    (e.object setter).kind = .function (.builtin (.object .replaceProto)) constructs

theorem Engine.Heritable.keeps (h : e.Heritable limit) (hkeeps : e.Keeps (· < limit) e')
    (hlimit : limit ≤ e.objects.size) : e'.Heritable limit := by
  obtain ⟨hobject, hsettled, hproxy⟩ := h.object
  obtain ⟨harray, hsettled', hproxy', hown', hproto⟩ := h.array
  have hsame := hkeeps.object_eq _ (Nat.lt_of_lt_of_le hobject hlimit) hobject hsettled
  have hsame' := hkeeps.object_eq _ (Nat.lt_of_lt_of_le harray hlimit) harray hsettled'
  obtain ⟨s, g, en, c, constructs, hs, hown, hkind⟩ := h.setter
  have hsetter := hkeeps.object_eq s (Nat.lt_of_lt_of_le hs hlimit) hs (by
    intro owner
    rw [hkind]
    nofun)
  refine ⟨fun name hname => (h.members name hname).keeps hkeeps hlimit,
    hsame.symm ▸ ⟨hobject, hsettled, hproxy⟩,
    hsame'.symm ▸ ⟨harray, hsettled', hproxy', hown', hproto⟩, ?_⟩
  exact ⟨s, g, en, c, constructs, hs, hsame ▸ hown, hsetter ▸ hkind⟩

/-- Data can be built, also with objects that inherit from others if that is asked for. -/
structure Engine.Permits (e : Engine) (call : Caller) (inherits : Prop) (limit : Nat) : Prop where
  clear : e.Clear limit
  heritable : inherits → e.Heritable limit ∧ ∃ n, call = invoke (n + 1)

theorem Engine.Permits.keeps (h : e.Permits call inherits limit) (hkeeps : e.Keeps (· < limit) e')
    (hlimit : limit ≤ e.objects.size) : e'.Permits call inherits limit :=
  ⟨h.clear.keeps hkeeps hlimit, fun hinherits =>
    (h.heritable hinherits).imp_left fun hheritable => hheritable.keeps hkeeps hlimit⟩

/-! ### New objects as prototypes -/

/-- The prototypes from one on came after the object, one after the other, and the last of them
inherits as plain objects or arrays do. -/
inductive Engine.Descends (e : Engine) (inherits : Prop) : ObjectId → Option ObjectId → Prop
  | object {o : ObjectId} : e.Descends inherits o (some Intrinsic.object)
  | array {o : ObjectId} (h : inherits) : e.Descends inherits o (some Intrinsic.array)
  | heir {o p : ObjectId} (h : inherits) (hnew : o < p) (hlt : p < e.objects.size)
      (hlenient : (e.object p).Lenient) (hrest : e.Descends inherits p (e.object p).proto) :
      e.Descends inherits o (some p)

namespace Engine.Descends

theorem keeps (h : e.Descends inherits o proto) (hkeeps : e.Keeps (o < ·) e') :
    e'.Descends inherits o proto := by
  induction h with
  | object => exact .object
  | array hinherits => exact .array hinherits
  | heir hinherits hnew hlt hlenient _ ih =>
      have heq := hkeeps.object_eq _ hlt hnew hlenient.settled
      have hrest := ih (hkeeps.mono fun _ _ hx => Nat.lt_trans hnew hx)
      rw [← heq] at hlenient hrest
      exact .heir hinherits hnew (Nat.lt_of_lt_of_le hlt hkeeps.size_le) hlenient hrest

variable (hlimit : limit ≤ o) (hlt : o < e.objects.size)

include hlimit hlt

/-- What holds at the end of such prototypes and is kept from one to the one before it holds of all of
them. There are not more than objects, as each came after the one before it. -/
theorem counted {P : Nat → Option ObjectId → Prop} (h : e.Descends inherits o proto)
    (hobject : ∃ n ≤ limit, P n (some Intrinsic.object))
    (harray : inherits → ∃ n ≤ limit, P n (some Intrinsic.array))
    (hheir : ∀ n p, p ≠ o → p < e.objects.size → (e.object p).Lenient → P n (e.object p).proto →
      P (n + 1) (some p)) :
    ∃ n ≤ e.objects.size, P n proto := by
  -- the induction goes along the prototypes, for the one object before all of them
  suffices hpast : ∀ {q proto}, e.Descends inherits q proto → o ≤ q → q < e.objects.size →
      ∃ n, n + q < limit + e.objects.size ∧ P n proto by
    obtain ⟨n, hn, hP⟩ := hpast h (Nat.le_refl o) hlt
    have hle : limit + e.objects.size ≤ e.objects.size + o := by
      rw [Nat.add_comm]
      exact Nat.add_le_add_left hlimit _
    exact ⟨n, Nat.le_of_lt (Nat.lt_of_add_lt_add_right (Nat.lt_of_lt_of_le hn hle)), hP⟩
  intro q proto hq
  induction hq with
  | object =>
      intro _ hlt'
      obtain ⟨n, hn, hP⟩ := hobject
      exact ⟨n, Nat.add_lt_add_of_le_of_lt hn hlt', hP⟩
  | array hinherits =>
      intro _ hlt'
      obtain ⟨n, hn, hP⟩ := harray hinherits
      exact ⟨n, Nat.add_lt_add_of_le_of_lt hn hlt', hP⟩
  | @heir q p _ hnew hlt' hlenient _ ih =>
      intro hle _
      have hafter : o < p := Nat.lt_of_le_of_lt hle hnew
      obtain ⟨n, hn, hP⟩ := ih (Nat.le_of_lt hafter) hlt'
      refine ⟨n + 1, ?_, hheir n p (Nat.ne_of_gt hafter) hlt' hlenient hP⟩
      calc
        n + 1 + q = n + q + 1 := Nat.add_right_comm n 1 q
        _ ≤ n + p := Nat.add_lt_add_left hnew n
        _ < limit + e.objects.size := hn

/-- Assignments to members go past such prototypes. -/
theorem letsBy (h : e.Descends inherits o proto) (hp : e.Permits call inherits limit)
    (hname : name ≠ "__proto__") : ∃ n ≤ e.objects.size, e.LetsBy o (.name name) n proto := by
  have hsize : limit ≤ e.objects.size := Nat.le_trans hlimit (Nat.le_of_lt hlt)
  refine h.counted hlimit hlt ⟨limit, Nat.le_refl _, ?_⟩ (fun hinherits => ?_) ?_
  · exact (hp.clear.members name hname).letsBy hlimit hsize
  · obtain ⟨hheritable, -⟩ := hp.heritable hinherits
    exact ⟨limit, Nat.le_refl _, (hheritable.members name hname).letsBy hlimit hsize⟩
  · intro n p hne hlt' hlenient hrest
    exact .some hne hlt' hlenient.settled hlenient.proxy (hlenient.opens _) hrest

/-- The setter of prototypes is reached along such prototypes. -/
theorem reaches {setter : ObjectId} {getter : Option ObjectId} {enumerable configurable : Bool}
    (h : e.Descends inherits o proto) (hheritable : e.Heritable limit)
    (hown : (e.object Intrinsic.object).own? (.name "__proto__") =
      some (.accessor getter (some setter) enumerable configurable)) :
    ∃ n ≤ e.objects.size, e.Reaches o (.name "__proto__") setter n proto := by
  obtain ⟨hobject, -, hproxy⟩ := hheritable.object
  obtain ⟨harray, -, hproxy', hown', hproto⟩ := hheritable.array
  have hold {p : ObjectId} (hp : p < limit) : p ≠ o := Nat.ne_of_lt (Nat.lt_of_lt_of_le hp hlimit)
  have hhere : e.Reaches o (.name "__proto__") setter 1 (some Intrinsic.object) :=
    .here (hold hobject) hproxy hown
  refine h.counted hlimit hlt ⟨1, hobject, hhere⟩ (fun _ => ⟨2, Nat.le_of_lt harray, ?_⟩) ?_
  · exact .past (hold harray) hproxy' hown' (hproto ▸ hhere)
  · intro n p hne _ hlenient hrest
    exact .past hne hlenient.proxy hlenient.unnamed hrest

end Engine.Descends

/-! ### Carrying data -/

/-- A value of a script was built of the data, with objects from `low` on: an array of what the items
were built as, and the object to which what the members were built as has been assigned. -/
inductive Engine.Carries (e : Engine) : ObjectId → Value → Plain → Prop
  | scalar {low : ObjectId} {v : Value} {p : Plain} (hp : p.scalar? = some v) : e.Carries low v p
  | array {low o : ObjectId} {values : List Value} {items : List Plain} (hlow : low ≤ o)
      (hlt : o < e.objects.size) (hobject : e.object o = .arrayWith values)
      (hlength : values.length = items.length)
      (hitems : ∀ (i : Nat) (v : Value) (p : Plain), values[i]? = some v → items[i]? = some p →
        e.Carries (o + 1) v p) : e.Carries low (.object o) (.array items)
  | object {low o : ObjectId} {values : List (String × Value)} {members : List (String × Plain)}
      (hlow : low ≤ o) (hlt : o < e.objects.size) (hobject : e.object o = .assembled values)
      (hnames : values.map (·.1) = members.map (·.1))
      (hmembers : ∀ (i : Nat) (x : String × Value) (y : String × Plain), values[i]? = some x →
        members[i]? = some y → e.Carries (o + 1) x.2 y.2) :
      e.Carries low (.object o) (.object members)

namespace Engine.Carries

/-- A value goes on to carry the data as long as its objects stay as they are. -/
theorem mono (h : e.Carries low v p) (hkeeps : e.Keeps (low ≤ ·) e') (hlow : low' ≤ low) :
    e'.Carries low' v p := by
  induction h generalizing low' with
  | scalar hp => exact .scalar hp
  | @array low o _ _ ho hlt hobject hlength _ ih =>
      have hsame := hkeeps.object_eq o hlt ho
        (hobject ▸ (Object.arrayWith_takes _).settled)
      have hinner := hkeeps.mono fun x _ hx => Nat.le_trans ho (Nat.le_of_succ_le hx)
      exact .array (Nat.le_trans hlow ho) (Nat.lt_of_lt_of_le hlt hkeeps.size_le)
        (hsame.trans hobject) hlength fun i v p hv hp => ih i v p hv hp hinner (Nat.le_refl _)
  | @object low o _ _ ho hlt hobject hnames _ ih =>
      have hsame := hkeeps.object_eq o hlt ho
        (hobject ▸ (Object.ofData_assembled _).settled)
      have hinner := hkeeps.mono fun x _ hx => Nat.le_trans ho (Nat.le_of_succ_le hx)
      exact .object (Nat.le_trans hlow ho) (Nat.lt_of_lt_of_le hlt hkeeps.size_le)
        (hsame.trans hobject) hnames fun i x y hx hy => ih i x y hx hy hinner (Nat.le_refl _)

/-- An object that carries data may become the prototype of one that was there before. -/
theorem descends (h : e.Carries low v p) (hinherits : inherits) (hv : v = .object o)
    (hq : q < low) : e.Descends inherits q (some o) := by
  induction h generalizing o q with
  | scalar hp =>
      subst hv
      cases Plain.object?_of_scalar hp
  | array hlow hlt hobject =>
      cases hv
      refine .heir hinherits (Nat.lt_of_lt_of_le hq hlow) hlt ?_ ?_
      · rw [hobject]
        exact Object.lenient_arrayWith _
      · rw [hobject]
        exact .array hinherits
  | @object low o' values members hlow hlt hobject hnames _ ih =>
      cases hv
      refine .heir hinherits (Nat.lt_of_lt_of_le hq hlow) hlt ?_ ?_
      · rw [hobject]
        exact (Object.ofData_assembled _).lenient
      · rw [hobject]
        rcases Object.assembled_proto values with hproto | ⟨proto, hmem, hproto⟩
        · rw [hproto]
          exact .object
        · -- the prototype was assigned, so it was built after the object
          obtain ⟨i, hi⟩ := List.mem_iff_getElem?.mp hmem
          obtain ⟨y, hy, -⟩ : ∃ y, members[i]? = some y ∧ y.1 = "__proto__" := by
            have hname : (members.map (·.1))[i]? = some "__proto__" := by
              rw [← hnames, List.getElem?_map, hi]
              rfl
            simpa using hname
          rw [hproto]
          exact ih i _ y hi hy rfl (Nat.lt_succ_self _)

end Engine.Carries

/-! ### Building -/

/-- The data is built, out of new objects. -/
def Assembles (call : Caller) (m : Machine) (p : Plain) : Prop :=
  ∃ v e, Gives call m (build p) v ⟨e, m.toBridge⟩ ∧ m.toEngine.Keeps (fun _ => True) e ∧
    e.Carries m.objects.size v p

/-- The items are built and added to an array one after the other. What was added before goes on to
carry the data before, since only the array changes. -/
theorem buildItems_carries {values : List Value} {rest : List Plain}
    (h : m.Permits call inherits limit) (hlimit : limit ≤ o) (ho : o < m.objects.size)
    (hobject : m.object o = .arrayWith values)
    (hlength : values.length + rest.length ≤ 2 ^ 32 - 1)
    (hbuild : ∀ p ∈ rest, ∀ m', m'.Permits call inherits limit → limit ≤ m'.objects.size →
      Assembles call m' p) :
    ∃ added e, Gives call m (buildItems o values.length rest) () ⟨e, m.toBridge⟩ ∧
      m.toEngine.Keeps (· ≠ o) e ∧ e.object o = .arrayWith (values ++ added) ∧
      added.length = rest.length ∧
      ∀ (i : Nat) (v : Value) (p : Plain), added[i]? = some v → rest[i]? = some p →
        e.Carries (o + 1) v p := by
  induction rest generalizing m values with
  | nil =>
      refine ⟨[], m.toEngine, .pure, .refl _, ?_, rfl, fun i v p hv => by cases hv⟩
      rw [List.append_nil, hobject]
  -- an item is built and assigned; the prototypes are below the array and stay
  | cons p rest ih =>
      rw [List.length_cons] at hlength
      have hsize : limit ≤ m.objects.size := Nat.le_of_lt (Nat.lt_of_le_of_lt hlimit ho)
      obtain ⟨v, e₁, hbuilt, hkeeps₁, hv⟩ := hbuild p List.mem_cons_self m h hsize
      have hpermits₁ := h.keeps (hkeeps₁.mono fun _ _ _ => trivial) hsize
      obtain ⟨e₂, hset, hkeeps₂, hkeeps, hobject₂⟩ := setItem_runs (v := v) hkeeps₁ ho hobject (by omega) (hpermits₁.clear.items values.length) hlimit
      have hnext : (values ++ [v]).length = values.length + 1 := by simp
      obtain ⟨added, e₃, hrest, hkeeps₃, hobject₃, hcount, hadded⟩ := ih (m := ⟨e₂, m.toBridge⟩)
        (h.keeps (hkeeps.mono fun x _ hx => ne_of_limit_le hlimit x hx) hsize)
        (Nat.lt_of_lt_of_le ho hkeeps.size_le) hobject₂ (by omega)
        fun q hq => hbuild q (List.mem_cons_of_mem p hq)
      refine ⟨v :: added, e₃, ?_, hkeeps.trans hkeeps₃, ?_, by simp [hcount], ?_⟩
      · rw [hnext] at hrest
        rw [buildItems]
        exact .bind hbuilt (.bind (hset call m.toBridge) hrest)
      · rw [hobject₃, List.append_assoc, List.singleton_append]
      · intro i w q hw hq
        cases i with
        | zero =>
            cases hw
            cases hq
            refine hv.mono ((hkeeps₂.trans hkeeps₃).mono fun x _ hx heq => ?_) ho
            exact absurd ho (Nat.not_lt.mpr (heq ▸ hx))
        | succ i => exact hadded i w q hw hq

/-- A value that was built is assigned to an object that is being assembled. It is a new prototype, a
new member, or takes the place of one. -/
theorem assignBuilt_gives (h : m.Permits call inherits limit) (hlimit : limit ≤ o)
    (ho : o < m.objects.size) (hx : (m.object o).OfData)
    (hdescends : m.Descends inherits o (m.object o).proto) (hv : m.Carries (o + 1) v p)
    (hproto : name = "__proto__" → inherits ∧ p ≠ .null) :
    ∃ e, Gives call m (setProperty o (.name name) v) () ⟨e, m.toBridge⟩ ∧
      m.toEngine.Keeps (· ≠ o) e ∧ e.object o = (m.object o).assigned (name, v) ∧
      e.Descends inherits o (e.object o).proto := by
  by_cases hname : name = "__proto__"
  · subst hname
    obtain ⟨hinherits, hnull⟩ := hproto rfl
    obtain ⟨hheritable, n, rfl⟩ := h.heritable hinherits
    obtain ⟨setter, getter, en, c, constructs, -, hown, hkind⟩ := hheritable.setter
    obtain ⟨k, hk, hreaches⟩ := hdescends.reaches hlimit ho hheritable hown
    -- whatever the setter does is what the assignment does
    have hset {m' : Machine} (hcall : Gives (invoke (n + 1)) m
        (callSetter (.object o) (some setter) v) .made m') :
        Gives (invoke (n + 1)) m (setProperty o (.name "__proto__") v) () m' :=
      setProperty_reaches hx.isProxy hx.lenient.unnamed hreaches hk hcall
    cases hobject : v.object? with
    | none =>
        have hignored : (m.object o).assigned ("__proto__", v) = m.object o := by
          cases v with
          | object => cases hobject
          | _ => rfl
        refine ⟨m.toEngine, hset (callSetter_replaceProto hkind ?_), .refl _, hignored.symm,
          hdescends⟩
        cases v with
        | object => cases hobject
        | null =>
            cases hv with
            | scalar hp => exact hnull (Plain.eq_null_of_scalar hp)
        | _ => rfl
    | some proto =>
        obtain rfl : v = .object proto := by
          cases v with
          | object => exact congrArg Value.object (Option.some.inj hobject)
          | _ => cases hobject
        have hheir : m.Descends inherits o (some proto) :=
          hv.descends hinherits rfl (Nat.lt_succ_self o)
        have hother : "" ≠ "__proto__" := by decide
        obtain ⟨k', -, hletsBy⟩ := hheir.letsBy hlimit ho h hother
        have hnew : o ≠ Intrinsic.object :=
          Nat.ne_of_gt (Nat.lt_of_lt_of_le hheritable.object.1 hlimit)
        obtain ⟨e, hreplace, hkeeps, hobject'⟩ :=
          replaceProto_gives (invoke n) ho hx hnew hletsBy
        refine ⟨e, hset (callSetter_replaceProto hkind hreplace), hkeeps, hobject', ?_⟩
        rw [hobject']
        exact hheir.keeps (hkeeps.mono fun _ _ hx => Nat.ne_of_gt hx)
  · obtain ⟨n, hn, hletsBy⟩ := hdescends.letsBy hlimit ho h hname
    obtain ⟨e, hset, hkeeps, hobject⟩ := assignMember_gives (v := v) call ho hx hname hletsBy hn
    refine ⟨e, hset, hkeeps, hobject, ?_⟩
    have hsame : (e.object o).proto = (m.object o).proto := by
      rw [hobject, Object.assigned, if_neg hname, Object.put_proto]
    rw [hsame]
    exact hdescends.keeps (hkeeps.mono fun _ _ hx => Nat.ne_of_gt hx)

/-- The members are built and assigned to an object one after the other. -/
theorem buildMembers_carries {values : List (String × Value)} {rest : List (String × Plain)}
    (h : m.Permits call inherits limit) (hlimit : limit ≤ o) (ho : o < m.objects.size)
    (hobject : m.object o = .assembled values)
    (hdescends : m.Descends inherits o (m.object o).proto)
    (hproto : ∀ member ∈ rest, member.1 = "__proto__" → inherits ∧ member.2 ≠ .null)
    (hbuild : ∀ member ∈ rest, ∀ m', m'.Permits call inherits limit → limit ≤ m'.objects.size →
      Assembles call m' member.2) :
    ∃ added e, Gives call m (buildMembers o rest) () ⟨e, m.toBridge⟩ ∧
      m.toEngine.Keeps (· ≠ o) e ∧ e.object o = .assembled (values ++ added) ∧
      added.map (·.1) = rest.map (·.1) ∧
      ∀ (i : Nat) (x : String × Value) (y : String × Plain), added[i]? = some x →
        rest[i]? = some y → e.Carries (o + 1) x.2 y.2 := by
  induction rest generalizing m values with
  | nil =>
      refine ⟨[], m.toEngine, .pure, .refl _, ?_, rfl, fun i x y hx => by cases hx⟩
      rw [List.append_nil, hobject]
  | cons member rest ih =>
      obtain ⟨name, p⟩ := member
      have hsize : limit ≤ m.objects.size := Nat.le_of_lt (Nat.lt_of_le_of_lt hlimit ho)
      obtain ⟨v, e₁, hbuilt, hkeeps₁, hv⟩ := hbuild (name, p) List.mem_cons_self m h hsize
      have hpermits₁ := h.keeps (hkeeps₁.mono fun _ _ _ => trivial) hsize
      -- building the value leaves the object and its prototypes
      have hsettled : (m.object o).Settled := hobject ▸ (Object.ofData_assembled values).settled
      have hobject₁ : e₁.object o = .assembled values :=
        (hkeeps₁.object_eq o ho trivial hsettled).trans hobject
      have hdescends₁ : e₁.Descends inherits o (e₁.object o).proto := by
        rw [hobject₁, ← hobject]
        exact hdescends.keeps (hkeeps₁.mono fun _ _ _ => trivial)
      obtain ⟨e₂, hset, hkeeps₂, hobject₂, hdescends₂⟩ := assignBuilt_gives
        (m := ⟨e₁, m.toBridge⟩) hpermits₁ hlimit (Nat.lt_of_lt_of_le ho hkeeps₁.size_le)
        (hobject₁ ▸ Object.ofData_assembled values) hdescends₁ (hv.mono (.refl _) ho)
        (hproto (name, p) List.mem_cons_self)
      have hkeeps : m.toEngine.Keeps (· ≠ o) e₂ := (hkeeps₁.mono fun _ _ _ => trivial).trans hkeeps₂
      have hassembled : e₂.object o = .assembled (values ++ [(name, v)]) := by
        rw [Object.assembled_concat, ← hobject₁]
        exact hobject₂
      obtain ⟨added, e₃, hrest, hkeeps₃, hobject₃, hcount, hadded⟩ := ih (m := ⟨e₂, m.toBridge⟩)
        (h.keeps (hkeeps.mono fun x _ hx => ne_of_limit_le hlimit x hx) hsize)
        (Nat.lt_of_lt_of_le ho hkeeps.size_le) hassembled hdescends₂
        (fun x hx => hproto x (List.mem_cons_of_mem _ hx))
        fun x hx => hbuild x (List.mem_cons_of_mem _ hx)
      refine ⟨(name, v) :: added, e₃, ?_, hkeeps.trans hkeeps₃, ?_, by simp [hcount], ?_⟩
      · rw [buildMembers]
        exact .bind hbuilt (.bind hset hrest)
      · rw [hobject₃, List.append_assoc, List.singleton_append]
      · intro i x y hx hy
        cases i with
        | zero =>
            cases hx
            cases hy
            refine hv.mono ((hkeeps₂.trans hkeeps₃).mono fun z _ hz heq => ?_) ho
            exact absurd ho (Nat.not_lt.mpr (heq ▸ hz))
        | succ i => exact hadded i x y hx hy

/-- Data that can be assembled is built. -/
theorem build_assembles (hp : p.Assemblable inherits) (h : m.Permits call inherits limit)
    (hlimit : limit ≤ m.objects.size) : Assembles call m p := by
  induction hp generalizing m with
  | @scalar p v hp =>
      refine ⟨v, m.toEngine, ?_, .refl _, .scalar hp⟩
      cases p with
      | array | object => cases hp
      | _ =>
          cases hp
          exact .pure
  | @array items hlength _ ih =>
      let blank : Engine := { m.toEngine with objects := m.objects.push (.arrayWith []) }
      have hblank : m.toEngine.Keeps (fun _ => True) blank := .push _
      have hsize : m.objects.size < blank.objects.size := by simp [blank]
      have hnew : blank.object m.objects.size = .arrayWith [] := Engine.object_push_size _
      obtain ⟨added, e, hitems, hkeeps, hobject, hcount, hadded⟩ :=
        buildItems_carries (m := ⟨blank, m.toBridge⟩)
          (h.keeps (hblank.mono fun _ _ _ => trivial) hlimit) hlimit hsize hnew
          (by simpa using hlength) fun p hp m' hm' hlimit' => ih p hp hm' hlimit'
      refine ⟨.object m.objects.size, e, ?_, hblank.andNew hkeeps (Nat.le_refl _), ?_⟩
      · rw [build]
        exact .bind (newArray_runs call m.toBridge) (.bind hitems .pure)
      · rw [List.nil_append] at hobject
        exact .array (Nat.le_refl _) (Nat.lt_of_lt_of_le hsize hkeeps.size_le) hobject hcount hadded
  | @object members hproto _ ih =>
      let blank : Engine := { m.toEngine with objects := m.objects.push (.plainWith []) }
      have hblank : m.toEngine.Keeps (fun _ => True) blank := .push _
      have hsize : m.objects.size < blank.objects.size := by simp [blank]
      have hnew : blank.object m.objects.size = .assembled [] := Engine.object_push_size _
      obtain ⟨added, e, hmembers, hkeeps, hobject, hcount, hadded⟩ :=
        buildMembers_carries (m := ⟨blank, m.toBridge⟩)
          (h.keeps (hblank.mono fun _ _ _ => trivial) hlimit) hlimit hsize hnew
          (hnew ▸ .object) hproto fun x hx m' hm' hlimit' => ih x hx hm' hlimit'
      refine ⟨.object m.objects.size, e, ?_, hblank.andNew hkeeps (Nat.le_refl _), ?_⟩
      · rw [build]
        exact .bind (newPlain_runs call m.toBridge) (.bind hmembers .pure)
      · rw [List.nil_append] at hobject
        exact .object (Nat.le_refl _) (Nat.lt_of_lt_of_le hsize hkeeps.size_le) hobject hcount hadded

end Script

end HostView
