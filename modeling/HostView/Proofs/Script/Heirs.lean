import HostView.Proofs.Script.Shapes
import Mathlib.Data.List.Induction

/-! # Objects that inherit from data

Members are assigned to a plain object one after the other: each is added, or takes the place of the
one of its name. One name stands for no member, since what is assigned to it becomes the prototype.
The object then inherits from data, which was built in the same way and lets assignments by.
-/

namespace HostView.Script

variable {call : Caller} {m m' : Machine} {e e' : Engine} {o p setter : ObjectId} {k : Key}
  {name : String} {v : Value} {members : List (String × Value)} {proto : Option ObjectId}
  {outcome : Outcome} {constructs : Bool} {limit n fuel : Nat}

/-! ### What assignments make of an object -/

namespace Object

variable {x : Object}

/-- The object after an assignment by name. A name that is not among its members is added to them; a
primitive value that is assigned to the prototype is ignored. -/
def assigned (x : Object) (member : String × Value) : Object :=
  if member.1 = "__proto__" then
    match member.2 with
    | .object p => { x with proto := some p }
    | _ => x
  else x.put (.name member.1) (.plain member.2)

/-- A new object to which the members have been assigned one after the other. -/
def assembled (members : List (String × Value)) : Object := members.foldl assigned (plainWith [])

theorem assembled_concat (members : List (String × Value)) (member : String × Value) :
    assembled (members ++ [member]) = (assembled members).assigned member :=
  List.foldl_concat assigned _ member members

/-- Of members of different names those are kept, one property each, that are not assigned to the
prototype. -/
theorem properties_assembled (hdistinct : (members.map (·.1)).Nodup) :
    (assembled members).properties =
      (plainWith (members.filter (·.1 ≠ "__proto__"))).properties := by
  induction members using List.reverseRecOn with
  | nil => rfl
  | append_singleton members member ih =>
      rw [List.map_append, List.map_singleton] at hdistinct
      have hbefore := ih (hdistinct.sublist (List.sublist_append_left _ _))
      rw [assembled_concat, List.filter_append]
      by_cases hname : member.1 = "__proto__"
      · have hsame : ((assembled members).assigned member).properties =
            (assembled members).properties := by
          rw [assigned, if_pos hname]
          split <;> rfl
        rw [hsame, hbefore, List.filter_singleton, decide_eq_false (not_not_intro hname), cond_false,
          List.append_nil]
      · have hmissing : (members.filter (·.1 ≠ "__proto__")).lookup member.1 = none := by
          rw [List.lookup_eq_none_iff]
          intro other hother
          apply bne_iff_ne.mpr
          intro heq
          have hmem : other.1 ∈ members.map (·.1) :=
            List.mem_map_of_mem (List.mem_of_mem_filter hother)
          exact (List.nodup_append.mp hdistinct).2.2 _ hmem _ List.mem_cons_self heq.symm
        have hfind : (assembled members).find? (.name member.1) = none := by
          rw [find?, hbefore]
          refine (find?_of_own? ?_).2
          rw [own?_plainWith, hmissing]
          rfl
        rw [assigned, if_neg hname, put_new hfind, hbefore, List.filter_singleton,
          decide_eq_true hname, cond_true]
        simp [plainWith]

/-- The object holds data: it is ordinary and takes new properties, and those that it has are
ordinary, too, and none of them has the name that sets the prototype. -/
structure OfData (x : Object) : Prop where
  kind : x.kind = .ordinary
  extensible : x.extensible = true
  plain : ∀ entry ∈ x.properties, ∃ v, entry.2 = .plain v
  unnamed : ∀ entry ∈ x.properties, entry.1 ≠ .name "__proto__"

/-- As a prototype the object lets assignments by. -/
structure Lenient (x : Object) : Prop where
  settled : x.Settled
  proxy : x.isProxy = false
  opens : ∀ k, Property.Open (x.own? k)
  unnamed : x.own? (.name "__proto__") = none

/-- What is found is among the properties. -/
theorem mem_of_find? {property : Property} (hfind : x.find? k = some property) :
    (k, property) ∈ x.properties := by
  obtain ⟨before, after, hproperties, -⟩ := List.lookup_eq_some_iff.mp hfind
  rw [hproperties]
  exact List.mem_append_right _ List.mem_cons_self

/-- What is found among ordinary properties is ordinary. -/
theorem find?_plain (hplain : ∀ entry ∈ x.properties, ∃ v, entry.2 = .plain v) (k : Key) :
    x.find? k = none ∨ ∃ v, x.find? k = some (.plain v) := by
  cases hfind : x.find? k with
  | none => exact .inl rfl
  | some property =>
      obtain ⟨v, rfl⟩ := hplain _ (mem_of_find? hfind)
      exact .inr ⟨v, rfl⟩

theorem find?_unnamed (hunnamed : ∀ entry ∈ x.properties, entry.1 ≠ .name "__proto__") :
    x.find? (.name "__proto__") = none := by
  cases hfind : x.find? (.name "__proto__") with
  | none => rfl
  | some property => exact absurd rfl (hunnamed _ (mem_of_find? hfind))

theorem put_mem {property : Property} {entry : Key × Property}
    (hentry : entry ∈ (x.put k property).properties) :
    entry ∈ x.properties ∨ entry = (k, property) := by
  unfold put at hentry
  split at hentry
  next =>
    obtain ⟨old, hold, heq⟩ := List.mem_map.mp hentry
    split at heq
    next => exact .inr heq.symm
    next => exact .inl (heq ▸ hold)
  next =>
    rcases List.mem_append.mp hentry with hold | hnew
    · exact .inl hold
    · exact .inr (List.mem_singleton.mp hnew)

namespace OfData

variable (h : x.OfData)

include h

theorem isProxy : x.isProxy = false := by
  rw [Object.isProxy, h.kind]

theorem settled : x.Settled := by
  intro owner
  rw [h.kind]
  nofun

theorem takes : x.Takes :=
  ⟨h.settled, h.isProxy, h.extensible, by rw [h.kind]; nofun⟩

theorem own?_eq (k : Key) : x.own? k = x.find? k := by
  rw [own?, inherent?, h.kind, Option.none_or]

theorem lenient : x.Lenient where
  settled := h.settled
  proxy := h.isProxy
  opens k := by
    rw [h.own?_eq]
    rcases find?_plain h.plain k with hnone | ⟨v, hv⟩
    · rw [hnone]
      trivial
    · rw [hv]
      trivial
  unnamed := by rw [h.own?_eq, find?_unnamed h.unnamed]

theorem put (hname : name ≠ "__proto__") (v : Value) : (x.put (.name name) (.plain v)).OfData := by
  have hkind : (x.put (.name name) (.plain v)).kind = x.kind := by
    unfold Object.put
    split <;> rfl
  have hextensible : (x.put (.name name) (.plain v)).extensible = x.extensible := by
    unfold Object.put
    split <;> rfl
  refine ⟨hkind.trans h.kind, hextensible.trans h.extensible, fun entry hentry => ?_,
    fun entry hentry => ?_⟩
  · rcases put_mem hentry with hold | rfl
    · exact h.plain entry hold
    · exact ⟨v, rfl⟩
  · rcases put_mem hentry with hold | rfl
    · exact h.unnamed entry hold
    · simpa [Key.name] using hname

theorem assigned (member : String × Value) : (x.assigned member).OfData := by
  unfold Object.assigned
  split
  next =>
    split
    next => exact ⟨h.kind, h.extensible, h.plain, h.unnamed⟩
    next => exact h
  next hname => exact h.put hname member.2

end OfData

theorem ofData_assembled (members : List (String × Value)) : (assembled members).OfData := by
  induction members using List.reverseRecOn with
  | nil => exact ⟨rfl, rfl, List.forall_mem_nil _, List.forall_mem_nil _⟩
  | append_singleton members member ih =>
      rw [assembled_concat]
      exact ih.assigned member

theorem put_proto (x : Object) (k : Key) (property : Property) : (x.put k property).proto = x.proto := by
  unfold put
  split <;> rfl

/-- An object inherits from the common prototype, or from an object that was assigned. -/
theorem assembled_proto (members : List (String × Value)) :
    (assembled members).proto = some Intrinsic.object ∨
      ∃ p, ("__proto__", .object p) ∈ members ∧ (assembled members).proto = some p := by
  induction members using List.reverseRecOn with
  | nil => exact .inl rfl
  | append_singleton members member ih =>
      have hkept : (assembled members).proto = some Intrinsic.object ∨
          ∃ p, ("__proto__", .object p) ∈ members ++ [member] ∧
            (assembled members).proto = some p :=
        ih.imp_right fun ⟨p, hp, hproto⟩ => ⟨p, List.mem_append_left _ hp, hproto⟩
      obtain ⟨name, v⟩ := member
      rw [assembled_concat, Object.assigned]
      split
      next hname =>
        obtain rfl : name = "__proto__" := hname
        cases v with
        | object p => exact .inr ⟨p, List.mem_append_right _ List.mem_cons_self, rfl⟩
        | _ => exact hkept
      next => rwa [put_proto]

/-- Members of different names are kept as they are, unless one of them is the prototype. -/
theorem assembled_eq_plainWith (hdistinct : (members.map (·.1)).Nodup)
    (hnames : ∀ member ∈ members, member.1 ≠ "__proto__") :
    assembled members = plainWith members := by
  have hdata := ofData_assembled members
  have hall : members.filter (·.1 ≠ "__proto__") = members :=
    List.filter_eq_self.mpr fun member hmember => decide_eq_true (hnames member hmember)
  have hproperties := properties_assembled hdistinct
  rw [hall] at hproperties
  have hproto : (assembled members).proto = some Intrinsic.object := by
    rcases assembled_proto members with hproto | ⟨p, hmem, -⟩
    · exact hproto
    · exact absurd rfl (hnames _ hmem)
  exact Object.mk.injEq .. |>.mpr ⟨hdata.kind, hproto, hdata.extensible, hproperties⟩

theorem lenient_arrayWith (items : List Value) : (arrayWith items).Lenient where
  settled := nofun
  proxy := rfl
  opens k := by
    have hplain : ∀ entry ∈ (arrayWith items).properties, ∃ v, entry.2 = .plain v := by
      intro entry hentry
      obtain ⟨x, -, rfl⟩ := List.mem_map.mp hentry
      exact ⟨x.1, rfl⟩
    by_cases hk : k = .length
    · subst hk
      rw [own?_arrayWith_length]
      trivial
    · have hown : (arrayWith items).own? k = (arrayWith items).find? k := by
        rw [own?, inherent?, arrayWith]
        dsimp only
        rw [if_neg hk, Option.none_or]
      rw [hown]
      rcases find?_plain hplain k with hnone | ⟨v, hv⟩
      · rw [hnone]
        trivial
      · rw [hv]
        trivial
  unnamed := by
    have hfind : (arrayWith items).find? (.name "__proto__") = none := by
      refine find?_unnamed fun entry hentry => ?_
      obtain ⟨x, -, rfl⟩ := List.mem_map.mp hentry
      exact Key.item_ne_proto x.2
    rw [own?, hfind, Option.or_none]
    rfl

end Object

/-! ### Members -/

/-- An assignment to a member that an object has replaces the value. -/
theorem setProperty_own {w : Value} (call : Caller) (ho : o < m.objects.size)
    (hx : (m.object o).OfData) (hown : (m.object o).own? k = some (.plain w)) :
    ∃ e, Gives call m (setProperty o k v) () ⟨e, m.toBridge⟩ ∧ m.toEngine.Keeps (· ≠ o) e ∧
      e.object o = (m.object o).put k (.plain v) := by
  let put (x : Object) : Object := x.put k (.plain v)
  obtain ⟨e, hfind, hkeeps⟩ := findOwn_runs m.toEngine o k
  have hobject : e.object o = m.object o := hkeeps.object_eq o ho trivial hx.settled
  have ho' : o < e.objects.size := Nat.lt_of_lt_of_le ho hkeeps.size_le
  have harray : e.isArray o = false := by
    rw [Engine.isArray, behindProxies_eq (hobject ▸ hx.isProxy), hobject, hx.kind]
  have hassign : Gives call ⟨e, m.toBridge⟩ (assignOwn o k (.plain w) v) .made
      ⟨{ e with objects := e.objects.modify o put }, m.toBridge⟩ := by
    unfold assignOwn
    refine .bind .get ?_
    rw [harray, Bool.and_false, if_neg Bool.false_ne_true]
    exact .bind (modifyObject_runs o put _ _) .pure
  have hset : Gives call m (setFrom (.object o) m.chainLimit o k v) .made
      ⟨{ e with objects := e.objects.modify o put }, m.toBridge⟩ := by
    rw [Engine.chainLimit, setFrom]
    refine .bind (getObject_gives o) ?_
    dsimp only
    rw [hx.kind]
    refine .bind (hfind call m.toBridge) ?_
    rw [hown]
    dsimp only
    rw [if_pos rfl]
    exact hassign
  refine ⟨_, .bind (.bind .get hset) .pure, ?_, ?_⟩
  · exact (hkeeps.mono fun _ _ _ => trivial).trans (.modify put fun hne => absurd rfl hne)
  · rw [Engine.object_modify_self ho' put, hobject]

/-- An assignment to an object of data adds or replaces a member, if the prototypes let it by. -/
theorem assignMember_gives (call : Caller) (ho : o < m.objects.size) (hx : (m.object o).OfData)
    (hname : name ≠ "__proto__") (h : m.LetsBy o (.name name) n (m.object o).proto)
    (hn : n ≤ m.objects.size) :
    ∃ e, Gives call m (setProperty o (.name name) v) () ⟨e, m.toBridge⟩ ∧
      m.toEngine.Keeps (· ≠ o) e ∧ e.object o = (m.object o).assigned (name, v) := by
  have hassigned : (m.object o).assigned (name, v) = (m.object o).put (.name name) (.plain v) :=
    if_neg hname
  rw [hassigned]
  rcases Object.find?_plain hx.plain (.name name) with hnone | ⟨w, hw⟩
  · obtain ⟨e, hset, hadds⟩ := setProperty_runs (v := v) ho hx.takes
      ((hx.own?_eq _).trans hnone) h hn
    refine ⟨e, hset call m.toBridge, hadds.keeps, ?_⟩
    rw [hadds.object_eq, Object.put_new hnone, Object.adding, hx.kind]
  · exact setProperty_own call ho hx ((hx.own?_eq _).trans hw)

/-! ### The prototype -/

/-- An assignment to a key of `o` reaches a setter on one of the prototypes from one on, the `n`-th at
the latest. -/
inductive Engine.Reaches (e : Engine) (o : ObjectId) (k : Key) (setter : ObjectId) :
    Nat → Option ObjectId → Prop
  | here {n : Nat} {p : ObjectId} {getter : Option ObjectId} {enumerable configurable : Bool}
      (hne : p ≠ o) (hproxy : (e.object p).isProxy = false)
      (hown : (e.object p).own? k = some (.accessor getter (some setter) enumerable configurable)) :
      e.Reaches o k setter (n + 1) (some p)
  | past {n : Nat} {p : ObjectId} (hne : p ≠ o) (hproxy : (e.object p).isProxy = false)
      (hown : (e.object p).own? k = none) (hrest : e.Reaches o k setter n (e.object p).proto) :
      e.Reaches o k setter (n + 1) (some p)

theorem setFrom_reaches (h : m.Reaches o k setter n proto) (hfuel : n ≤ fuel)
    (hcall : Gives call m (callSetter (.object o) (some setter) v) outcome m') :
    Gives call m
      (match proto with
        | some p => setFrom (.object o) fuel p k v
        | none => assignOn (.object o) k v) outcome m' := by
  induction h generalizing fuel with
  | @here n p getter enumerable configurable hne hproxy hown =>
      cases fuel with
      | zero => exact absurd hfuel (Nat.not_succ_le_zero _)
      | succ fuel =>
          have hfind : Gives call m (findOwn p k)
              (some (.accessor getter (some setter) enumerable configurable)) m := by
            rw [← hown]
            refine findOwn_settled fun v w c d hdata => ?_
            rw [hown] at hdata
            cases hdata
          have hreceiver : Value.object o ≠ .object p := fun heq => hne (Value.object.inj heq).symm
          dsimp only
          rw [setFrom]
          refine .bind (getObject_gives p) ?_
          dsimp only
          split
          next target handler hkind => simp [Object.isProxy, hkind] at hproxy
          next =>
            refine .bind hfind ?_
            dsimp only
            rw [if_neg hreceiver]
            exact hcall
  | past hne hproxy hown _ ih =>
      cases fuel with
      | zero => exact absurd hfuel (Nat.not_succ_le_zero _)
      | succ fuel =>
          have honward := ih (Nat.le_of_succ_le_succ hfuel)
          dsimp only
          rw [setFrom]
          refine .bind (getObject_gives _) ?_
          dsimp only
          split
          next target handler hkind => simp [Object.isProxy, hkind] at hproxy
          next => exact .bind (findOwn_none hown) honward

/-- An assignment to a key that an object lacks calls the setter that it reaches. -/
theorem setProperty_reaches (hproxy : (m.object o).isProxy = false)
    (hown : (m.object o).own? k = none) (h : m.Reaches o k setter n (m.object o).proto)
    (hn : n ≤ m.objects.size)
    (hcall : Gives call m (callSetter (.object o) (some setter) v) .made m') :
    Gives call m (setProperty o k v) () m' := by
  have hset : Gives call m (setFrom (.object o) m.chainLimit o k v) .made m' := by
    rw [Engine.chainLimit, setFrom]
    refine .bind (getObject_gives o) ?_
    dsimp only
    split
    next target handler hkind => simp [Object.isProxy, hkind] at hproxy
    next => exact .bind (findOwn_none hown) (setFrom_reaches h hn hcall)
  exact .bind (.bind .get hset) .pure

/-- An object is not among prototypes that let its assignments by. -/
theorem inherits_eq_false (h : e.LetsBy o k n (some p)) (fuel : Nat) :
    e.inherits o fuel p = false := by
  induction n generalizing p fuel with
  | zero => cases h
  | succ n ih =>
      cases h with
      | some hne _ _ hproxy _ hrest =>
          cases fuel with
          | zero => rfl
          | succ fuel =>
              rw [Engine.inherits, decide_eq_false hne, Bool.false_or]
              split
              next => rfl
              next q hproto _ => exact ih (hproto ▸ hrest) fuel
              next => rfl

theorem replaceProto_gives (call : Caller) (ho : o < m.objects.size) (hx : (m.object o).OfData)
    (hnew : o ≠ Intrinsic.object) (h : m.LetsBy o k n (some p)) :
    ∃ e, Gives call m (replaceProto o (some p)) .made ⟨e, m.toBridge⟩ ∧
      m.toEngine.Keeps (· ≠ o) e ∧ e.object o = { m.object o with proto := some p } := by
  let replace (x : Object) : Object := { x with proto := some p }
  have hcircular : ¬ (some p).any (m.inherits o m.chainLimit) = true := by
    rw [Option.any_some, inherits_eq_false h]
    exact Bool.false_ne_true
  by_cases hsame : (m.object o).proto = some p
  · refine ⟨m.toEngine, ?_, .refl _, by rw [← hsame]⟩
    refine .bind .get ?_
    rw [Engine.chainLimit, replaceProtoFrom]
    refine .bind .get ?_
    dsimp only
    rw [hx.kind]
    dsimp only
    rw [if_pos hsame]
    exact .pure
  · refine ⟨{ m.toEngine with objects := m.objects.modify o replace }, ?_,
      .modify replace fun hne => absurd rfl hne, Engine.object_modify_self ho replace⟩
    refine .bind .get ?_
    rw [Engine.chainLimit, replaceProtoFrom]
    refine .bind .get ?_
    dsimp only
    rw [hx.kind]
    dsimp only
    rw [if_neg hsame, if_neg hnew, hx.extensible, if_neg (by simp), if_neg hcircular]
    exact .bind (modifyObject_runs o replace _ _) .pure

/-- The setter of prototypes gives an object another prototype. A primitive value that is not null
is ignored. -/
theorem callSetter_replaceProto
    (hkind : (m.object setter).kind = .function (.builtin (.object .replaceProto)) constructs)
    (hv : match v with
      | .object p => Gives (invoke n) m (replaceProto o (some p)) .made m'
      | .null => False
      | _ => m' = m) :
    Gives (invoke (n + 1)) m (callSetter (.object o) (some setter) v) .made m' := by
  have hset : Gives (invoke n) m
      (ObjectFunction.perform .replaceProto setter (.call (.object o)) [v]) .undefined m' := by
    cases v with
    | object p =>
        have hproto : Gives (invoke n) m (setProto (.object o) (some p)) () m' := .bind hv .pure
        unfold ObjectFunction.perform
        dsimp only
        exact .bind hproto .pure
    | null => exact hv.elim
    | _ =>
        subst hv
        exact .bind .pure .pure
  exact .bind (callValue_gives hkind (.routine hset)) .pure

end HostView.Script
