import HostView.Proofs.Script.Objects

/-! # Properties that are added

An assignment to a key that an object lacks adds a property to the object, unless a prototype has a
setter, a read-only property or a proxy for it. Objects and arrays are built in this way.
-/

namespace HostView.Script

variable {call : Caller} {m m' : Machine} {e e' : Engine} {o p : ObjectId} {k : Key} {v : Value}
  {limit n fuel : Nat} {proto : Option ObjectId}

/-- The property is missing, or it may be written and no setter is asked. -/
def Property.Open : Option Property → Prop
  | none | some (.data _ true _ _) => True
  | _ => False

theorem Property.Open.data {p : Property} (h : Property.Open (some p)) :
    ∃ v enumerable configurable, p = .data v true enumerable configurable := by
  cases p with
  | data v writable enumerable configurable =>
      cases writable with
      | true => exact ⟨v, enumerable, configurable, rfl⟩
      | false => exact h.elim
  | accessor get set enumerable configurable => exact h.elim

/-! ### Reading what is inherited -/

/-- What the prototypes from one on have at a key, of which there are so many at most; undefined if none of
them has a value there. -/
def Engine.inherited (e : Engine) (k : Key) : Nat → Option ObjectId → Value
  | n + 1, some p =>
    match (e.object p).own? k with
    | some property => property.value?.getD .undefined
    | none => e.inherited k n (e.object p).proto
  | _, _ => .undefined

theorem Engine.inherited_none (e : Engine) (k : Key) (n : Nat) : e.inherited k n none = .undefined := by
  cases n <;> rfl

/-- A property with a value is read. The value may be an object that is made now. -/
theorem getFrom_data {receiver : Value} {w c d : Bool} (call : Caller) (n : Nat)
    (hproxy : (m.object p).isProxy = false) (hown : (m.object p).own? k = some (.data v w c d)) :
    ∃ e, Gives call m (getFrom (n + 1) receiver p k) v ⟨e, m.toBridge⟩ ∧
      m.toEngine.Keeps (fun _ => True) e := by
  obtain ⟨e, hfind, hkeeps⟩ := findOwn_runs m.toEngine p k
  rw [hown] at hfind
  refine ⟨e, ?_, hkeeps⟩
  rw [getFrom]
  refine .bind (getObject_gives p) ?_
  split
  next target handler hkind => simp [Object.isProxy, hkind] at hproxy
  next => exact .bind (hfind call m.toBridge) .pure

/-- Past prototypes without getters at the key, what is inherited is read. An object that is read may be
made on the way. -/
theorem getFrom_open {receiver : Value} (call : Caller)
    (h : m.Passes limit k Property.Open n proto) (hfuel : n ≤ fuel) :
    ∃ e, Gives call m
        (match proto with
          | some p => getFrom fuel receiver p k
          | none => return .undefined) (m.inherited k n proto) ⟨e, m.toBridge⟩ ∧
      m.toEngine.Keeps (fun _ => True) e := by
  induction h generalizing fuel with
  | none =>
      rw [Engine.inherited_none]
      exact ⟨m.toEngine, .pure, .refl _⟩
  | some _ _ hproxy hopen _ ih =>
      cases fuel with
      | zero => exact absurd hfuel (Nat.not_succ_le_zero _)
      | succ fuel =>
          rw [Engine.inherited]
          cases hown : (m.object _).own? k with
          | some property =>
              rw [hown] at hopen
              obtain ⟨v, c, d, rfl⟩ := hopen.data
              exact getFrom_data call fuel hproxy hown
          | none =>
              obtain ⟨e, hread, hkeeps⟩ := ih (Nat.le_of_succ_le_succ hfuel)
              exact ⟨e, getFrom_inherited hproxy hown hread, hkeeps⟩

theorem getProperty_open (call : Caller) (hproxy : (m.object o).isProxy = false)
    (hown : (m.object o).own? k = none)
    (h : m.Passes limit k Property.Open n (m.object o).proto) (hn : n ≤ m.objects.size) :
    ∃ e, Gives call m (getProperty o k) (m.inherited k n (m.object o).proto) ⟨e, m.toBridge⟩ ∧
      m.toEngine.Keeps (fun _ => True) e := by
  obtain ⟨e, hread, hkeeps⟩ := getFrom_open call h hn
  exact ⟨e, .bind .get (getFrom_inherited hproxy hown hread), hkeeps⟩

namespace Object

/-- The object takes new properties, and an array new elements. -/
structure Takes (x : Object) : Prop where
  settled : x.Settled
  proxy : x.isProxy = false
  extensible : x.extensible = true
  grows : ∀ length, x.kind ≠ .array length true

/-- The object with one more property. An array grows to hold a new element. -/
def adding (x : Object) (k : Key) (v : Value) : Object :=
  { x with
    kind :=
      match x.kind, k.index? with
      | .array length false, some i => .array (max length (i + 1)) false
      | kind, _ => kind
    properties := x.properties ++ [(k, .plain v)] }

theorem find?_of_own? {x : Object} (hown : x.own? k = none) :
    x.inherent? k = none ∧ x.find? k = none := by
  rw [own?, Option.or_eq_none_iff] at hown
  exact hown

theorem put_new {x : Object} (hfind : x.find? k = none) (q : Property) :
    x.put k q = { x with properties := x.properties ++ [(k, q)] } := by
  rw [put, hfind]
  rfl

end Object

theorem modifyObject_runs (o : ObjectId) (f : Object → Object) :
    e.Runs (modifyObject o f) () { e with objects := e.objects.modify o f } := fun _ _ => rfl

/-- What one more property on an object makes of an engine. -/
structure Engine.Adds (o : ObjectId) (k : Key) (v : Value) (e e' : Engine) : Prop where
  keeps : e.Keeps (· ≠ o) e'
  object_eq : e'.object o = (e.object o).adding k v

theorem addProperty_runs (ho : o < e.objects.size) (htakes : (e.object o).Takes)
    (hfind : (e.object o).find? k = none) :
    ∃ e', e.Runs (addProperty o k (.ordinary v)) .made e' ∧ e.Adds o k v e' := by
  let put (x : Object) : Object := x.put k (.plain v)
  have hkeeps (e : Engine) (f : Object → Object) :
      e.Keeps (· ≠ o) { e with objects := e.objects.modify o f } :=
    .modify f fun hne => absurd rfl hne
  have hadd (e₁ : Engine) : e₁.Runs
      (if (e.object o).extensible then do
        modifyObject o put
        return Outcome.made
      else return .declined .notExtensible : Routine Outcome) .made
      { e₁ with objects := e₁.objects.modify o put } := by
    rw [if_pos htakes.extensible]
    exact .bind (modifyObject_runs o put) .pure
  by_cases hlong : ∃ length i, (e.object o).kind = .array length false ∧ k.index? = some i ∧
      length ≤ i
  · -- an element beyond the end makes the array longer first
    obtain ⟨length, i, hkind, hindex, hle⟩ := hlong
    let grow (x : Object) : Object := { x with kind := .array (i + 1) false }
    refine ⟨{ e with objects := (e.objects.modify o grow).modify o put },
      .bind (getObject_runs o) ?_, (hkeeps e grow).trans (hkeeps _ put), ?_⟩
    · rw [hkind, hindex]
      dsimp only
      rw [if_neg (Nat.not_lt.mpr hle)]
      exact .bind (modifyObject_runs o grow) (hadd _)
    · have hgrown := Engine.object_modify_self (e := e) ho grow
      have hput := Engine.object_modify_self
        (e := { e with objects := e.objects.modify o grow }) (by simpa using ho) put
      have hlength : max length (i + 1) = i + 1 := by omega
      rw [hput, hgrown, Object.adding, hkind, hindex]
      dsimp only
      rw [hlength]
      exact Object.put_new (x := grow (e.object o)) hfind _
  · refine ⟨{ e with objects := e.objects.modify o put }, .bind (getObject_runs o) ?_,
      hkeeps e put, ?_⟩
    · dsimp only
      split
      next length fixed i hkind hindex =>
        cases fixed with
        | true => exact absurd hkind (htakes.grows length)
        | false =>
            rw [if_pos (Nat.lt_of_not_le fun hle => hlong ⟨length, i, hkind, hindex, hle⟩)]
            exact hadd _
      next => exact hadd _
    · rw [Engine.object_modify_self ho put, Object.adding]
      refine (Object.put_new hfind _).trans ?_
      congr 1
      split
      next length i hkind hindex =>
        have hlt : i < length := Nat.lt_of_not_le fun hle => hlong ⟨length, i, hkind, hindex, hle⟩
        rw [hkind, Nat.max_eq_left hlt]
      next => rfl

/-- A property that an object lacks can be defined on it. -/
theorem defineProperty_runs (ho : o < e.objects.size) (htakes : (e.object o).Takes)
    (hown : (e.object o).own? k = none) :
    ∃ e', e.Runs (defineProperty o k (.ordinary v)) .made e' ∧ e.Adds o k v e' := by
  obtain ⟨hinherent, hfind⟩ := Object.find?_of_own? hown
  obtain ⟨e', hadd, hadds⟩ := addProperty_runs (v := v) ho htakes hfind
  have hordinary : e.Runs (defineOrdinary o k (.ordinary v)) .made e' := by
    unfold defineOrdinary
    refine .bind (fun call b => findOwn_none (m := ⟨e, b⟩) hown)
      (.bind (getObject_runs o) ?_)
    rw [hinherent, hfind]
    exact hadd
  refine ⟨e', .bind .get ?_, hadds⟩
  rw [Engine.chainLimit, defineFrom]
  refine .bind (getObject_runs o) ?_
  split
  next target handler hkind => exact absurd htakes.proxy (by simp [Object.isProxy, hkind])
  next length fixed hkind =>
    rw [if_neg ?_]
    · exact hordinary
    · rintro rfl
      simp [Object.inherent?, hkind] at hinherent
  next => exact hordinary

/-- An assignment that comes to an object which lacks the property adds it. -/
theorem assignOn_runs (ho : o < e.objects.size) (htakes : (e.object o).Takes)
    (hown : (e.object o).own? k = none) :
    ∃ e', e.Runs (assignOn (.object o) k v) .made e' ∧ e.Adds o k v e' := by
  obtain ⟨e', hdefine, hadds⟩ := defineProperty_runs (v := v) ho htakes hown
  have hmissing : e.Runs (getOwnProperty o k) none e :=
    .bind .get fun call b => ownFrom_none (m := ⟨e, b⟩) htakes.proxy hown
  refine ⟨e', ?_, hadds⟩
  unfold assignOn
  refine .bind (getObject_runs o) ?_
  dsimp only
  rw [htakes.extensible, if_neg (by simp)]
  exact .bind hmissing hdefine

/-- On an object that lets an assignment pass, it goes on, or it ends there for an element. -/
theorem setFrom_open {receiver : Value} {outcome : Outcome}
    (hproxy : (m.object p).isProxy = false) (hopen : Property.Open ((m.object p).own? k))
    (hreceiver : receiver ≠ .object p)
    (hfind : Gives call m (findOwn p k) ((m.object p).own? k) ⟨e, m.toBridge⟩)
    (h : Gives call ⟨e, m.toBridge⟩
      (if ((m.object p).own? k).isSome ∧ (m.object p).isElement k then assignOn receiver k v
      else
        match (m.object p).proto with
        | some q => setFrom receiver n q k v
        | none => assignOn receiver k v) outcome m') :
    Gives call m (setFrom receiver (n + 1) p k v) outcome m' := by
  rw [setFrom]
  refine .bind (getObject_gives p) ?_
  dsimp only
  split
  next target handler hkind => simp [Object.isProxy, hkind] at hproxy
  next =>
    refine .bind hfind ?_
    cases hown : (m.object p).own? k with
    | none =>
        rw [hown, if_neg (by simp)] at h
        cases hproto : (m.object p).proto <;> rw [hproto] at h <;> exact h
    | some property =>
        rw [hown] at h hopen
        dsimp only
        rw [if_neg hreceiver]
        obtain ⟨w, c, d, rfl⟩ := hopen.data
        simp only [Option.isSome_some, true_and] at h
        cases hproto : (m.object p).proto <;> rw [hproto] at h <;> exact h

/-- Assignments to a key of `o` go past the prototypes from one on: each is another object and no
proxy, and has at most a property there that may be written. There are `n` of them at most. -/
inductive Engine.LetsBy (e : Engine) (o : ObjectId) (k : Key) : Nat → Option ObjectId → Prop
  | none {n : Nat} : e.LetsBy o k n none
  | some {n : Nat} {p : ObjectId} (hne : p ≠ o) (hlt : p < e.objects.size)
      (hsettled : (e.object p).Settled) (hproxy : (e.object p).isProxy = false)
      (hopen : Property.Open ((e.object p).own? k)) (hrest : e.LetsBy o k n (e.object p).proto) :
      e.LetsBy o k (n + 1) (some p)

theorem Engine.LetsBy.keeps (h : e.LetsBy o k n proto) (hkeeps : e.Keeps (· ≠ o) e') :
    e'.LetsBy o k n proto := by
  induction h with
  | none => exact .none
  | some hne hlt hsettled hproxy hopen _ ih =>
      have heq := hkeeps.object_eq _ hlt hne hsettled
      rw [← heq] at hsettled hproxy hopen ih
      exact .some hne (Nat.lt_of_lt_of_le hlt hkeeps.size_le) hsettled hproxy hopen ih

/-- Old prototypes that let an assignment pass are no obstacle for a new object. -/
theorem Engine.Passes.letsBy (h : e.Passes limit k Property.Open n proto) (hlimit : limit ≤ o)
    (hsize : limit ≤ e.objects.size) : e.LetsBy o k n proto := by
  induction h with
  | none => exact .none
  | some hlt hsettled hproxy hopen _ ih =>
      refine .some ?_ (Nat.lt_of_lt_of_le hlt hsize) hsettled hproxy hopen ih
      exact Nat.ne_of_lt (Nat.lt_of_lt_of_le hlt hlimit)

/-- An assignment goes past prototypes that let it by, and ends on the object itself. Objects that
they hold may be made on the way. -/
theorem setFrom_letsBy (h : e.LetsBy o k n proto) (hfuel : n ≤ fuel) :
    ∃ e', e.Keeps (fun _ => True) e' ∧ ∀ {call : Caller} {b : Bridge} {outcome : Outcome} {m' : Machine},
      Gives call ⟨e', b⟩ (assignOn (.object o) k v) outcome m' →
      Gives call ⟨e, b⟩
        (match proto with
          | some p => setFrom (.object o) fuel p k v
          | none => assignOn (.object o) k v) outcome m' := by
  induction n generalizing e proto fuel with
  | zero =>
      cases h with
      | none => exact ⟨e, .refl _, id⟩
  | succ n ih =>
      cases h with
      | none => exact ⟨e, .refl _, id⟩
      | @some _ p hne _ _ hproxy hopen hrest =>
          cases fuel with
          | zero => exact absurd hfuel (Nat.not_succ_le_zero _)
          | succ fuel =>
              obtain ⟨e₁, hfind, hkeeps⟩ := findOwn_runs e p k
              have hreceiver : Value.object o ≠ .object p := fun heq => hne (Value.object.inj heq).symm
              by_cases hends : ((e.object p).own? k).isSome ∧ (e.object p).isElement k
              · refine ⟨e₁, hkeeps, fun {call b} _ _ hassign => ?_⟩
                refine setFrom_open (m := ⟨e, b⟩) hproxy hopen hreceiver (hfind call b) ?_
                rwa [if_pos hends]
              · have hrest' := hrest.keeps (hkeeps.mono fun _ _ _ => trivial)
                obtain ⟨e₂, hkeeps', honward⟩ := ih hrest' (Nat.le_of_succ_le_succ hfuel)
                refine ⟨e₂, hkeeps.trans hkeeps', fun {call b} _ _ hassign => ?_⟩
                refine setFrom_open (m := ⟨e, b⟩) hproxy hopen hreceiver (hfind call b) ?_
                rw [if_neg hends]
                exact honward hassign

/-- An assignment adds a property to an object that lacks it, if the prototypes let it pass. -/
theorem setProperty_runs (ho : o < e.objects.size) (htakes : (e.object o).Takes)
    (hown : (e.object o).own? k = none) (h : e.LetsBy o k n (e.object o).proto)
    (hn : n ≤ e.objects.size) :
    ∃ e', e.Runs (setProperty o k v) () e' ∧ e.Adds o k v e' := by
  obtain ⟨e₁, hkeeps, hset⟩ := setFrom_letsBy (v := v) h hn
  have hobject : e₁.object o = e.object o := hkeeps.object_eq o ho trivial htakes.settled
  obtain ⟨e', hassign, hadds⟩ := assignOn_runs (e := e₁) (v := v)
    (Nat.lt_of_lt_of_le ho hkeeps.size_le) (hobject ▸ htakes) (hobject ▸ hown)
  have hown' : e.Runs (setFrom (.object o) e.chainLimit o k v) .made e' := by
    rw [Engine.chainLimit, setFrom]
    refine .bind (getObject_runs o) fun call b => ?_
    dsimp only
    split
    next target handler hkind => exact absurd htakes.proxy (by simp [Object.isProxy, hkind])
    next => exact .bind (findOwn_none (m := ⟨e, b⟩) hown) (hset (hassign call b))
  refine ⟨e', .bind (.bind .get hown') .pure, ?_, ?_⟩
  · exact (hkeeps.mono fun _ _ _ => trivial).trans hadds.keeps
  · exact hadds.object_eq.trans (congrArg (·.adding k v) hobject)

end HostView.Script
