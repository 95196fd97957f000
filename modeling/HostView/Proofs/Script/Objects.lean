import HostView.Proofs.Script.Running

/-! # Objects of their own

What reading and assigning come to on objects that no getter, setter or proxy stands behind: a
property that the object has is read as it is, one that it lacks is looked for on its prototypes and
then added. An object from which a function's objects inherit is made when it is first asked for, so
only the others stay as they are.
-/

namespace HostView.Script

variable {call : Caller} {m m' : Machine} {e e' e'' : Engine} {b : Bridge} {o p : ObjectId}
  {k : Key} {v receiver : Value}
  {P P' : ObjectId → Prop} {limit n fuel : Nat} {proto : Option ObjectId}

/-! ### Engines through time -/

/-- Nothing is left to be made of the object when it is asked for. -/
def Object.Settled (o : Object) : Prop := ∀ owner, o.kind ≠ .unmade owner

instance (o : Object) : Decidable o.Settled :=
  decidable_of_iff ((match o.kind with | .unmade _ => false | _ => true) = true) <| by
    unfold Object.Settled
    cases o.kind <;> simp

/-- An object that is not the one which stands for all that are missing is there. -/
theorem Engine.lt_size_of_ne (h : e.object o ≠ default) : o < e.objects.size := by
  by_contra hout
  rw [Engine.object, Array.getElem?_eq_none (Nat.le_of_not_lt hout)] at h
  exact h rfl

/-- What holds of the objects that are there, and of that one, holds of all. -/
theorem Engine.forall_object {P : Object → Prop} (hthere : ∀ o < e.objects.size, P (e.object o))
    (hdefault : P default) (o : ObjectId) : P (e.object o) := by
  by_cases ho : o < e.objects.size
  · exact hthere o ho
  · rwa [Engine.object, Array.getElem?_eq_none (Nat.le_of_not_lt ho)]

namespace Engine

theorem object_push_lt (ho : o < e.objects.size) (x : Object) :
    Engine.object { e with objects := e.objects.push x } o = e.object o := by
  simp only [Engine.object, Array.getElem?_push_lt ho, Array.getElem?_eq_getElem ho]

theorem object_push_size (x : Object) :
    Engine.object { e with objects := e.objects.push x } e.objects.size = x := by
  simp [Engine.object]

theorem object_modify_self (ho : o < e.objects.size) (f : Object → Object) :
    Engine.object { e with objects := e.objects.modify o f } o = f (e.object o) := by
  simp [Engine.object, Array.getElem?_modify, Array.getElem?_eq_getElem ho]

theorem object_modify_ne (hp : p ≠ o) (f : Object → Object) :
    Engine.object { e with objects := e.objects.modify o f } p = e.object p := by
  simp only [Engine.object, Array.getElem?_modify]
  rw [if_neg hp.symm]

/-- Objects are added, and of those that are there the settled ones that satisfy `P` stay as they
are. -/
structure Keeps (P : ObjectId → Prop) (e e' : Engine) : Prop where
  size_le : e.objects.size ≤ e'.objects.size
  object_eq : ∀ o < e.objects.size, P o → (e.object o).Settled → e'.object o = e.object o

namespace Keeps

theorem refl (e : Engine) : Keeps P e e := ⟨Nat.le_refl _, fun _ _ _ _ => rfl⟩

theorem trans (h : Keeps P e e') (h' : Keeps P e' e'') : Keeps P e e'' where
  size_le := Nat.le_trans h.size_le h'.size_le
  object_eq o ho hP hsettled := by
    have heq := h.object_eq o ho hP hsettled
    rw [h'.object_eq o (Nat.lt_of_lt_of_le ho h.size_le) hP (heq ▸ hsettled), heq]

theorem mono (h : Keeps P e e') (hP : ∀ o < e.objects.size, P' o → P o) : Keeps P' e e' where
  size_le := h.size_le
  object_eq o ho hP' := h.object_eq o ho (hP o ho hP')

/-- A new object may go on to change. -/
theorem andNew (h : Keeps P e e') (h' : Keeps (· ≠ o) e' e'') (ho : e.objects.size ≤ o) :
    Keeps P e e'' where
  size_le := Nat.le_trans h.size_le h'.size_le
  object_eq p hp hP hsettled := by
    have heq := h.object_eq p hp hP hsettled
    have hne : p ≠ o := fun hpo => absurd ho (Nat.not_le.mpr (hpo ▸ hp))
    rw [h'.object_eq p (Nat.lt_of_lt_of_le hp h.size_le) hne (heq ▸ hsettled), heq]

theorem push (x : Object) : Keeps P e { e with objects := e.objects.push x } where
  size_le := by simp
  object_eq _ ho _ _ := object_push_lt ho x

theorem append (xs : Array Object) : Keeps P e { e with objects := e.objects ++ xs } where
  size_le := by simp
  object_eq o ho _ _ := by
    rw [Engine.object, Engine.object, Array.getElem?_append_left ho]

/-- One object may change that does not satisfy `P`, or that is not settled. -/
theorem modify (f : Object → Object) (hP : P o → ¬ (e.object o).Settled) :
    Keeps P e { e with objects := e.objects.modify o f } where
  size_le := by simp
  object_eq p _ hp hsettled := by
    refine object_modify_ne ?_ f
    rintro rfl
    exact hP hp hsettled

end Keeps

end Engine

/-! ### Reading what is there -/

theorem getObject_gives (o : ObjectId) : Gives call m (getObject o) (m.object o) m := rfl

theorem getObject_runs (o : ObjectId) : e.Runs (getObject o) (e.object o) e := fun _ _ => rfl

/-- The value is no object that is still to be made. -/
def Value.Settled (e : Engine) (v : Value) : Prop := ∀ o, v = .object o → (e.object o).Settled

theorem Value.Settled.of_object? (hv : v.object? = none) : v.Settled e := by
  rintro o rfl
  cases hv

theorem completeObject_settled (ho : (m.object o).Settled) :
    Gives call m (completeObject o) () m := by
  unfold completeObject
  refine .bind (getObject_gives o) ?_
  split
  next owner hkind => exact absurd hkind (ho owner)
  next => exact .pure

theorem completeObject_runs (e : Engine) (o : ObjectId) :
    ∃ e', e.Runs (completeObject o) () e' ∧ e.Keeps (fun _ => True) e' := by
  by_cases ho : (e.object o).Settled
  · exact ⟨e, fun call b => completeObject_settled (m := ⟨e, b⟩) ho, .refl _⟩
  · obtain ⟨owner, howner⟩ : ∃ owner, (e.object o).kind = .unmade owner := by
      simpa [Object.Settled] using ho
    -- the object has only been promised: it is made now, and was not settled
    let made (object : Object) : Object :=
      { object with
        kind := .ordinary
        properties := [(.name "constructor", .hidden (.object owner))] }
    refine ⟨{ e with objects := e.objects.modify o made }, fun call b => ?_, .modify made fun _ => ho⟩
    unfold completeObject
    refine .bind (getObject_gives o) ?_
    rw [show (Engine.object _ o).kind = .unmade owner from howner]
    exact .modifyGet _

theorem findOwn_settled
    (hv : ∀ v w c d, (m.object o).own? k = some (.data v w c d) → v.Settled m.toEngine) :
    Gives call m (findOwn o k) ((m.object o).own? k) m := by
  unfold findOwn
  refine .bind (getObject_gives o) ?_
  dsimp only
  split
  next v w c d hown => exact .bind (completeObject_settled (hv _ w c d hown v rfl)) .pure
  next => exact .bind .pure .pure

theorem findOwn_none (hown : (m.object o).own? k = none) : Gives call m (findOwn o k) none m := by
  have hfind : Gives call m (findOwn o k) ((m.object o).own? k) m := by
    refine findOwn_settled fun v w c d hdata => ?_
    rw [hown] at hdata
    cases hdata
  rwa [hown] at hfind

theorem findOwn_runs (e : Engine) (o : ObjectId) (k : Key) :
    ∃ e', e.Runs (findOwn o k) ((e.object o).own? k) e' ∧ e.Keeps (fun _ => True) e' := by
  -- only a value that is an object may have to be made
  by_cases hobject : ∃ v w c d, (e.object o).own? k = some (.data (.object v) w c d)
  · obtain ⟨v, w, c, d, hown⟩ := hobject
    obtain ⟨e', hcomplete, hkeeps⟩ := completeObject_runs e v
    refine ⟨e', fun call b => ?_, hkeeps⟩
    unfold findOwn
    refine .bind (getObject_gives o) ?_
    rw [hown]
    exact .bind (hcomplete call b) .pure
  · refine ⟨e, fun call b => findOwn_settled (m := ⟨e, b⟩) fun v w c d hown o' hv => ?_, .refl _⟩
    exact absurd ⟨o', w, c, d, hv ▸ hown⟩ hobject

/-- An object with no proxy in it is what it is. -/
theorem behindProxies_eq {e : Engine} (ho : (e.object o).isProxy = false) (n : Nat) :
    e.behindProxies n o = o := by
  cases n with
  | zero => rfl
  | succ n =>
      rw [Engine.behindProxies]
      split
      next target handler hkind => simp [Object.isProxy, hkind] at ho
      next => rfl

/-! ### Reading -/

/-- A property is read that an object has itself. -/
theorem getFrom_own {w c d : Bool} (hproxy : (m.object o).isProxy = false)
    (hown : (m.object o).own? k = some (.data v w c d)) (hv : v.Settled m.toEngine) :
    Gives call m (getFrom (n + 1) receiver o k) v m := by
  have hfind : Gives call m (findOwn o k) (some (.data v w c d)) m := by
    rw [← hown]
    refine findOwn_settled fun v' w' c' d' hown' => ?_
    rw [hown] at hown'
    cases hown'
    exact hv
  rw [getFrom]
  refine .bind (getObject_gives o) ?_
  split
  next target handler hkind => simp [Object.isProxy, hkind] at hproxy
  next => exact .bind hfind .pure

theorem getProperty_own {w c d : Bool} (hproxy : (m.object o).isProxy = false)
    (hown : (m.object o).own? k = some (.data v w c d)) (hv : v.Settled m.toEngine) :
    Gives call m (getProperty o k) v m :=
  .bind .get (getFrom_own hproxy hown hv)

/-- A property that an object lacks is looked for on its prototype. -/
theorem getFrom_inherited (hproxy : (m.object o).isProxy = false)
    (hown : (m.object o).own? k = none)
    (h : Gives call m
      (match (m.object o).proto with
        | some p => getFrom n receiver p k
        | none => return .undefined) v m') :
    Gives call m (getFrom (n + 1) receiver o k) v m' := by
  rw [getFrom]
  refine .bind (getObject_gives o) ?_
  split
  next target handler hkind => simp [Object.isProxy, hkind] at hproxy
  next => exact .bind (findOwn_none hown) (.bind (getObject_gives o) h)

/-- An object that is no proxy tells that it lacks a property. -/
theorem ownFrom_none (hproxy : (m.object o).isProxy = false) (hown : (m.object o).own? k = none) :
    Gives call m (ownFrom (n + 1) o k) none m := by
  rw [ownFrom]
  refine .bind (getObject_gives o) ?_
  split
  next target handler hkind => simp [Object.isProxy, hkind] at hproxy
  next => exact findOwn_none hown

/-! ### Prototypes that let pass -/

/-- Each of the prototypes from one on is below a bound, no proxy, and has nothing at the key but
what is allowed; there are `n` of them at most. -/
inductive Engine.Passes (e : Engine) (limit : Nat) (k : Key) (allowed : Option Property → Prop) :
    Nat → Option ObjectId → Prop
  | none {n : Nat} : e.Passes limit k allowed n none
  | some {n : Nat} {o : ObjectId} (hlt : o < limit) (hsettled : (e.object o).Settled)
      (hproxy : (e.object o).isProxy = false) (hallowed : allowed ((e.object o).own? k))
      (hrest : e.Passes limit k allowed n (e.object o).proto) :
      e.Passes limit k allowed (n + 1) (some o)

theorem Engine.Passes.keeps {allowed : Option Property → Prop}
    (h : e.Passes limit k allowed n proto) (hkeeps : e.Keeps (· < limit) e')
    (hlimit : limit ≤ e.objects.size) : e'.Passes limit k allowed n proto := by
  induction h with
  | none => exact .none
  | some hlt hsettled hproxy hallowed _ ih =>
      have heq := hkeeps.object_eq _ (Nat.lt_of_lt_of_le hlt hlimit) hlt hsettled
      rw [← heq] at hsettled hproxy hallowed ih
      exact .some hlt hsettled hproxy hallowed ih

/-- What no prototype has is undefined. -/
theorem getFrom_undefined (h : m.Passes limit k (· = none) n proto) (hfuel : n ≤ fuel) :
    Gives call m
      (match proto with
        | some p => getFrom fuel receiver p k
        | none => return .undefined) .undefined m := by
  induction h generalizing fuel with
  | none => exact .pure
  | some _ _ hproxy hown _ ih =>
      cases fuel with
      | zero => exact absurd hfuel (Nat.not_succ_le_zero _)
      | succ fuel => exact getFrom_inherited hproxy hown (ih (Nat.le_of_succ_le_succ hfuel))

/-- A property that neither an object nor a prototype has is undefined. -/
theorem getProperty_undefined (hproxy : (m.object o).isProxy = false)
    (hown : (m.object o).own? k = none)
    (h : m.Passes limit k (· = none) n (m.object o).proto) (hn : n ≤ m.objects.size) :
    Gives call m (getProperty o k) .undefined m :=
  .bind .get (getFrom_inherited hproxy hown (getFrom_undefined h hn))

end HostView.Script
