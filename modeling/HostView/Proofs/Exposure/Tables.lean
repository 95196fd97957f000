import HostView.Exposure.Writing
import HostView.Proofs.Exposure.Naming
import HostView.Proofs.Host.Tables
import HostView.Proofs.Script.Running

/-! # Live tables

What the methods of a live table come to at a name. The name is resolved to a key, and from there on
the table is read and written at that key, whatever the name looks like.
-/

namespace HostView.Script

variable {m : Machine} {call : Caller} {ε α β : Type} {target : ObjectId} {r : Receiver}
  {key : AtomType} {yieldType : Option HostType} {name : String} {k : Key} {v : Value} {a : Atom}
  {yield : Option Ref} {entries : Entries Entry}

/-! ### Actions that are one on a machine -/

/-- On the machine the actions do the same, however functions are called. -/
def SameOn (m : Machine) (a a' : ExceptT ε Effect α) : Prop :=
  ∀ call, (a.run.run call).run m = (a'.run.run call).run m

namespace SameOn

variable {x x' : ExceptT ε Effect α}

theorem refl : SameOn m x x := fun _ => rfl

theorem get_bind {f : Machine → ExceptT ε Effect α} (h : SameOn m (f m) x) :
    SameOn m (MonadState.get >>= f) x :=
  h

theorem classify {f : PropertyName → Action α} {x : Action α} {p : PropertyName}
    (hp : PropertyName.ofKey k = .ok p) (h : SameOn m (f p) x) :
    SameOn m (liftM (classify k) >>= f) x := by
  have hclassify : Script.classify k = pure p := by
    unfold Script.classify
    rw [hp]
  rw [hclassify]
  exact h

theorem succeeds {v : α} {m' : Machine} (h : SameOn m x x') (hx : Succeeds call m x' v m') :
    Succeeds call m x v m' :=
  (h call).trans hx

theorem throws {fault : ε} {m' : Machine} (h : SameOn m x x') (hx : Throws call m x' fault m') :
    Throws call m x fault m' :=
  (h call).trans hx

end SameOn

/-- On the one machine the first action does what the second one does on the other machine, however
functions are called. -/
def Becomes (m : Machine) (x : ExceptT ε Effect α) (m' : Machine) (x' : ExceptT ε Effect α) : Prop :=
  ∀ call, (x.run.run call).run m = (x'.run.run call).run m'

namespace Becomes

variable {x x' : ExceptT ε Effect α} {m₁ m₂ : Machine}

theorem refl : Becomes m x m x := fun _ => rfl

/-- A first step that succeeds is done. -/
theorem step {a : ExceptT ε Effect β} {f : β → ExceptT ε Effect α} {b : β}
    (ha : ∀ call, Succeeds call m a b m₁) (h : Becomes m₁ (f b) m₂ x) :
    Becomes m (a >>= f) m₂ x :=
  fun call => ((ha call).bind_run f).trans (h call)

theorem bind {f : α → ExceptT ε Effect β} (h : Becomes m x m₁ x') :
    Becomes m (x >>= f) m₁ (x' >>= f) := by
  intro call
  have hrun (m : Machine) (x : ExceptT ε Effect α) : ((x >>= f).run.run call).run m =
      (((ExceptT.bindCont f ((x.run.run call).run m).1).run call).run
        ((x.run.run call).run m).2) := rfl
  rw [hrun, hrun, h call]

theorem succeeds {v : α} {m' : Machine} (h : Becomes m x m₁ x') (hx : Succeeds call m₁ x' v m') :
    Succeeds call m x v m' :=
  (h call).trans hx

theorem throws {fault : ε} {m' : Machine} (h : Becomes m x m₁ x') (hx : Throws call m₁ x' fault m') :
    Throws call m x fault m' :=
  (h call).trans hx

end Becomes

theorem SameOn.becomes {x x' x'' : ExceptT ε Effect α} {m' : Machine} (h : SameOn m x x')
    (h' : Becomes m x' m' x'') : Becomes m x m' x'' :=
  fun call => (h call).trans (h' call)

/-! ### Reading -/

/-- The object stands for a table of the given types. -/
structure Machine.Stands (m : Machine) (target : ObjectId) (r : Receiver) (key : AtomType)
    (yieldType : Option HostType) : Prop where
  receiver : m.receiver? target = some r
  kind : r.kind = .table
  typeOf_eq : m.heap.typeOf r.value = .table key yieldType

namespace Machine.Stands

variable (h : m.Stands target r key yieldType)

include h

theorem tableAtom_eq (p : PropertyName) : tableAtom m r p = p.toAtom key := by
  unfold tableAtom
  rw [h.typeOf_eq]

theorem readEntry_eq {p : PropertyName} (hp : PropertyName.ofKey (.name name) = .ok p) :
    SameOn m (readEntry r p)
      (match key.keyOfName name with
        | .error _ => unanswered r name .inherited
        | .ok a =>
          match m.heap.entryAt? r.value a with
          | some e => do return .value (← entryValue r e)
          | none => unanswered r name (.value .undefined)) := by
  unfold readEntry
  apply SameOn.get_bind
  rw [h.tableAtom_eq p, PropertyName.toAtom_of_ofKey hp, PropertyName.render_of_ofKey hp]
  cases key.keyOfName name with
  | error => exact .refl
  | ok a =>
      apply SameOn.get_bind
      dsimp only
      cases m.heap.entryAt? r.value a <;> exact .refl

/-- A name is read at the key that it denotes. -/
theorem hostGet_name (name : String) : SameOn m (hostGet target (.name name))
    (match key.keyOfName name with
      | .error _ => unanswered r name .inherited
      | .ok a =>
        match m.heap.entryAt? r.value a with
        | some e => do return .value (← entryValue r e)
        | none => unanswered r name (.value .undefined)) := by
  obtain ⟨p, hp, hsymbol⟩ := PropertyName.ofKey_name name
  have hread := h.readEntry_eq hp
  unfold hostGet
  apply SameOn.get_bind
  rw [h.receiver]
  apply SameOn.classify hp
  rw [h.kind]
  cases p with
  | symbol s => exact absurd rfl (hsymbol s)
  | index | name => exact hread

theorem hostHas_name (call : Caller) (name : String) : Succeeds call m (hostHas target (.name name))
    ((key.keyOfName name).toOption.bind (m.heap.entryAt? r.value)).isSome m := by
  obtain ⟨p, hp, hsymbol⟩ := PropertyName.ofKey_name name
  have hkey : (match tableAtom m r p with
      | .error _ => pure false
      | .ok a => do return ((← get).heap.entryAt? r.value a).isSome : Action Bool) =
      (match key.keyOfName name with
      | .error _ => pure false
      | .ok a => do return ((← get).heap.entryAt? r.value a).isSome) := by
    rw [h.tableAtom_eq p, PropertyName.toAtom_of_ofKey hp]
  have hhas : SameOn m (hostHas target (.name name)) (match key.keyOfName name with
      | .error _ => pure false
      | .ok a => do return ((← get).heap.entryAt? r.value a).isSome) := by
    unfold hostHas
    apply SameOn.get_bind
    rw [h.receiver]
    apply SameOn.classify hp
    rw [h.kind]
    rw [← hkey]
    cases p with
    | symbol s => exact absurd rfl (hsymbol s)
    | index | name => exact .refl
  apply hhas.succeeds
  cases key.keyOfName name <;> rfl

/-- A property is described at the key that its name denotes. -/
theorem hostProperty_name (name : String) : SameOn m (hostProperty target (.name name))
    (match (key.keyOfName name).toOption.bind (m.heap.entryAt? r.value) with
      | some e => do return some (.plain (← entryValue r e))
      | none => return none) := by
  obtain ⟨p, hp, hsymbol⟩ := PropertyName.ofKey_name name
  have hkey := h.tableAtom_eq p
  rw [PropertyName.toAtom_of_ofKey hp] at hkey
  unfold hostProperty
  apply SameOn.get_bind
  rw [h.receiver]
  apply SameOn.classify hp
  rw [h.kind]
  cases p with
  | symbol s => exact absurd rfl (hsymbol s)
  | index | name =>
      apply SameOn.get_bind
      rw [hkey]
      cases key.keyOfName name with
      | error => exact .refl
      | ok a =>
          apply SameOn.get_bind
          simp only [Except.toOption, Option.bind_some]
          cases m.heap.entryAt? r.value a <;> exact .refl

theorem hostKeys_gives (call : Caller) (hcontent : m.heap.contentOf r.value = .table entries) :
    Succeeds call m (hostKeys target) (entries.map fun x => x.1.render key) m := by
  have hnames : shownNames m.heap r = entries.map fun x => x.1.render key := by
    simp only [shownNames, h.kind, Heap.cell_eq, h.typeOf_eq, hcontent]
  unfold hostKeys
  apply Succeeds.get_bind
  rw [h.receiver, Option.map_some, Option.getD_some, hnames]
  exact .pure

end Machine.Stands

/-! ### Writing -/

/-- The action throws and leaves the machine. -/
def Fails (call : Caller) (m : Machine) (x : ExceptT ε Effect α) (m' : Machine) : Prop :=
  ∃ fault, (x.run.run call).run m = (.error fault, m')

theorem Fails.bind {x : ExceptT ε Effect α} {f : α → ExceptT ε Effect β} {m' : Machine}
    (hx : Fails call m x m') : Fails call m (x >>= f) m' := by
  obtain ⟨fault, hfault⟩ := hx
  exact ⟨fault, Throws.bind hfault⟩

theorem changeHost_gives {change : Heap → Except HostFault Heap} {g : Heap}
    (hchange : change m.heap = .ok g) :
    Succeeds call m (changeHost change) () { m with heap := g } := by
  unfold changeHost
  apply Succeeds.get_bind
  rw [hchange]
  exact .set _

theorem removeEntry_gives (call : Caller) (htype : m.heap.typeOf r.value = .table key yieldType)
    (hcontent : m.heap.contentOf r.value = .table entries) (a : Atom) :
    Succeeds call m (removeEntry r a) ()
      { m with heap := m.heap.update r.value (.table (entries.erase a)) } := by
  have hparts := Heap.tableParts_eq_ok.mpr ⟨htype, hcontent⟩
  apply changeHost_gives
  simp [Heap.tableErase, hparts, bind, Except.bind, pure, Except.pure]

theorem convertFor_gives {path : ConversionFault → ConversionFault} {type : HostType} {s : Ref}
    {m' : Machine} (h : ((toHost type v).run.run call).run m = (.ok s, m')) :
    Succeeds call m (convertFor path type v) s m' := by
  unfold convertFor
  exact .bind (.effect h) .pure

namespace Machine.Stands

variable (h : m.Stands target r key yieldType)

include h

/-- An entry is taken out by any name of its key. Another name leads to nothing that could be. -/
theorem hostDelete_key (name : String) : SameOn m (hostDelete target (.name name))
    (match key.keyOfName name with
      | .error _ => pure ()
      | .ok a => removeEntry r a) := by
  obtain ⟨p, hp, hsymbol⟩ := PropertyName.ofKey_name name
  have hkey := h.tableAtom_eq p
  rw [PropertyName.toAtom_of_ofKey hp] at hkey
  unfold hostDelete
  apply SameOn.get_bind
  rw [h.receiver]
  apply SameOn.classify hp
  rw [h.kind]
  cases p with
  | symbol s => exact absurd rfl (hsymbol s)
  | index | name =>
      apply SameOn.get_bind
      rw [hkey]
      cases key.keyOfName name <;> exact .refl

theorem hostDelete_name (call : Caller) (hcontent : m.heap.contentOf r.value = .table entries)
    (name : String) :
    Succeeds call m (hostDelete target (.name name)) ()
      (match key.keyOfName name with
        | .error _ => m
        | .ok a => { m with heap := m.heap.update r.value (.table (entries.erase a)) }) := by
  apply (h.hostDelete_key name).succeeds
  cases key.keyOfName name with
  | error => exact .pure
  | ok a => exact removeEntry_gives call h.typeOf_eq hcontent a

end Machine.Stands

end HostView.Script
