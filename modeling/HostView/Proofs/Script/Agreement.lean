import HostView.Script.Routine

/-! # How two runs agree

The rules by which two runs of a step are followed side by side. Each starts with one engine over
two bridges that are alike; what a step may rely on is what the discipline says of the bridges and
what earlier steps told of their results.
-/

namespace HostView.Script

variable {ε ε' α β : Type}

/-- What is given is as `post` says, and what is thrown is as `blame` says. -/
def Judged (post : α → Bridge → Prop) (blame : ε → Prop) : Except ε α → Bridge → Prop
  | .ok v, b => post v b
  | .error fault, _ => blame fault

theorem Judged.imp {post post' : α → Bridge → Prop} {blame blame' : ε → Prop} {x : Except ε α}
    {b : Bridge} (h : Judged post blame x b) (hpost : ∀ v, post v b → post' v b)
    (hblame : ∀ fault, blame fault → blame' fault) : Judged post' blame' x b := by
  cases x with
  | ok v => exact hpost v h
  | error fault => exact hblame fault h

/-! ### Routines -/

/-- Wherever the routine is run, what it gives is as `good` says, and what it throws is as `blame`
says. -/
def Ensures (r : ExceptT ε Turn α) (good : α → Prop) (blame : ε → Prop) : Prop :=
  ∀ call m b, Judged (fun v _ => good v) blame ((r.run.run.run call).run m).1 b

namespace Ensures

variable {r : ExceptT ε Turn α} {good : α → Prop} {blame : ε → Prop}

theorem pure {v : α} (hv : good v) : Ensures (Pure.pure v : ExceptT ε Turn α) good blame :=
  fun _ _ _ => hv

theorem throw {fault : ε} (hfault : blame fault) :
    Ensures (MonadExcept.throw fault : ExceptT ε Turn α) good blame :=
  fun _ _ _ => hfault

theorem bind {f : α → ExceptT ε Turn β} {good' : β → Prop} (hr : Ensures r good blame)
    (hf : ∀ v, good v → Ensures (f v) good' blame) : Ensures (r >>= f) good' blame := by
  intro call m b
  have hrun : ((r >>= f).run.run.run call).run m =
      (((ExceptT.bindCont f ((r.run.run.run call).run m).1).run call).run
        ((r.run.run.run call).run m).2) := rfl
  have hfirst := hr call m b
  rw [hrun]
  cases hx : ((r.run.run.run call).run m).1 with
  | ok v =>
      rw [hx] at hfirst
      exact hf v hfirst call _ b
  | error fault =>
      rw [hx] at hfirst
      exact hfirst

theorem mono {good' : α → Prop} (hr : Ensures r good blame) (hgood : ∀ v, good v → good' v) :
    Ensures r good' blame :=
  fun call m b => (hr call m b).imp hgood fun _ => id

theorem get_bind {f : Engine → ExceptT ε Turn α} (hf : ∀ e, Ensures (f e) good blame) :
    Ensures (get >>= f) good blame :=
  fun call m b => hf m.toEngine call m b

theorem except {x : Except ε α} (hx : ∀ b, Judged (fun v _ => good v) blame x b) :
    Ensures (liftM x : ExceptT ε Turn α) good blame :=
  fun _ _ b => hx b

/-- What is thrown may be looked at. -/
theorem attempt (r : ExceptT ε' Turn α) :
    Ensures (liftM r.run : ExceptT ε Turn (Except ε' α)) (fun _ => True) blame :=
  fun _ _ _ => trivial

end Ensures

namespace Discipline

variable {D : Discipline} {call : Caller} {e : Engine} {b c : Bridge}

/-! ### Effects -/

theorem Ends.pure {post : α → Bridge → Prop} {x : α} (halike : D.alike b c) (hpost : post x b) :
    D.Ends call e b c (Pure.pure x) (Pure.pure x) post :=
  ⟨rfl, rfl, halike, D.leads_refl b, hpost⟩

theorem Ends.mono {a a' : Effect α} {post post' : α → Bridge → Prop}
    (h : D.Ends call e b c a a' post) (hpost : ∀ x b', D.leads b b' → post x b' → post' x b') :
    D.Ends call e b c a a' post' :=
  ⟨h.result, h.engine, h.alike, h.leads, hpost _ _ h.leads h.post⟩

theorem Ends.get_bind {f f' : Machine → Effect α} {post : α → Bridge → Prop}
    (h : D.Ends call e b c (f ⟨e, b⟩) (f' ⟨e, c⟩) post) :
    D.Ends call e b c (get >>= f) (get >>= f') post :=
  h

theorem Ends.turn (hcall : D.Lawful call) (halike : D.alike b c) (t : Turn α) :
    D.Ends call e b c (liftM t) (liftM t) fun _ _ => True :=
  t.keeps D call hcall e b c halike

/-! ### Steps that may throw -/

/-- Two steps end alike, and `post` holds of what they give unless they throw, when `blame` holds of what
they throw. -/
def Agrees (D : Discipline) (call : Caller) (e : Engine) (b c : Bridge)
    (a a' : ExceptT ε Effect α) (post : α → Bridge → Prop) (blame : ε → Prop := fun _ => True) :
    Prop :=
  D.Ends call e b c a.run a'.run (Judged post blame)

namespace Agrees

variable {a a' : ExceptT ε Effect α} {f f' : α → ExceptT ε Effect β} {post : α → Bridge → Prop}
  {blame : ε → Prop}

theorem pure {x : α} (halike : D.alike b c) (hpost : post x b) :
    D.Agrees call e b c (Pure.pure x : ExceptT ε Effect α) (Pure.pure x) post blame :=
  Ends.pure halike hpost

theorem throw {fault : ε} (halike : D.alike b c) (hblame : blame fault := by exact trivial) :
    D.Agrees call e b c (MonadExcept.throw fault : ExceptT ε Effect α) (MonadExcept.throw fault)
      post blame :=
  Ends.pure halike hblame

theorem mono {post' : α → Bridge → Prop} (h : D.Agrees call e b c a a' post blame)
    (hpost : ∀ x b', D.leads b b' → post x b' → post' x b') :
    D.Agrees call e b c a a' post' blame :=
  Ends.mono h fun _ b' hleads hx => hx.imp (hpost · b' hleads) fun _ => id

theorem bind {P : α → Bridge → Prop} {post : β → Bridge → Prop}
    (ha : D.Agrees call e b c a a' P blame)
    (hf : ∀ x e' b' c', D.alike b' c' → D.leads b b' → P x b' →
      D.Agrees call e' b' c' (f x) (f' x) post blame) :
    D.Agrees call e b c (a >>= f) (a' >>= f') post blame := by
  rw [Agrees, ExceptT.run_bind, ExceptT.run_bind]
  refine Ends.bind ha fun x e' b' c' halike hleads hx => ?_
  cases x with
  | ok v => exact hf v e' b' c' halike hleads hx
  | error fault => exact Ends.pure halike hx

theorem map {P : α → Bridge → Prop} {post : β → Bridge → Prop} {g : α → β}
    (ha : D.Agrees call e b c a a' P blame) (hg : ∀ x b', P x b' → post (g x) b') :
    D.Agrees call e b c (g <$> a) (g <$> a') post blame := by
  rw [map_eq_pure_bind, map_eq_pure_bind]
  exact .bind ha fun x _ b' _ halike _ hx => .pure halike (hg x b' hx)

theorem get_bind {f f' : Machine → ExceptT ε Effect α}
    (h : D.Agrees call e b c (f ⟨e, b⟩) (f' ⟨e, c⟩) post blame) :
    D.Agrees call e b c (get >>= f) (get >>= f') post blame :=
  h

/-- The bridge may be changed to bridges that are alike and to which the discipline leads. -/
theorem modifyBridge {f f' : Machine → α × Machine} {x : α} {b' c' : Bridge}
    (hb : f ⟨e, b⟩ = (x, ⟨e, b'⟩)) (hc : f' ⟨e, c⟩ = (x, ⟨e, c'⟩)) (halike : D.alike b' c')
    (hleads : D.leads b b') (hpost : post x b') :
    D.Agrees call e b c (modifyGet f : ExceptT ε Effect α) (modifyGet f') post blame := by
  have hleft : (((modifyGet f : ExceptT ε Effect α).run.run call).run ⟨e, b⟩) =
      (.ok (f ⟨e, b⟩).1, (f ⟨e, b⟩).2) := rfl
  have hright : (((modifyGet f' : ExceptT ε Effect α).run.run call).run ⟨e, c⟩) =
      (.ok (f' ⟨e, c⟩).1, (f' ⟨e, c⟩).2) := rfl
  rw [Agrees, Ends, hleft, hright, hb, hc]
  exact ⟨rfl, rfl, halike, hleads, hpost⟩

/-- What the engine does by itself ends alike whatever the discipline is. -/
theorem routine (hcall : D.Lawful call) (halike : D.alike b c) (r : ExceptT ε Turn α) :
    D.Agrees call e b c (liftM r : ExceptT ε Effect α) (liftM r) fun _ _ => True := by
  refine (Ends.turn hcall halike r.run).mono fun x _ _ _ => ?_
  cases x <;> trivial

theorem ensured (hcall : D.Lawful call) (halike : D.alike b c) {r : ExceptT ε Turn α}
    {good : α → Prop} (hr : Ensures r good blame) :
    D.Agrees call e b c (liftM r : ExceptT ε Effect α) (liftM r) (fun v _ => good v) blame :=
  { Ends.turn hcall halike r.run with post := hr call ⟨e, b⟩ _ }

/-- A step of a machine that cannot throw. -/
theorem effect {a a' : Effect α} (h : D.Ends call e b c a a' post) :
    D.Agrees call e b c (liftM a : ExceptT ε Effect α) (liftM a') post blame := by
  have hends : D.Ends call e b c (a >>= fun x => Pure.pure (Except.ok x))
      (a' >>= fun x => Pure.pure (Except.ok x)) (Judged post blame) :=
    Ends.bind h fun _ _ _ _ halike _ hx => Ends.pure halike hx
  exact hends

/-- An outcome that no run can change. -/
theorem except (halike : D.alike b c) {x : Except ε α} (hx : Judged post blame x b) :
    D.Agrees call e b c (liftM x : ExceptT ε Effect α) (liftM x) post blame :=
  Ends.pure halike hx

/-- What is thrown may be looked at. -/
theorem attempt (h : D.Agrees call e b c a a' post blame) {blame' : ε' → Prop} :
    D.Agrees call e b c (liftM a.run : ExceptT ε' Effect (Except ε α)) (liftM a'.run)
      (Judged post blame) blame' :=
  effect h

theorem adapt (path : ε → ε') (h : D.Agrees call e b c a a' post blame) {blame' : ε' → Prop}
    (hpath : ∀ fault, blame fault → blame' (path fault) := by exact fun _ _ => trivial) :
    D.Agrees call e b c (ExceptT.adapt path a) (ExceptT.adapt path a') post blame' := by
  refine Ends.bind h fun x e' b' c' halike _ hx => Ends.pure halike ?_
  cases x with
  | ok w => exact hx
  | error fault => exact hpath fault hx

/-- A loop ends alike if each round does, wherever the discipline leads. -/
theorem forM {ι : Type} {g g' : ι → ExceptT ε Effect PUnit} (items : List ι)
    (halike : D.alike b c)
    (hround : ∀ i ∈ items, ∀ e' b' c', D.alike b' c' → D.leads b b' →
      D.Agrees call e' b' c' (g i) (g' i) (fun _ _ => True) blame) :
    D.Agrees call e b c (items.forM g) (items.forM g') (fun _ _ => True) blame := by
  induction items generalizing e b c with
  | nil => exact .pure halike trivial
  | cons i items ih =>
      have hfirst := hround i List.mem_cons_self e b c halike (D.leads_refl b)
      refine .bind hfirst fun _ e' b' c' halike' hleads _ => ?_
      exact ih halike' fun j hj e'' b'' c'' halike'' hleads' =>
        hround j (List.mem_cons_of_mem i hj) e'' b'' c'' halike'' (D.leads_trans hleads hleads')

end Agrees

end Discipline

end HostView.Script
