import HostView.Script.Eval
import Mathlib.Data.List.Forall2

/-! # What a step gives

The rules by which the run of one step is followed on a machine. A step that succeeds gives a value
and leaves a machine; its parts run one after the other, each on the machine that the one before it
left. A part of the machine that an action leaves is as before when the action has ended, whether that
succeeds or throws.
-/

namespace HostView.Script

variable {call : Caller} {m m₁ m' : Machine} {ε ε' α β : Type}

/-- The action succeeds: it gives a value and leaves a machine. -/
def Succeeds (call : Caller) (m : Machine) (a : ExceptT ε Effect α) (v : α) (m' : Machine) : Prop :=
  (a.run.run call).run m = (.ok v, m')

/-- The routine succeeds. -/
def Gives (call : Caller) (m : Machine) (r : ExceptT ε Turn α) (v : α) (m' : Machine) : Prop :=
  (r.run.run.run call).run m = (.ok v, m')

/-- The action throws, and leaves a machine. -/
def Throws (call : Caller) (m : Machine) (a : ExceptT ε Effect α) (fault : ε) (m' : Machine) : Prop :=
  (a.run.run call).run m = (.error fault, m')

/-- An action gives one value only. -/
theorem Succeeds.unique {a : ExceptT ε Effect α} {v w : α} (h : Succeeds call m a v m₁)
    (h' : Succeeds call m a w m') : v = w ∧ m₁ = m' := by
  obtain ⟨hvalue, hmachine⟩ := Prod.mk.inj (h.symm.trans h')
  exact ⟨Except.ok.inj hvalue, hmachine⟩

/-- An action succeeds or throws. -/
theorem succeeds_or_throws (call : Caller) (m : Machine) (a : ExceptT ε Effect α) :
    (∃ v m', Succeeds call m a v m') ∨ ∃ fault m', Throws call m a fault m' := by
  rcases hrun : (a.run.run call).run m with ⟨fault | v, m'⟩
  · exact .inr ⟨fault, m', hrun⟩
  · exact .inl ⟨v, m', hrun⟩

theorem Succeeds.not_throws {a : ExceptT ε Effect α} {v : α} {fault : ε}
    (h : Succeeds call m a v m₁) : ¬Throws call m a fault m' := fun h' => by
  cases (Prod.mk.inj (h.symm.trans h')).1

/-- An action throws one fault only. -/
theorem Throws.unique {a : ExceptT ε Effect α} {fault fault' : ε} (h : Throws call m a fault m₁)
    (h' : Throws call m a fault' m') : fault = fault' ∧ m₁ = m' := by
  obtain ⟨hfault, hmachine⟩ := Prod.mk.inj (h.symm.trans h')
  exact ⟨Except.error.inj hfault, hmachine⟩

/-! ### Effects -/

theorem run_bind_eq {a : Effect α} {f : α → Effect β} {x : α}
    (ha : (a.run call).run m = (x, m₁)) :
    ((a >>= f).run call).run m = ((f x).run call).run m₁ := by
  have hrun : ((a >>= f).run call).run m =
      ((f ((a.run call).run m).1).run call).run ((a.run call).run m).2 := rfl
  rw [hrun, ha]

/-! ### Routines -/

namespace Gives

variable {r : ExceptT ε Turn α} {f : α → ExceptT ε Turn β} {v : α} {w : β}

theorem pure : Gives call m (Pure.pure v : ExceptT ε Turn α) v m := rfl

theorem bind (hr : Gives call m r v m₁) (hf : Gives call m₁ (f v) w m') :
    Gives call m (r >>= f) w m' := by
  have hrun : ((r >>= f).run.run.run call).run m =
      (((ExceptT.bindCont f ((r.run.run.run call).run m).1).run.run call).run
        ((r.run.run.run call).run m).2) := rfl
  unfold Gives at hr
  rw [Gives, hrun, hr]
  exact hf

/-- The engine is read. -/
theorem get : Gives call m (MonadState.get : ExceptT ε Turn Engine) m.toEngine m := rfl

/-- The engine is changed. -/
theorem modifyGet (f : Engine → α × Engine) :
    Gives call m (MonadState.modifyGet f : ExceptT ε Turn α) (f m.toEngine).1
      { m with toEngine := (f m.toEngine).2 } := rfl

theorem except {x : Except ε α} (hx : x = .ok v) :
    Gives call m (liftM x : ExceptT ε Turn α) v m := by
  subst hx
  rfl

/-- What is thrown may be looked at; nothing is thrown here. -/
theorem attempt (hr : Gives call m r v m') :
    Gives call m (liftM r.run : ExceptT ε' Turn (Except ε α)) (.ok v) m' := by
  have hrun : ((liftM r.run : ExceptT ε' Turn (Except ε α)).run.run.run call).run m =
      (.ok ((r.run.run.run call).run m).1, ((r.run.run.run call).run m).2) := rfl
  unfold Gives at hr
  rw [Gives, hrun, hr]

/-- Nothing is caught. -/
theorem tryCatch {handle : ε → ExceptT ε Turn α} (hr : Gives call m r v m') :
    Gives call m (MonadExcept.tryCatch r handle) v m' :=
  run_bind_eq hr

end Gives

/-- The routine gives a value and leaves an engine, whoever is called and whatever the bridge keeps. -/
def Engine.Runs (e : Engine) (r : ExceptT ε Turn α) (v : α) (e' : Engine) : Prop :=
  ∀ (call : Caller) (b : Bridge), Gives call ⟨e, b⟩ r v ⟨e', b⟩

namespace Engine.Runs

variable {e e₁ e' : Engine} {r : ExceptT ε Turn α} {f : α → ExceptT ε Turn β} {v : α} {w : β}

theorem pure : e.Runs (Pure.pure v : ExceptT ε Turn α) v e := fun _ _ => .pure

theorem bind (hr : e.Runs r v e₁) (hf : e₁.Runs (f v) w e') : e.Runs (r >>= f) w e' :=
  fun call b => .bind (hr call b) (hf call b)

theorem get : e.Runs (MonadState.get : ExceptT ε Turn Engine) e e := fun _ _ => .get

theorem modifyGet (f : Engine → α × Engine) :
    e.Runs (MonadState.modifyGet f : ExceptT ε Turn α) (f e).1 (f e).2 := fun _ _ => .modifyGet f

end Engine.Runs

/-! ### Actions -/

namespace Succeeds

variable {a : ExceptT ε Effect α} {f : α → ExceptT ε Effect β} {r : ExceptT ε Turn α} {v : α}
  {w : β}

theorem pure : Succeeds call m (Pure.pure v : ExceptT ε Effect α) v m := rfl

/-- What comes later runs on the machine that is left. -/
theorem bind_run (ha : Succeeds call m a v m₁) (f : α → ExceptT ε Effect β) :
    ((a >>= f).run.run call).run m = ((f v).run.run call).run m₁ := by
  have hrun : ((a >>= f).run.run call).run m =
      (((ExceptT.bindCont f ((a.run.run call).run m).1).run call).run
        ((a.run.run call).run m).2) := rfl
  unfold Succeeds at ha
  rw [hrun, ha]
  rfl

theorem bind (ha : Succeeds call m a v m₁) (hf : Succeeds call m₁ (f v) w m') :
    Succeeds call m (a >>= f) w m' :=
  (ha.bind_run f).trans hf

/-- The machine is read. -/
theorem get_bind {f : Machine → ExceptT ε Effect α} (h : Succeeds call m (f m) v m') :
    Succeeds call m (MonadState.get >>= f) v m' :=
  h

theorem modifyGet (f : Machine → α × Machine) :
    Succeeds call m (MonadState.modifyGet f : ExceptT ε Effect α) (f m).1 (f m).2 := rfl

/-- The machine is replaced. -/
theorem set (m' : Machine) : Succeeds call m (MonadStateOf.set m' : ExceptT ε Effect PUnit) ⟨⟩ m' :=
  rfl

/-- What the engine does by itself is part of an action. -/
theorem routine (hr : Gives call m r v m') :
    Succeeds call m (liftM r : ExceptT ε Effect α) v m' :=
  hr

theorem except {x : Except ε α} (hx : x = .ok v) :
    Succeeds call m (liftM x : ExceptT ε Effect α) v m := by
  subst hx
  rfl

/-- What cannot throw succeeds. -/
theorem effect {a : Effect α} (ha : (a.run call).run m = (v, m')) :
    Succeeds call m (liftM a : ExceptT ε Effect α) v m' := by
  have hrun : ((liftM a : ExceptT ε Effect α).run.run call).run m =
      (.ok ((a.run call).run m).1, ((a.run call).run m).2) := rfl
  rw [Succeeds, hrun, ha]

theorem adapt (path : ε → ε') (ha : Succeeds call m a v m') :
    Succeeds call m (ExceptT.adapt path a) v m' := by
  have hrun : ((ExceptT.adapt path a).run.run call).run m =
      (((a.run.run call).run m).1.mapError path, ((a.run.run call).run m).2) := rfl
  unfold Succeeds at ha
  rw [Succeeds, hrun, ha]
  rfl

/-- A loop succeeds if every round does; what each round preserves holds at the end. -/
theorem forM {body : α → ExceptT ε Effect Unit} {xs : List α} (P : List α → Machine → Prop)
    (hstart : P [] m)
    (hround : ∀ done x rest, xs = done ++ x :: rest → ∀ m, P done m →
      ∃ m', Succeeds call m (body x) () m' ∧ P (done ++ [x]) m') :
    ∃ m', Succeeds call m (xs.forM body) () m' ∧ P xs m' := by
  -- the induction is on what is left, for whatever was done before
  have hrest : ∀ rest done m, xs = done ++ rest → P done m →
      ∃ m', Succeeds call m (rest.forM body) () m' ∧ P xs m' := by
    intro rest
    induction rest with
    | nil =>
        intro done m hxs hdone
        rw [List.append_nil] at hxs
        exact ⟨m, .pure, hxs ▸ hdone⟩
    | cons x rest ih =>
        intro done m hxs hdone
        obtain ⟨m₁, hfirst, h₁⟩ := hround done x rest hxs m hdone
        obtain ⟨m₂, hrest, h₂⟩ := ih (done ++ [x]) m₁ (by simpa using hxs) h₁
        exact ⟨m₂, .bind hfirst hrest, h₂⟩
  exact hrest xs [] m rfl hstart

theorem range_forM {body : Nat → ExceptT ε Effect Unit} {n : Nat} (P : Nat → Machine → Prop)
    (hstart : P 0 m)
    (hround : ∀ i < n, ∀ m, P i m → ∃ m', Succeeds call m (body i) () m' ∧ P (i + 1) m') :
    ∃ m', Succeeds call m ((List.range n).forM body) () m' ∧ P n m' := by
  have hrounds : ∃ m', Succeeds call m ((List.range n).forM body) () m' ∧
      P (List.range n).length m' := by
    refine forM (fun done => P done.length) hstart fun done i rest hsplit m hm => ?_
    obtain ⟨hlt, hi⟩ : done.length < n ∧ i = done.length := by
      have hat : (List.range n)[done.length]? = some i := by simp [hsplit]
      obtain ⟨hlt, hget⟩ := List.getElem?_eq_some_iff.mp hat
      exact ⟨by simpa using hlt, by simpa using hget.symm⟩
    subst hi
    simpa using hround _ hlt m hm
  simpa using hrounds

/-- Actions run one after the other give their results in a list; what each of them preserves holds at
the end. -/
theorem mapM {g : α → ExceptT ε Effect β} {xs : List α} {ys : List β} (P : Machine → Prop)
    (hstart : P m)
    (hround : List.Forall₂
      (fun x y => ∀ m, P m → ∃ m', Succeeds call m (g x) y m' ∧ P m') xs ys) :
    ∃ m', Succeeds call m (xs.mapM g) ys m' ∧ P m' := by
  induction hround generalizing m with
  | nil => exact ⟨m, .pure, hstart⟩
  | cons hx _ ih =>
      obtain ⟨m₁, hfirst, h₁⟩ := hx m hstart
      obtain ⟨m₂, hrest, h₂⟩ := ih h₁
      rw [List.mapM_cons]
      exact ⟨m₂, .bind hfirst (.bind hrest .pure), h₂⟩

end Succeeds

/-! ### Calls -/

/-- A call runs what the function does, with one more call open. -/
theorem callValue_gives {g : ObjectId} {f : Callable} {constructs : Bool} {this v : Value}
    {arguments : List Value} {n : Nat} (hkind : (m.object g).kind = .function f constructs)
    (h : Succeeds (invoke n) m (f.perform g (.call this) arguments) v m') :
    Gives (invoke (n + 1)) m (callValue (.object g) this arguments) v m' := by
  have hobject : Gives (invoke n) m (getObject g) (m.object g) m := rfl
  have hperform : Succeeds (invoke n) m (performCall g (.call this) arguments) v m' := by
    unfold performCall
    refine .bind (.routine hobject) ?_
    rw [hkind]
    exact h
  unfold callValue
  refine .bind .get ?_
  rw [hkind]
  exact hperform

/-! ### Throwing -/

theorem Throws.bind {a : ExceptT ε Effect α} {f : α → ExceptT ε Effect β} {fault : ε}
    (ha : Throws call m a fault m') : Throws call m (a >>= f) fault m' := by
  have hrun : ((a >>= f).run.run call).run m =
      (((ExceptT.bindCont f ((a.run.run call).run m).1).run call).run
        ((a.run.run call).run m).2) := rfl
  unfold Throws at ha
  rw [Throws, hrun, ha]
  rfl

theorem Throws.adapt {a : ExceptT ε Effect α} {fault : ε} (path : ε → ε') (ha : Throws call m a fault m') :
    Throws call m (ExceptT.adapt path a) (path fault) m' := by
  have hrun : ((ExceptT.adapt path a).run.run call).run m =
      (((a.run.run call).run m).1.mapError path, ((a.run.run call).run m).2) := rfl
  unfold Throws at ha
  rw [Throws, hrun, ha]
  rfl

theorem Throws.get_bind {f : Machine → ExceptT ε Effect α} {fault : ε}
    (h : Throws call m (f m) fault m') : Throws call m (MonadState.get >>= f) fault m' :=
  h

/-- What comes later may throw. -/
theorem Succeeds.bind_throws {a : ExceptT ε Effect α} {f : α → ExceptT ε Effect β} {v : α} {fault : ε}
    (ha : Succeeds call m a v m₁) (hf : Throws call m₁ (f v) fault m') :
    Throws call m (a >>= f) fault m' :=
  (ha.bind_run f).trans hf

/-- Where two steps succeed, the first one does, and then the second. -/
theorem Succeeds.of_bind {a : ExceptT ε Effect α} {f : α → ExceptT ε Effect β} {w : β}
    (h : Succeeds call m (a >>= f) w m') :
    ∃ v m₁, Succeeds call m a v m₁ ∧ Succeeds call m₁ (f v) w m' := by
  obtain ⟨v, m₁, ha⟩ | ⟨fault, m₁, ha⟩ := succeeds_or_throws call m a
  · exact ⟨v, m₁, ha, (ha.bind_run f).symm.trans h⟩
  · exact absurd ha.bind h.not_throws

/-- Where two steps throw, the first one does, or else the second. -/
theorem Throws.of_bind {a : ExceptT ε Effect α} {f : α → ExceptT ε Effect β} {fault : ε}
    (h : Throws call m (a >>= f) fault m') :
    Throws call m a fault m' ∨ ∃ v m₁, Succeeds call m a v m₁ ∧ Throws call m₁ (f v) fault m' := by
  obtain ⟨v, m₁, ha⟩ | ⟨fault', m₁, ha⟩ := succeeds_or_throws call m a
  · exact .inr ⟨v, m₁, ha, (ha.bind_run f).symm.trans h⟩
  · obtain ⟨rfl, rfl⟩ := ha.bind.unique h
    exact .inl ha

/-! ### What an action leaves -/

section

variable {σ : Type} {part : Machine → σ}

/-- Whether the action succeeds or throws, the part of the machine is as before. -/
def Leaves (part : Machine → σ) (call : Caller) (m : Machine) (a : ExceptT ε Effect α) : Prop :=
  part ((a.run.run call).run m).2 = part m

namespace Leaves

variable {a : ExceptT ε Effect α} {f : α → ExceptT ε Effect β} {v : α}

theorem pure : Leaves part call m (Pure.pure v : ExceptT ε Effect α) := rfl

theorem throw (fault : ε) : Leaves part call m (MonadExcept.throw fault : ExceptT ε Effect α) := rfl

theorem of_succeeds (ha : Succeeds call m a v m') (hpart : part m' = part m) : Leaves part call m a := by
  rw [Leaves, ha]
  exact hpart

theorem of_throws {fault : ε} (ha : Throws call m a fault m') (hpart : part m' = part m) :
    Leaves part call m a := by
  rw [Leaves, ha]
  exact hpart

theorem eq (h : Leaves part call m a) (ha : Succeeds call m a v m') : part m' = part m := by
  rwa [Leaves, ha] at h

/-- What comes later leaves the part on every machine that has it, or nothing comes later. -/
theorem bind (ha : Leaves part call m a)
    (hf : ∀ v m₁, part m₁ = part m → Leaves part call m₁ (f v)) : Leaves part call m (a >>= f) := by
  obtain ⟨v, m₁, hrun⟩ | ⟨fault, m₁, hrun⟩ := succeeds_or_throws call m a
  · have hpart := ha.eq hrun
    rw [Leaves, hrun.bind_run f]
    exact (hf v m₁ hpart).trans hpart
  · rw [Leaves, hrun] at ha
    exact .of_throws hrun.bind ha

theorem map {g : α → β} (ha : Leaves part call m a) : Leaves part call m (g <$> a) := by
  rw [map_eq_pure_bind]
  exact ha.bind fun _ _ _ => pure

/-- Whether it succeeds or throws may be asked. -/
theorem attempt (ha : Leaves part call m a) :
    Leaves part call m (liftM a.run : ExceptT ε' Effect (Except ε α)) := ha

theorem get_bind {f : Machine → ExceptT ε Effect α} (h : Leaves part call m (f m)) :
    Leaves part call m (MonadState.get >>= f) :=
  h

theorem modifyGet {f : Machine → α × Machine} (hf : part (f m).2 = part m) :
    Leaves part call m (MonadState.modifyGet f : ExceptT ε Effect α) := hf

end Leaves

end

end HostView.Script
