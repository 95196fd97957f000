import HostView.Proofs.Exposure.Writing
import HostView.Script.Eval

/-! # Calls

Whatever a script calls, its calls keep kin bridges twins: the methods behind live values do, and
all else that a function can do is the work of the engine. The bound on open calls carries the
induction.
-/

namespace HostView.Script

open Discipline

variable {P : Policy} {fixed : Prop} {old : Nat} {b c : Bridge} {call : Caller}
  {e : Engine}

/-! ### Methods of live values -/

namespace Trap

/-- The machine in which the method looks up the live value. Before a property is defined, its
description is read. -/
def lookup (t : Trap) (arguments : List Value) (call : Caller) (m : Machine) : Machine :=
  match t, argument arguments 2 with
  | .define, .object description =>
    ((((liftM (readRequest description) : Action Descriptor).run).run call).run m).2
  | _, _ => m

/-- The methods that may change a live value. -/
def Changes : Trap → Prop
  | .set | .define | .delete => True
  | _ => False

/-- The places of host values at which the method may write. -/
def Opens (t : Trap) (arguments : List Value) (call : Caller) (m : Machine) (s : Ref)
    (place : Place) : Prop :=
  t.Changes ∧ ∃ target, argument arguments 0 = .object target ∧
    (t.lookup arguments call m).Opens target s place

end Trap

section

variable (hcall : (kin P fixed old).Lawful call) (h : Bridge.Kin P old b c)

include hcall h

omit hcall in
/-- What needs an object goes on with the object, or throws. -/
theorem needObject_writes {α : Type} {f f' : ObjectId → Action α} {v : Value}
    {may : Ref → Place → Prop}
    (hf : ∀ o, v = .object o → Writes P fixed old call e b c (f o) (f' o) may) :
    Writes P fixed old call e b c (liftM (needObject v) >>= f) (liftM (needObject v) >>= f')
      may := by
  cases v with
  | object o => exact hf o rfl
  | _ => exact .of_agrees (Q := fun _ _ => True) (.throw h)

theorem trap_writes (t : Trap) (arguments : List Value) :
    Writes P fixed old call e b c (t.perform arguments) (t.perform arguments)
      (t.Opens arguments call ⟨e, b⟩) := by
  unfold Trap.perform
  refine needObject_writes h fun target htarget => ?_
  cases t with
  | get =>
      refine .of_agrees (Q := fun _ _ => True) ?_
      refine .bind (hostGet_agrees hcall h target _) fun found e₂ b₂ c₂ h₂ _ _ => ?_
      split
      next => exact .pure h₂ trivial
      next => exact .routine hcall h₂ _
  | set =>
      have hset := hostSet_writes hcall h (e := e) target (argument arguments 1).key
        (argument arguments 2)
      exact hset.answer.imp fun _ _ hopen => ⟨trivial, target, htarget, hopen⟩
  | has =>
      refine .of_agrees (Q := fun _ _ => True) ?_
      exact .bind (hostHas_agrees hcall h target _) fun _ _ _ _ h₂ _ _ => .pure h₂ trivial
  | delete =>
      have hdelete := hostDelete_writes hcall h (e := e) target (argument arguments 1).key
      exact hdelete.answer.imp fun _ _ hopen => ⟨trivial, target, htarget, hopen⟩
  | list =>
      refine .of_agrees (Q := fun _ _ => True) ?_
      exact .bind (hostKeys_agrees h target) fun _ _ _ _ h₂ _ _ => .routine hcall h₂ _
  | describe =>
      refine .of_agrees (Q := fun _ _ => True) ?_
      refine .bind (hostProperty_agrees hcall h target _) fun found e₂ b₂ c₂ h₂ _ _ => ?_
      split
      next => exact .routine hcall h₂ _
      next => exact .pure h₂ trivial
  | define =>
      -- reading the description may call getters, which leave the heaps alike
      refine needObject_writes h fun description hdescription => ?_
      refine .bind_run (.routine hcall h _) fun request e₁ b₁ c₁ hrun h₁ _ _ => ?_
      have hdefine := hostDefine_writes hcall h₁ (e := e₁) target (argument arguments 1).key request
      refine hdefine.answer.imp fun _ _ hopen => ⟨trivial, target, htarget, ?_⟩
      simp only [Trap.lookup, hdescription]
      rw [hrun]
      exact hopen
  | close => exact refuse_writes h trivial

end

section

variable (hcall : (kin P False old).Lawful call) (h : Bridge.Kin P old b c)

include hcall h

/-! ### Functions -/

theorem perform_agrees (f : Callable) (self : ObjectId) (purpose : Purpose)
    (arguments : List Value) :
    (kin P False old).Agrees call e b c (f.perform self purpose arguments)
      (f.perform self purpose arguments) fun _ _ => True := by
  unfold Callable.perform
  split
  next => exact .routine hcall h _
  next t => exact (trap_writes hcall h t arguments).agrees
  next number =>
    refine .get_bind ?_
    have hsnapshots : c.snapshots = b.snapshots := by rw [h.rest]
    simp only [hsnapshots]
    split
    next r mask hnumber =>
      have hshows := (h.snapshots (r, mask) (Array.mem_of_getElem? hnumber)).2
      exact snapshotValue_agrees hcall h hshows
    next => exact .pure h trivial
  next => exact .bind (.routine hcall h _) fun _ _ _ _ h' _ _ => .pure h' trivial
  next => exact .routine hcall h _
  next => exact .routine hcall h _

theorem performCall_agrees (o : ObjectId) (purpose : Purpose) (arguments : List Value) :
    (kin P False old).Agrees call e b c (performCall o purpose arguments)
      (performCall o purpose arguments) fun _ _ => True := by
  unfold performCall
  refine .bind (.routine hcall h _) fun object e' b' c' h' _ _ => ?_
  split
  next f _ _ => exact perform_agrees hcall h' f o purpose arguments
  next => exact .routine hcall h' _
  next => exact .throw h'

end

/-- Calls keep kin bridges twins, however many may be open at one time. -/
theorem invoke_lawful (P : Policy) (old n : Nat) :
    (kin P False old).Lawful (invoke n) := by
  induction n with
  | zero => exact fun _ _ _ _ b _ h => ⟨rfl, rfl, h, .refl b, trivial⟩
  | succ n ih =>
      intro o purpose arguments e b c h
      have hcall := performCall_agrees ih h (e := e) o purpose arguments
      exact ⟨hcall.result, hcall.engine, hcall.alike, hcall.leads, trivial⟩

end HostView.Script
