import HostView.Exposure.Answering
import HostView.Proofs.Exposure.Composites
import HostView.Proofs.Exposure.Tables

/-! # What is left untouched

Nothing is asked of the engine to convert a value that is no object: the value tells by itself whether it
denotes a host value of the type. So the engine is as before when such a conversion has ended, or an
assignment of such a value. Having a property is told, and a property is deleted, with no change but to host
values and to the layouts that are kept of their types.
-/

namespace HostView.Script

variable {call : Caller} {m m₁ m' : Machine} {v : Value} {s : Ref} {type : HostType}
  {expected target : String} {low high : Int} {ε α β σ : Type} {part : Machine → σ}

/-! ### Still decodings -/

/-- The decoding leaves the engine as it is, whether it succeeds or not. -/
def Still (decode : Decoding α) : Prop :=
  ∀ call m, ((decode.run.run.run call).run m).2 = m

namespace Still

theorem pure (a : α) : Still (Pure.pure a) := fun _ _ => rfl

theorem throw (fault : ConversionFault) : Still (MonadExcept.throw fault : Decoding α) := fun _ _ => rfl

theorem mismatch (expected : String) (v : Value) : Still (mismatch expected v : Decoding α) := fun _ _ => rfl

theorem except (x : Except ConversionFault α) : Still (liftM x) := by
  cases x with
  | ok a => exact pure a
  | error fault => exact throw fault

theorem bind {decode : Decoding α} {f : α → Decoding β} (hdecode : Still decode) (hf : ∀ a, Still (f a)) :
    Still (decode >>= f) := by
  intro call m
  have hrun : ((decode >>= f).run.run.run call).run m =
      (((ExceptT.bindCont f ((decode.run.run.run call).run m).1).run.run call).run
        ((decode.run.run.run call).run m).2) := rfl
  rw [hrun, hdecode call m]
  cases ((decode.run.run.run call).run m).1 with
  | ok a => exact hf a call m
  | error fault => rfl

theorem eq {decode : Decoding α} {a : α} (h : Still decode) (hgives : Gives call m decode a m') : m' = m := by
  have hstill := h call m
  rwa [hgives] at hstill

end Still

theorem intOf_still (v : Value) : Still (intOf v) := by
  unfold intOf
  split
  next => exact .bind (.except _) fun _ => .pure _
  next => exact .bind (.except _) fun _ => .pure _
  next => exact .mismatch _ _

theorem countOf_still (v : Value) : Still (countOf v) := by
  unfold countOf
  split
  next => exact .bind (.except _) fun _ => .pure _
  next => exact .bind (.except _) fun _ => .pure _
  next => exact .mismatch _ _

theorem textOf_still (expected : String) (v : Value) : Still (textOf expected v) := by
  unfold textOf
  split
  next => exact .pure _
  next => exact .throw _
  next => exact .mismatch _ v

theorem literalOf_still (expected : String) (read? : String → Option α) (v : Value) :
    Still (literalOf expected read? v) := by
  refine .bind (textOf_still expected v) fun s => ?_
  split
  next => exact .pure _
  next => exact .throw _

/-- Only an object is asked for the number and the protocol of a port. -/
theorem portOf_still (hv : v.object? = none) : Still (portOf v) := by
  cases v with
  | object o => cases hv
  | string s => exact literalOf_still _ _ (.string s)
  | _ => exact fun _ _ => rfl

theorem atomOf_still (τ : AtomType) (hv : v.object? = none) : Still (atomOf τ v) := by
  unfold atomOf
  split
  next =>
    split
    next => exact .pure _
    next => exact .mismatch _ _
  next => exact .bind (intOf_still v) fun _ => .pure _
  next => exact .bind (countOf_still v) fun _ => .pure _
  next => exact .bind (textOf_still _ v) fun _ => .pure _
  next => exact .bind (literalOf_still _ _ v) fun _ => .pure _
  next => exact .bind (literalOf_still _ _ v) fun _ => .pure _
  next => exact .bind (portOf_still hv) fun _ => .pure _
  next => exact .bind (literalOf_still _ _ v) fun _ => .pure _

/-! ### Conversions -/

theorem Leaves.of_still {decode : Decoding α} (h : Still decode) :
    Leaves part call m (liftM decode : Conversion α) :=
  congrArg part (h call m)

/-- Only the heap grows when a host value is built. -/
theorem allocate_leaves (make : Heap → Except HostFault (Ref × Heap)) :
    Leaves Machine.toEngine call m (allocate make) := by
  unfold allocate
  refine .get_bind ?_
  cases make m.heap with
  | ok made => rfl
  | error fault => exact .throw _

section

variable (hv : v.object? = none)

include hv

theorem heldOr_leaves {convert : Conversion Ref}
    (h : Leaves part call m convert) : Leaves part call m (heldOr type v convert) := by
  have hunheld : Unheld call m v := unheld_of_object? hv
  rw [Leaves, heldOr, hunheld.heldOf?.bind_run]
  exact h

/-- A value that is no object is converted with the engine left as it is: it has no parts. -/
theorem toHost_primitive_leaves : Leaves Machine.toEngine call m (toHost type v) := by
  have hobject (m : Machine) : ∃ fault,
      Throws call m (liftM (plainObject "object" v) : Conversion ObjectId) fault m := by
    cases v with
    | object o => cases hv
    | _ => exact ⟨_, rfl⟩
  have harray (m : Machine) : ∃ fault,
      Throws call m (liftM (arrayOf v) : Conversion ObjectId) fault m := by
    cases v with
    | object o => cases hv
    | _ => exact ⟨_, rfl⟩
  cases type with
  | atom τ =>
      rw [toHost]
      exact heldOr_leaves hv (.bind (.of_still (atomOf_still τ hv)) fun _ _ _ => allocate_leaves _)
  | real kind =>
      rw [toHost]
      refine heldOr_leaves hv ?_
      split
      next => exact allocate_leaves _
      next => exact .of_still (.mismatch _ _)
  | record =>
      obtain ⟨fault, hthrows⟩ := hobject m
      rw [toHost]
      exact heldOr_leaves hv (.of_throws hthrows.bind rfl)
  | table key yield =>
      cases yield with
      | none =>
          rw [toHost]
          refine heldOr_leaves hv (.bind (allocate_leaves _) fun r m₁ _ => ?_)
          obtain ⟨fault, hthrows⟩ := harray m₁
          exact .of_throws hthrows.bind rfl
      | some yield =>
          rw [toHost]
          refine heldOr_leaves hv (.bind (allocate_leaves _) fun r m₁ _ => ?_)
          obtain ⟨fault, hthrows⟩ := hobject m₁
          exact .of_throws hthrows.bind rfl
  | vector element =>
      rw [toHost]
      refine heldOr_leaves hv (.bind (allocate_leaves _) fun r m₁ _ => ?_)
      obtain ⟨fault, hthrows⟩ := harray m₁
      exact .of_throws hthrows.bind rfl

/-- So is one that converts. -/
theorem toHost_engine_eq (h : Succeeds call m (toHost type v) s m') : m'.toEngine = m.toEngine :=
  (toHost_primitive_leaves hv).eq h

end

/-! ### Questions and removals -/

theorem Leaves.of_becomes {a a' : ExceptT ε Effect α}
    (h : Becomes m a m₁ a') (hpart : part m₁ = part m) (ha : Leaves part call m₁ a') :
    Leaves part call m a := by
  rw [Leaves, h call]
  exact ha.trans hpart

theorem needObject_leaves (v : Value) : Leaves part call m (liftM (needObject v) : Action ObjectId) := by
  cases v <;> rfl

theorem classify_leaves (k : Key) : Leaves part call m (liftM (classify k) : Action PropertyName) := by
  unfold classify
  cases PropertyName.ofKey k <;> rfl

/-- The part has nothing to do with the host values and the layouts of their types. -/
def Aside (part : Machine → σ) : Prop := ∀ m heap offsets, part { m with heap, offsets } = part m

section

variable (hpart : Aside part)

include hpart

theorem exposedField_leaves (w : Receiver) (name : String) : Leaves part call m (exposedField w name) :=
  .get_bind (.bind (.modifyGet (hpart _ _ _)) fun _ _ _ => .pure)

theorem changeHost_leaves (change : Heap → Except HostFault Heap) :
    Leaves part call m (changeHost change) := by
  unfold changeHost
  refine .get_bind ?_
  cases change m.heap with
  | ok heap => exact hpart _ _ _
  | error fault => exact .throw _

/-- Having a property is told without a change but to the layouts. -/
theorem hostHas_leaves (target : ObjectId) (k : Key) : Leaves part call m (hostHas target k) := by
  unfold hostHas
  refine .get_bind ?_
  split
  next => exact .pure
  next w _ =>
    refine .bind (classify_leaves k) fun name m₁ _ => ?_
    split
    next => exact .pure
    next =>
      split
      next =>
        refine .bind (exposedField_leaves hpart w _) fun found m₂ _ => ?_
        split
        next => exact .pure
        next =>
          refine .get_bind ?_
          split <;> exact .pure
      next =>
        refine .get_bind ?_
        split
        next => exact .pure
        next => exact .get_bind .pure
      next => exact .pure

/-- A property is deleted with a change to host values at most. -/
theorem hostDelete_leaves (target : ObjectId) (k : Key) : Leaves part call m (hostDelete target k) := by
  unfold hostDelete
  refine .get_bind ?_
  split
  next => exact .throw _
  next w _ =>
    refine .bind (classify_leaves k) fun name m₁ _ => ?_
    split
    next => exact .pure
    next =>
      split
      next =>
        refine .bind (exposedField_leaves hpart w _) fun found m₂ _ => ?_
        split
        next => exact changeHost_leaves hpart _
        next => exact .pure
      next =>
        refine .get_bind ?_
        split
        next => exact changeHost_leaves hpart _
        next => exact .pure
      next => exact .throw _

theorem Trap.has_leaves (arguments : List Value) : Leaves part call m (Trap.has.perform arguments) :=
  .bind (needObject_leaves _) fun _ _ _ => .bind (hostHas_leaves hpart _ _) fun _ _ _ => .pure

theorem Trap.delete_leaves (arguments : List Value) :
    Leaves part call m (Trap.delete.perform arguments) :=
  .bind (needObject_leaves _) fun _ _ _ => .bind (hostDelete_leaves hpart _ _) fun _ _ _ => .pure

end

/-! ### Assignments -/

section

variable (hv : v.object? = none)

include hv

theorem convertFor_leaves (path : ConversionFault → ConversionFault) (type : HostType) :
    Leaves Machine.toEngine call m (convertFor path type v) := by
  unfold convertFor
  refine .bind (.attempt (toHost_primitive_leaves hv)) fun converted m₁ _ => ?_
  split
  next => exact .pure
  next => exact .throw _

theorem convertSlot_leaves (path : ConversionFault → ConversionFault) (type : HostType) :
    Leaves Machine.toEngine call m (convertSlot path type v) := by
  unfold convertSlot
  split
  next => exact .map (convertFor_leaves hv path type)
  next => exact .pure

theorem writeField_leaves (w : Receiver) (name : String) :
    Leaves Machine.toEngine call m (writeField w name v) := by
  refine .bind (exposedField_leaves (fun _ _ _ => rfl) w name) fun found m₁ _ => ?_
  split
  next => exact .get_bind (.throw _)
  next => exact .bind (convertSlot_leaves hv _ _) fun _ _ _ => changeHost_leaves (fun _ _ _ => rfl) _

theorem writeEntry_leaves (w : Receiver) (name : PropertyName) :
    Leaves Machine.toEngine call m (writeEntry w name v) := by
  have hchange {m : Machine} (change : Heap → Except HostFault Heap) :
      Leaves Machine.toEngine call m (changeHost change) := changeHost_leaves (fun _ _ _ => rfl) change
  unfold writeEntry
  refine .get_bind ?_
  split
  next => exact .throw _
  next =>
    split
    next => split <;> first | exact hchange _ | exact .throw _
    next =>
      split
      next => exact .bind (convertFor_leaves hv _ _) fun _ _ _ => hchange _
      next => exact hchange _
    next => exact .throw _

theorem hostSet_leaves (target : ObjectId) (k : Key) : Leaves Machine.toEngine call m (hostSet target k v) := by
  unfold hostSet
  refine .get_bind ?_
  split
  next => exact .throw _
  next w _ =>
    refine .bind (classify_leaves k) fun name m₁ _ => ?_
    split
    next => exact .throw _
    next =>
      split
      next => exact writeField_leaves hv w _
      next => exact writeEntry_leaves hv w _
      next => exact .throw _

end

theorem Trap.set_leaves {arguments : List Value} (hv : (argument arguments 2).object? = none) :
    Leaves Machine.toEngine call m (Trap.set.perform arguments) :=
  .bind (needObject_leaves _) fun _ _ _ => .bind (hostSet_leaves hv _ _) fun _ _ _ => .pure

end HostView.Script
