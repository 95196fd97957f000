import HostView.Exposure.Inbound
import HostView.Proofs.Exposure.Naming
import HostView.Proofs.Script.Agreement

/-! # Faults of script values

What a conversion may be refused for is in the script value: it is of another kind, out of range, no
literal, or a part of it is missing or cannot be read. The decodings of atoms throw nothing else, and no
fault of a part; what they give is of the type.
-/

namespace HostView

/-- What is expected only where a type of the host is taken for another one. -/
def internalKinds : List String := ["record type", "table type", "atomic key type"]

/-- The fault is in the script value, or in the part of it to which the path leads: no check of the host
failed, and no type was taken for another one. -/
def ConversionFault.OfValue : ConversionFault → Prop
  | .host _ => False
  | .mismatch expected _ => expected ∉ internalKinds
  | .inField _ source | .inKey _ source | .inElement _ source => source.OfValue
  | .invalid _ _ | .outOfRange _ _ | .missingField _ _ | .engine _ => True

/-- The fault is of the value itself, which is of another kind, out of range or no literal of the type, or
cannot be read. -/
def ConversionFault.Simple : ConversionFault → Prop
  | .mismatch expected _ => expected ∉ internalKinds
  | .invalid _ _ | .outOfRange _ _ | .engine _ => True
  | .missingField _ _ | .inField _ _ | .inKey _ _ | .inElement _ _ | .host _ => False

theorem ConversionFault.Simple.ofValue {fault : ConversionFault} (h : fault.Simple) : fault.OfValue := by
  cases fault with
  | mismatch => exact h
  | invalid | outOfRange | missingField | engine => trivial
  | inField | inKey | inElement | host => exact h.elim

/-- What is written is at fault, or its key, or the request itself; of the host the refusal tells what is
`required`. -/
def Refusal.Blames (required : HostFault → Prop) : Refusal → Prop
  | .host fault => required fault
  | .value fault | .badKey _ fault => fault.OfValue
  | _ => True

/-- So does what is thrown, if it is a refusal. -/
def Script.Thrown.Blames (required : HostFault → Prop) : Script.Thrown → Prop
  | .refused cause => cause.Blames required
  | _ => True

theorem Script.Thrown.Blames.imp {required required' : HostFault → Prop}
    (h : ∀ fault, required fault → required' fault) {t : Script.Thrown} (ht : t.Blames required) :
    t.Blames required' := by
  cases t with
  | refused cause =>
      cases cause with
      | host fault => exact h fault ht
      | _ => exact ht
  | _ => trivial

theorem variant_notMem_internalKinds (name : String) : "variant of enum " ++ name ∉ internalKinds := by
  intro hmem
  have hhead : ∀ s ∈ internalKinds, s.toList.head? ≠ some 'v' := by decide
  exact hhead _ hmem (by simp)

namespace AtomType

/-- A name is a key of the type, or no literal of one. -/
theorem keyOfName_judged (τ : AtomType) (name : String) (b : Script.Bridge) :
    Script.Judged (fun a _ => τ.admits a = true) ConversionFault.Simple (τ.keyOfName name) b := by
  cases hname : τ.keyOfName name with
  | ok a => exact admits_of_keyOfName hname
  | error fault =>
      unfold keyOfName at hname
      split at hname
      all_goals repeat' (split at hname)
      all_goals cases hname <;> trivial

/-- So is an array index. -/
theorem keyOfIndex_judged (τ : AtomType) (index : Nat) (b : Script.Bridge) :
    Script.Judged (fun a _ => τ.admits a = true) ConversionFault.Simple (τ.keyOfIndex index) b := by
  unfold keyOfIndex
  split
  next => exact rfl
  next => exact rfl
  next => exact keyOfName_judged _ _ b

end AtomType

theorem PropertyName.toAtom_judged (p : PropertyName) (τ : AtomType) (b : Script.Bridge) :
    Script.Judged (fun a _ => τ.admits a = true) ConversionFault.Simple (p.toAtom τ) b := by
  unfold toAtom
  split
  next => exact τ.keyOfIndex_judged _ b
  next => exact τ.keyOfName_judged _ b

namespace Script

variable {α : Type} {good : α → Prop} {v : Value} {expected target : String} {low high : Int}

theorem Judged.ofValue {post : α → Bridge → Prop} {x : Except ConversionFault α} {b : Bridge}
    (h : Judged post ConversionFault.Simple x b) : Judged post ConversionFault.OfValue x b :=
  h.imp (fun _ => id) fun _ => ConversionFault.Simple.ofValue

theorem Ensures.ofValue {r : Decoding α} (h : Ensures r good ConversionFault.Simple) :
    Ensures r good ConversionFault.OfValue :=
  fun call m b => (h call m b).ofValue

theorem mismatch_ensures (hexpected : expected ∉ internalKinds) (v : Value) :
    Ensures (mismatch expected v : Decoding α) good ConversionFault.Simple :=
  .get_bind fun _ => .throw hexpected

theorem readProperty_ensures (o : ObjectId) (k : Key) :
    Ensures (readProperty o k) (fun _ => True) ConversionFault.Simple := by
  unfold readProperty
  refine .bind (.attempt _) fun x _ => ?_
  cases x with
  | ok v => exact .pure trivial
  | error => exact .throw trivial

/-! ### Numbers -/

theorem wholeBetween_judged (x : Binary64) (b : Bridge) :
    Judged (fun _ _ => True) ConversionFault.Simple (wholeBetween expected target low high x) b := by
  unfold wholeBetween
  split
  next => trivial
  next => split <;> trivial

theorem bigBetween_judged (i : Int) (b : Bridge) :
    Judged (fun _ _ => True) ConversionFault.Simple (bigBetween target low high i) b := by
  unfold bigBetween
  split <;> trivial

theorem intOf_ensures (v : Value) :
    Ensures (intOf v) (fun _ => True) ConversionFault.Simple := by
  unfold intOf
  split
  next => exact .bind (.except (wholeBetween_judged _)) fun _ _ => .pure trivial
  next => exact .bind (.except (bigBetween_judged _)) fun _ _ => .pure trivial
  next => exact mismatch_ensures (by decide) _

theorem countOf_ensures (v : Value) :
    Ensures (countOf v) (fun _ => True) ConversionFault.Simple := by
  unfold countOf
  split
  next => exact .bind (.except (wholeBetween_judged _)) fun _ _ => .pure trivial
  next => exact .bind (.except (bigBetween_judged _)) fun _ _ => .pure trivial
  next => exact mismatch_ensures (by decide) _

/-! ### Texts -/

theorem textOf_ensures (hexpected : expected ∉ internalKinds) (v : Value) :
    Ensures (textOf expected v) (fun _ => True) ConversionFault.Simple := by
  unfold textOf
  split
  next => exact .pure trivial
  next => exact .throw trivial
  next => exact mismatch_ensures hexpected v

theorem literalOf_ensures (hexpected : expected ∉ internalKinds) (read? : String → Option α)
    (v : Value) :
    Ensures (literalOf expected read? v) (fun a => ∃ s, read? s = some a) ConversionFault.Simple := by
  unfold literalOf
  refine .bind (textOf_ensures hexpected v) fun s _ => ?_
  split
  next a ha => exact .pure ⟨s, ha⟩
  next => exact .throw trivial

/-! ### Objects -/

theorem plainObject_ensures (hexpected : expected ∉ internalKinds) (v : Value) :
    Ensures (plainObject expected v) (fun _ => True) ConversionFault.Simple := by
  unfold plainObject
  refine .get_bind fun e => ?_
  split
  next =>
    split
    next => exact mismatch_ensures hexpected _
    next => exact .pure trivial
  next => exact mismatch_ensures hexpected _

theorem arrayOf_ensures (v : Value) :
    Ensures (arrayOf v) (fun _ => True) ConversionFault.Simple := by
  unfold arrayOf
  refine .get_bind fun e => ?_
  split
  next =>
    split
    next => exact .pure trivial
    next => exact mismatch_ensures (by decide) _
  next => exact mismatch_ensures (by decide) _

theorem portOf_ensures (v : Value) :
    Ensures (portOf v) (fun _ => True) ConversionFault.Simple := by
  unfold portOf
  split
  next => exact (literalOf_ensures (by decide) _ _).mono fun _ _ => trivial
  next =>
    refine .bind (plainObject_ensures (by decide) v) fun o _ => ?_
    refine .bind (readProperty_ensures o _) fun n _ => ?_
    split
    next => exact mismatch_ensures (by decide) n
    next =>
      refine .bind (.except (wholeBetween_judged _)) fun number _ => ?_
      refine .bind (readProperty_ensures o _) fun protocol _ => ?_
      exact .bind (literalOf_ensures (by decide) _ _) fun _ _ => .pure trivial

/-! ### Atoms -/

/-- A decoded atom is of the type. -/
theorem atomOf_ensures (τ : AtomType) (v : Value) :
    Ensures (atomOf τ v) (τ.admits · = true) ConversionFault.Simple := by
  unfold atomOf
  split
  next =>
    split
    next => exact .pure rfl
    next => exact mismatch_ensures (by decide) _
  next => exact .bind (intOf_ensures v) fun _ _ => .pure rfl
  next => exact .bind (countOf_ensures v) fun _ _ => .pure rfl
  next => exact .bind (textOf_ensures (by decide) v) fun _ _ => .pure rfl
  next => exact .bind (literalOf_ensures (by decide) _ v) fun _ _ => .pure rfl
  next => exact .bind (literalOf_ensures (by decide) _ v) fun _ _ => .pure rfl
  next => exact .bind (portOf_ensures v) fun _ _ => .pure rfl
  next e =>
    refine .bind (literalOf_ensures (variant_notMem_internalKinds e.name) _ v) fun i hi => ?_
    obtain ⟨name, hi⟩ := hi
    exact .pure (AtomType.admits_of_index? hi)

end Script

end HostView
