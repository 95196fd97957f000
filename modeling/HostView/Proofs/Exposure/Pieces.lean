import HostView.Proofs.Exposure.Building
import HostView.Proofs.Exposure.Faults
import HostView.Proofs.Script.Rounds

/-! # Pieces of a value

A conversion takes a script value to pieces: the fields of a record, the entries of a table, the items
of a set or a vector. It comes to each piece when all those before it were converted and stored. What
it throws is a frame around what the conversion of a piece throws, unless it is at fault itself: because
the value is of another kind, because a required field is not set or because a key or a property cannot
be read.
-/

namespace HostView

/-! ### Frames -/

/-- A frame around a fault: the step from a value to the piece that is at fault. -/
inductive Frame where
  | field (name : String)
  | key (name : String)
  | element (index : Nat)
  deriving DecidableEq

/-- The fault of a value whose piece is at fault. -/
def Frame.around : Frame → ConversionFault → ConversionFault
  | .field name, fault => .inField name fault
  | .key name, fault => .inKey name fault
  | .element index, fault => .inElement index fault

namespace ConversionFault

/-- The frames around a fault, from the outside in. -/
def path : ConversionFault → List Frame
  | .inField name source => .field name :: source.path
  | .inKey name source => .key name :: source.path
  | .inElement index source => .element index :: source.path
  | .mismatch _ _ | .invalid _ _ | .outOfRange _ _ | .missingField _ _ | .host _ | .engine _ => []

/-- The innermost fault, which has no frame. -/
def root : ConversionFault → ConversionFault
  | .inField _ source | .inKey _ source | .inElement _ source => source.root
  | fault => fault

variable {fault : ConversionFault}

@[simp] theorem path_around (frame : Frame) (fault : ConversionFault) :
    (frame.around fault).path = frame :: fault.path := by
  cases frame <;> rfl

@[simp] theorem root_around (frame : Frame) (fault : ConversionFault) :
    (frame.around fault).root = fault.root := by
  cases frame <;> rfl

theorem root_eq_self (h : fault.path = []) : fault.root = fault := by
  cases fault with
  | inField | inKey | inElement => cases h
  | _ => rfl

/-- A fault is its innermost one with the frames around it. -/
theorem foldr_around (fault : ConversionFault) : fault.path.foldr Frame.around fault.root = fault := by
  induction fault with
  | inField name source ih => exact congrArg (inField name) ih
  | inKey name source ih => exact congrArg (inKey name) ih
  | inElement index source ih => exact congrArg (inElement index) ih
  | _ => rfl

theorem Simple.path_eq_nil (h : fault.Simple) : fault.path = [] := by
  cases fault with
  | inField | inKey | inElement => exact h.elim
  | _ => rfl

/-- The innermost fault is in the script value if the whole one is. -/
theorem OfValue.root (h : fault.OfValue) : fault.root.OfValue := by
  induction fault with
  | inField _ source ih | inKey _ source ih | inElement _ source ih => exact ih h
  | _ => exact h

end ConversionFault

namespace Script

variable {call : Caller} {m m₁ m' : Machine} {type : HostType} {v : Value} {o : ObjectId} {r : Ref}
  {fault : ConversionFault} {α : Type}

/-! ### Pieces -/

/-- What is converted by itself: a value to a type, a member of a set, or a name to a key. -/
inductive Piece where
  | value (type : HostType) (v : Value)
  | member (key : AtomType) (v : Value)
  | name (key : AtomType) (name : String)

namespace Piece

/-- The conversion of a piece. -/
def convert : Piece → Conversion Ref
  | .value type v => toHost type v
  | .member key v => memberToHost key v
  | .name key text => do newAtom key (← key.keyOfName text)

/-- A piece that is not taken to pieces itself. -/
def isSimple : Piece → Bool
  | .value (.atom _) _ | .value (.real _) _ | .member _ _ | .name _ _ => true
  | .value (.record ..) _ | .value (.table ..) _ | .value (.vector _) _ => false

end Piece

/-! ### Simple pieces -/

/-- What is thrown is what may be thrown. -/
theorem Ensures.throws {decode : Decoding α} {good : α → Prop} {blame : ConversionFault → Prop}
    (h : Ensures decode good blame) (hthrows : Throws call m (liftM decode : Conversion α) fault m') :
    blame fault := by
  have hjudged := h call m m.toBridge
  have hrun : (decode.run.run.run call).run m = (.error fault, m') := hthrows
  rwa [hrun] at hjudged

theorem Ensures.gives {decode : Decoding α} {good : α → Prop} {blame : ConversionFault → Prop} {a : α}
    (h : Ensures decode good blame) (hgives : Gives call m decode a m') : good a := by
  have hjudged := h call m m.toBridge
  have hrun : (decode.run.run.run call).run m = (.ok a, m') := hgives
  rwa [hrun] at hjudged

theorem not_throws_newAtom {τ : AtomType} {a : Atom} (ha : τ.admits a = true) :
    ¬Throws call m (newAtom τ a) fault m' :=
  (new_gives (Heap.checkContent_atom ha)).not_throws

/-- It can always be told whether there is a host value of the type behind a value. -/
theorem heldOf?_succeeds (call : Caller) (m : Machine) (type : HostType) (v : Value) :
    ∃ x m', Succeeds call m (heldOf? type v) x m' := by
  cases v with
  | object o =>
      rcases hrun : ((unwrapValue o).run call).run m with ⟨x, m₁⟩
      have hunwrap : Succeeds call m (liftM (unwrapValue o) : Conversion (Option Ref)) x m₁ := .effect hrun
      cases x with
      | none => exact ⟨none, m₁, hunwrap.bind .pure⟩
      | some r =>
          by_cases hsame : (m₁.heap.typeOf r).same type = true
          · refine ⟨some r, m₁, hunwrap.bind (.get_bind ?_)⟩
            rw [if_pos hsame]
            exact .pure
          · refine ⟨none, m₁, hunwrap.bind (.get_bind ?_)⟩
            rw [if_neg hsame]
            exact .pure
  | _ => exact ⟨none, m, .pure⟩

/-- A value is converted where there is no host value of the very type behind it. -/
theorem throws_heldOr_iff {convert : Conversion Ref} :
    Throws call m (heldOr type v convert) fault m' ↔
      ∃ m₁, Succeeds call m (heldOf? type v) none m₁ ∧ Throws call m₁ convert fault m' := by
  unfold heldOr
  rw [throws_bind_iff]
  constructor
  · rintro (hthrows | ⟨x, m₁, hheld, hthrows⟩)
    · obtain ⟨x, m₁, hheld⟩ := heldOf?_succeeds call m type v
      exact absurd hthrows hheld.not_throws
    · cases x with
      | none => exact ⟨m₁, hheld, hthrows⟩
      | some r => exact absurd hthrows Succeeds.pure.not_throws
  · rintro ⟨m₁, hheld, hthrows⟩
    exact .inr ⟨none, m₁, hheld, hthrows⟩

theorem atomToHost_simple {τ : AtomType} (h : Throws call m (atomToHost τ v) fault m') : fault.Simple := by
  obtain ⟨m₁, -, h⟩ := throws_heldOr_iff.mp h
  obtain hdecode | ⟨a, m₂, hdecode, hnew⟩ := throws_bind_iff.mp h
  · exact (atomOf_ensures τ v).throws hdecode
  · exact absurd hnew (not_throws_newAtom ((atomOf_ensures τ v).gives hdecode))

theorem succeeds_except_iff {x : Except ConversionFault α} {a : α} :
    Succeeds call m (liftM x : Conversion α) a m' ↔ x = .ok a ∧ m = m' := by
  cases x with
  | ok b =>
      constructor
      · intro h
        obtain ⟨rfl, rfl⟩ := h.unique (.except rfl)
        exact ⟨rfl, rfl⟩
      · rintro ⟨⟨⟩, rfl⟩
        exact .except rfl
  | error cause =>
      have hthrows : Throws call m (liftM (Except.error cause : Except ConversionFault α) :
          Conversion α) cause m := rfl
      constructor
      · intro h
        exact absurd hthrows h.not_throws
      · rintro ⟨⟨⟩, -⟩

theorem throws_except_iff {x : Except ConversionFault α} :
    Throws call m (liftM x : Conversion α) fault m' ↔ x = .error fault ∧ m = m' := by
  cases x with
  | ok b =>
      have hsucceeds : Succeeds call m (liftM (Except.ok b : Except ConversionFault α) :
          Conversion α) b m := rfl
      constructor
      · intro h
        exact absurd h hsucceeds.not_throws
      · rintro ⟨⟨⟩, -⟩
  | error cause =>
      have hthrows : Throws call m (liftM (Except.error cause : Except ConversionFault α) :
          Conversion α) cause m := rfl
      constructor
      · intro h
        obtain ⟨rfl, rfl⟩ := h.unique hthrows
        exact ⟨rfl, rfl⟩
      · rintro ⟨⟨⟩, rfl⟩
        exact hthrows

theorem throws_name_iff {key : AtomType} {name : String} :
    Throws call m (Piece.name key name).convert fault m' ↔ key.keyOfName name = .error fault ∧ m = m' := by
  unfold Piece.convert
  rw [throws_bind_iff, throws_except_iff]
  refine ⟨?_, .inl⟩
  rintro (hname | ⟨a, m₁, hname, hnew⟩)
  · exact hname
  · obtain ⟨hname, -⟩ := succeeds_except_iff.mp hname
    exact absurd hnew (not_throws_newAtom (AtomType.admits_of_keyOfName hname))

theorem name_simple {key : AtomType} {name : String}
    (h : Throws call m (Piece.name key name).convert fault m') : fault.Simple := by
  have hjudged := key.keyOfName_judged name m.toBridge
  rwa [(throws_name_iff.mp h).1] at hjudged

theorem memberToHost_simple {key : AtomType} (h : Throws call m (memberToHost key v) fault m') :
    fault.Simple := by
  unfold memberToHost at h
  split at h
  next s =>
    obtain htext | ⟨text, m₁, -, hname⟩ := throws_bind_iff.mp h
    · exact (textOf_ensures (by decide) (.string s)).throws htext
    · have hpiece : Throws call m₁ (Piece.name key text).convert fault m' := hname
      exact name_simple hpiece
  next => exact atomToHost_simple h

theorem real_simple {kind : RealKind} (h : Throws call m (toHost (.real kind) v) fault m') :
    fault.Simple := by
  rw [toHost] at h
  obtain ⟨m₁, -, h⟩ := throws_heldOr_iff.mp h
  split at h
  next x _ => exact absurd h (new_gives (Heap.checkContent_real kind x)).not_throws
  next =>
    have hmismatch : Ensures (mismatch "number" v : Decoding Ref) (fun _ => False)
        ConversionFault.Simple := mismatch_ensures (by decide) v
    exact hmismatch.throws h

/-- A simple piece is at fault itself. -/
theorem Piece.simple_of_throws {p : Piece} (hp : p.isSimple = true)
    (h : Throws call m p.convert fault m') : fault.Simple := by
  cases p with
  | value type v =>
      cases type with
      | atom τ =>
          have hatom : Throws call m (toHost (.atom τ) v) fault m' := h
          rw [toHost] at hatom
          exact atomToHost_simple hatom
      | real kind => exact real_simple h
      | record | table | vector => cases hp
  | member key v => exact memberToHost_simple h
  | name key text => exact name_simple h

end Script

end HostView
