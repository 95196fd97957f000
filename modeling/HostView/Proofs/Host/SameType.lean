import HostView.Host.Type

/-! # Types of the same structure

Structural equality of types is an equivalence that forgets descriptors and nothing else: types of
the same structure have the same kind, the same declarations field by field, and the same depth.
-/

namespace HostView.HostType

mutual

theorem same_refl : ∀ τ : HostType, same τ τ = true
  | .atom _ => by simp [same]
  | .real _ => by simp [same]
  | .record _ _ fields => by simp [same, sameFields_refl fields]
  | .table _ yield => by simp [same, sameYield_refl yield]
  | .vector element => by simp [same, same_refl element]

theorem sameFields_refl : ∀ fields : List (Field HostType), sameFields fields fields = true
  | [] => by simp [sameFields]
  | ⟨_, type, _⟩ :: fields => by simp [sameFields, same_refl type, sameFields_refl fields]

theorem sameYield_refl : ∀ yield : Option HostType, sameYield yield yield = true
  | none => by simp [sameYield]
  | some type => by simp [sameYield, same_refl type]

end

mutual

theorem same_comm : ∀ τ σ : HostType, same τ σ = same σ τ
  | .atom a, σ => by cases σ <;> simp [same, eq_comm]
  | .real k, σ => by cases σ <;> simp [same, eq_comm]
  | .record _ n fs, σ => by
      cases σ with
      | record _ m gs => simp [same, sameFields_comm fs gs, eq_comm]
      | _ => simp [same]
  | .table k y, σ => by
      cases σ with
      | table l z => simp [same, sameYield_comm y z, eq_comm]
      | _ => simp [same]
  | .vector a, σ => by
      cases σ with
      | vector b => simp [same, same_comm a b]
      | _ => simp [same]

theorem sameFields_comm : ∀ fs gs : List (Field HostType), sameFields fs gs = sameFields gs fs
  | [], gs => by cases gs <;> simp [sameFields]
  | ⟨_, _, _⟩ :: _, [] => by simp [sameFields]
  | ⟨n, τ, a⟩ :: fs, ⟨m, σ, b⟩ :: gs => by
      simp only [sameFields, same_comm τ σ, sameFields_comm fs gs, eq_comm (a := n),
        eq_comm (a := a)]

theorem sameYield_comm : ∀ y z : Option HostType, sameYield y z = sameYield z y
  | none, z => by cases z <;> simp [sameYield]
  | some _, none => by simp [sameYield]
  | some a, some b => by simp [sameYield, same_comm a b]

end

theorem same_symm {τ σ : HostType} (h : same τ σ = true) : same σ τ = true :=
  same_comm τ σ ▸ h

mutual

theorem same_trans : ∀ {τ σ ρ : HostType}, same τ σ = true → same σ ρ = true → same τ ρ = true
  | .atom _, σ, ρ, h, h' => by cases σ <;> cases ρ <;> simp_all [same]
  | .real _, σ, ρ, h, h' => by cases σ <;> cases ρ <;> simp_all [same]
  | .record _ _ fs, .record _ _ gs, .record _ _ hs, h, h' => by
      simp only [same, Bool.and_eq_true, decide_eq_true_eq] at h h' ⊢
      exact ⟨h.1.trans h'.1, sameFields_trans h.2 h'.2⟩
  | .table _ y, .table _ z, .table _ w, h, h' => by
      simp only [same, Bool.and_eq_true, decide_eq_true_eq] at h h' ⊢
      exact ⟨h.1.trans h'.1, sameYield_trans h.2 h'.2⟩
  | .vector a, .vector b, .vector c, h, h' => by
      simp only [same] at h h' ⊢
      exact same_trans h h'

theorem sameFields_trans : ∀ {fs gs hs : List (Field HostType)},
    sameFields fs gs = true → sameFields gs hs = true → sameFields fs hs = true
  | [], [], hs, _, h' => h'
  | ⟨_, _, _⟩ :: _, ⟨_, _, _⟩ :: _, ⟨_, _, _⟩ :: _, h, h' => by
      simp only [sameFields, Bool.and_eq_true, decide_eq_true_eq] at h h' ⊢
      obtain ⟨⟨⟨hname, hattributes⟩, htype⟩, hrest⟩ := h
      obtain ⟨⟨⟨hname', hattributes'⟩, htype'⟩, hrest'⟩ := h'
      exact ⟨⟨⟨hname.trans hname', hattributes.trans hattributes'⟩, same_trans htype htype'⟩,
        sameFields_trans hrest hrest'⟩

theorem sameYield_trans : ∀ {y z w : Option HostType},
    sameYield y z = true → sameYield z w = true → sameYield y w = true
  | none, none, _, _, h' => h'
  | some _, some _, some _, h, h' => by
      simp only [sameYield] at h h' ⊢
      exact same_trans h h'

end

mutual

/-- Types of the same structure are equally deep. -/
theorem depth_eq_of_same : ∀ {τ σ : HostType}, same τ σ = true → depth τ = depth σ
  | .atom _, .atom _, _ => rfl
  | .real _, .real _, _ => rfl
  | .record _ _ fs, .record _ _ gs, h => by
      simp only [same, Bool.and_eq_true] at h
      simp only [depth, depthOfFields_eq_of_same h.2]
  | .table _ y, .table _ z, h => by
      simp only [same, Bool.and_eq_true] at h
      simp only [depth, depthOfYield_eq_of_same h.2]
  | .vector a, .vector b, h => by
      simp only [same] at h
      simp only [depth, depth_eq_of_same h]

theorem depthOfFields_eq_of_same : ∀ {fs gs : List (Field HostType)},
    sameFields fs gs = true → depthOfFields fs = depthOfFields gs
  | [], [], _ => rfl
  | ⟨_, _, _⟩ :: _, ⟨_, _, _⟩ :: _, h => by
      simp only [sameFields, Bool.and_eq_true] at h
      simp only [depthOfFields, depth_eq_of_same h.1.2, depthOfFields_eq_of_same h.2]

theorem depthOfYield_eq_of_same : ∀ {y z : Option HostType},
    sameYield y z = true → depthOfYield y = depthOfYield z
  | none, none, _ => rfl
  | some _, some _, h => by
      simp only [sameYield] at h
      simp only [depthOfYield, depth_eq_of_same h]

end

/-- What declares a field is the type of a record. -/
theorem eq_record_of_field {τ : HostType} {i : Nat} {f : Field HostType} (hf : τ.fields[i]? = some f) :
    ∃ descriptor name fields, τ = .record descriptor name fields ∧ fields[i]? = some f := by
  cases τ with
  | record descriptor name fields => exact ⟨descriptor, name, fields, rfl, hf⟩
  | _ => cases hf

/-- The type of a field is less deep than the record. -/
theorem depth_le_depthOfFields {f : Field HostType} {fields : List (Field HostType)}
    (hf : f ∈ fields) : f.type.depth ≤ depthOfFields fields := by
  induction fields with
  | nil => cases hf
  | cons g fields ih =>
      simp only [depthOfFields]
      rcases List.mem_cons.mp hf with rfl | hmem
      · exact Nat.le_max_left ..
      · exact Nat.le_trans (ih hmem) (Nat.le_max_right ..)

theorem depth_pos (τ : HostType) : 0 < τ.depth := by
  cases τ <;> simp [depth]

/-- The first type is one that the second is made of: that of a field, of keys, of yields or of
items. -/
inductive Part : HostType → HostType → Prop where
  | field {descriptor : Nat} {name : String} {fields : List (Field HostType)} {f : Field HostType}
      (hf : f ∈ fields) : Part f.type (.record descriptor name fields)
  | key {key : AtomType} {yield : Option HostType} : Part (.atom key) (.table key yield)
  | yield {key : AtomType} {type : HostType} : Part type (.table key (some type))
  | element {type : HostType} : Part type (.vector type)

/-- How far a type stands above atoms. It differs from the depth in that atoms are at the bottom,
which makes the keys of a set lower than the set. -/
def height : HostType → Nat
  | .atom _ => 0
  | τ => τ.depth

theorem height_le_depth (τ : HostType) : τ.height ≤ τ.depth := by
  cases τ <;> simp [height]

theorem height_eq_of_same {τ σ : HostType} (h : same τ σ = true) : τ.height = σ.height := by
  have hdepth := depth_eq_of_same h
  cases τ <;> cases σ <;> first | exact hdepth | rfl | cases h

theorem Part.height_lt {σ τ : HostType} (h : Part σ τ) : σ.height < τ.height := by
  cases h with
  | @field d name fields f hf =>
      exact Nat.lt_succ_of_le (Nat.le_trans (height_le_depth _) (depth_le_depthOfFields hf))
  | key => exact Nat.succ_pos _
  | yield | element => exact Nat.lt_succ_of_le (height_le_depth _)

/-- Only an atomic type has the structure of an atomic type, and it is the same type. -/
theorem eq_atom_of_same {τ : HostType} {a : AtomType} (h : same τ (.atom a) = true) :
    τ = .atom a := by
  cases τ <;> simp_all [same]

end HostView.HostType
