import HostView.Proofs.Exposure.Assembling
import HostView.Proofs.Exposure.CompleteImages

/-! # Bare prototypes

An engine in which plain objects inherit nothing but perhaps the setter of prototypes, and arrays nothing
but that and a length, has nothing that gets in the way of the bridge.
-/

namespace HostView.Script

variable {e : Engine} {limit : Nat} {k : Key} {allowed : Option Property → Prop}

/-- The prototypes of plain objects and of arrays have as good as nothing. -/
structure Engine.Bare (e : Engine) (limit : Nat) : Prop where
  lt : Intrinsic.array < limit
  settled : (e.object Intrinsic.object).Settled
  unhandled : (e.object Intrinsic.object).isProxy = false
  root : (e.object Intrinsic.object).proto = none
  free : ∀ k, k ≠ .name "__proto__" → (e.object Intrinsic.object).own? k = none
  array : e.object Intrinsic.array = { Object.arrayWith [] with proto := some Intrinsic.object }

namespace Engine.Bare

variable (h : e.Bare limit)

include h

section

variable (hk : k ≠ .name "__proto__") (hallowed : allowed none)

include hk hallowed

theorem passes_object (n : Nat) : e.Passes limit k allowed (n + 1) (some Intrinsic.object) := by
  have hlt : Intrinsic.object < limit := Nat.lt_trans (by decide) h.lt
  exact .some hlt h.settled h.unhandled (h.free k hk ▸ hallowed) (h.root ▸ .none)

theorem passes_array (n : Nat)
    (hlength : k = .length → allowed ((Object.arrayWith []).own? .length)) :
    e.Passes limit k allowed (n + 2) (some Intrinsic.array) := by
  refine .some h.lt ?_ ?_ ?_ ?_ <;> rw [h.array]
  case refine_1 => nofun
  case refine_2 => rfl
  case refine_4 => exact h.passes_object hk hallowed n
  case refine_3 =>
    show allowed ((Object.arrayWith []).own? k)
    by_cases hk' : k = .length
    · exact hk' ▸ hlength hk'
    · have hown : (Object.arrayWith []).own? k = none := by
        change ((if k = .length then some _ else none).or none) = none
        rw [if_neg hk']
        rfl
      rwa [hown]

end

/-- There is fuel for two prototypes. -/
theorem exists_limit : ∃ n, limit = n + 2 := ⟨limit - 2, (Nat.sub_add_cancel (Nat.le_of_lt h.lt)).symm⟩

/-- Nothing gets in the way of plain objects and arrays that are built. -/
theorem clear : e.Clear limit := by
  obtain ⟨n, rfl⟩ := h.exists_limit
  refine ⟨fun name hname => ?_, fun i => ?_⟩
  · exact h.passes_object (by simpa [Key.name] using hname) trivial (n + 1)
  · exact h.passes_array (Key.item_ne_proto i) trivial n fun _ => trivial

theorem free_name {name : String} (hname : name ≠ "__proto__") : e.Free limit name := by
  have hk : Key.name name ≠ .name "__proto__" := by simpa [Key.name] using hname
  obtain ⟨n, rfl⟩ := h.exists_limit
  exact ⟨hname, @passes_object _ _ _ (· = none) h hk rfl (n + 1)⟩

/-- The prototypes are intact if the handler of live values has its method. -/
theorem intact (hbridge : Intrinsic.bridge < limit) (hsettled : (e.object Intrinsic.bridge).Settled)
    (hproxy : (e.object Intrinsic.bridge).isProxy = false) (hmethod : e.Method limit .get) :
    e.Intact limit where
  number := h.clear.members "port" (by decide)
  protocol := h.clear.members "proto" (by decide)
  items := h.clear.items
  untagged := by
    have htag : Key.symbol .tag ≠ .name "__proto__" := nofun
    obtain ⟨n, rfl⟩ := h.exists_limit
    rintro proto (rfl | rfl)
    · exact @passes_object _ _ _ (· = none) h htag rfl (n + 1)
    · exact @passes_array _ _ _ (· = none) h htag rfl n nofun
  handler := ⟨hbridge, hsettled, hproxy⟩
  method := hmethod

end Engine.Bare

end HostView.Script
