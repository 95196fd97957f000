import HostView.Exposure.Outbound
import HostView.Proofs.Exposure.Twins

/-! # Showing host values

A host value is shown to scripts alike over kin bridges, if the policy allows it and something led to it
before, and every wrap that is made on the way carries the mask under which the value is shown.
-/

namespace HostView

namespace Script

open Discipline

variable {P : Policy} {fixed : Prop} {old : Nat} {b c : Bridge} {call : Caller} {e : Engine}
  {mask : Mask} {r : Ref}

theorem countValue_agrees (h : Bridge.Kin P old b c) (n : UInt64) :
    (kin P fixed old).Agrees call e b c (countValue n) (countValue n) fun _ _ => True := by
  rw [h.rest]
  exact .modifyBridge rfl rfl (h.keepHeap rfl h.wraps h.snapshots (h.integers.get n).2)
    (Bridge.leads_of_heap_eq rfl rfl (.refl _)) trivial

section

variable (hcall : (kin P fixed old).Lawful call) (h : Bridge.Kin P old b c)

include hcall h

theorem atomValue_agrees (α : AtomType) (a : Atom) :
    (kin P fixed old).Agrees call e b c (atomValue α a) (atomValue α a) fun _ _ => True := by
  unfold atomValue
  split
  case h_3 => exact countValue_agrees h _
  case h_5 => exact .routine hcall h _
  all_goals exact .pure h trivial

theorem wrapObject_agrees (hr : r < b.heap.cells.size) (hshows : P.Shows r (b.heap.typeOf r) mask)
    (hoffers : b.Offers P r) :
    (kin P fixed old).Agrees call e b c (wrapObject mask r) (wrapObject mask r)
      fun _ _ => True := by
  unfold wrapObject
  refine .get_bind ?_
  simp only [← h.heap.typeOf_eq r]
  refine .bind (P := fun _ _ => True) ?_ fun w e' b' c' h' _ _ => ?_
  · rw [h.rest]
    refine .modifyBridge rfl rfl (h.keepHeap rfl ?_ h.snapshots h.integers)
      (Bridge.leads_of_wraps rfl (.construct ..) ?_ (.refl _)) trivial
    case refine_2 =>
      rintro v ⟨w, wrap, hw, hv⟩
      rcases Ledger.wrap?_construct hw with rfl | hold
      · exact .inr (Option.some.inj hv ▸ hoffers)
      · exact .inl ⟨w, wrap, hold, hv⟩
    intro w wrap hw
    rcases Ledger.wrap?_construct hw with rfl | hold
    · exact ⟨⟨r, _, hshows⟩, by rintro v ⟨⟩; exact ⟨hr, hshows⟩⟩
    · exact h.wraps w wrap hold
  refine .bind (.routine hcall h' _) fun target e₁ b₁ c₁ h₁ _ _ => ?_
  refine .bind (P := fun _ _ => True) ?_ fun _ e₂ b₂ c₂ h₂ _ _ => ?_
  · rw [h₁.rest]
    refine .modifyBridge rfl rfl (h₁.keepHeap rfl ?_ h₁.snapshots h₁.integers)
      (Bridge.leads_of_wraps rfl (.attach ..) ?_ (.refl _)) trivial
    case refine_2 =>
      rintro v ⟨w', wrap, hw, hv⟩
      obtain ⟨wrap', hwrap', hvalue, -⟩ := Ledger.wrap?_attach hw
      exact .inl ⟨w', wrap', hwrap', hvalue.trans hv⟩
    intro w' wrap hw
    obtain ⟨wrap', hwrap', hvalue, hmask'⟩ := Ledger.wrap?_attach hw
    rw [← hvalue, ← hmask']
    exact h₁.wraps w' wrap' hwrap'
  split
  next => exact .pure h₂ trivial
  next => exact .bind (.routine hcall h₂ _) fun _ _ _ _ h₃ _ _ => .pure h₃ trivial

end

/-- A value is shown alike by any two bounds on the steps as long as they reach through its type. -/
theorem wrapWithin_agrees (hcall : (kin P fixed old).Lawful call) {n k : Nat}
    (h : Bridge.Kin P old b c) (hr : r < b.heap.cells.size)
    (hshows : P.Shows r (b.heap.typeOf r) mask) (hoffers : b.Offers P r)
    (hn : (b.heap.typeOf r).depth ≤ n) (hk : (b.heap.typeOf r).depth ≤ k) :
    (kin P fixed old).Agrees call e b c (wrapWithin mask n r) (wrapWithin mask k r)
      fun _ _ => True := by
  induction n generalizing e b c r k with
  | zero => exact absurd hn (Nat.not_le.mpr (HostType.depth_pos _))
  | succ n ih =>
      obtain ⟨k, rfl⟩ := Nat.exists_eq_succ_of_ne_zero
        (Nat.ne_of_gt (Nat.lt_of_lt_of_le (HostType.depth_pos _) hk))
      unfold wrapWithin
      refine .get_bind ?_
      have hobject := wrapObject_agrees (e := e) hcall h hr hshows hoffers
      have halike := h.heap.alike r
      have hfits := h.heap.left.fits r
      have hknown := (h.known r · (P.knows hshows))
      have hoffer {b' : Bridge} (hgrows : b.heap.Extends b'.heap) {items : List (Option Ref)} {v : Ref}
          (hitems : b.heap.contentOf r = .vector items) (hv : some v ∈ items) : b'.Offers P v :=
        .inl (.inl ⟨r, hgrows.refersTo_vector hitems hv⟩)
      simp only [Heap.cell_eq, ← h.heap.typeOf_eq r]
      generalize b.heap.typeOf r = type, b.heap.contentOf r = content,
        c.heap.contentOf r = content' at halike hfits hknown hshows hoffer hn hk
      cases halike with
      | record => exact hobject
      | refl =>
          cases hfits with
          | atom => exact atomValue_agrees hcall h _ _
          | real => exact .pure h trivial
          | record | table => exact hobject
          | @vector element items hitems =>
              refine .bind (.routine hcall h _) fun o e₁ b₁ c₁ h₁ hleads _ => ?_
              refine .bind (.forM _ h₁ fun ⟨item, index⟩ hitem e₂ b₂ c₂ h₂ hleads₂ => ?_)
                fun _ _ _ _ h₂ _ _ => .pure h₂ trivial
              cases item with
              | none =>
                  exact .bind (P := fun _ _ => True) (.pure h₂ trivial)
                    fun _ _ _ _ h₃ _ _ => .routine hcall h₃ _
              | some v =>
                  have hv := hitems v (List.fst_mem_of_mem_zipIdx hitem)
                  -- meanwhile the item has kept its type, which is less deep than the vector
                  have htype : b₂.heap.typeOf v = b.heap.typeOf v := by
                    rw [hleads₂.typeOf_eq (hleads.lt hv.lt), hleads.typeOf_eq hv.lt]
                  have hshown : P.Shows v (b.heap.typeOf v) mask := P.part hshows .element hv.same
                    (hknown v (List.fst_mem_of_mem_zipIdx hitem))
                  rw [HostType.depth, ← HostType.depth_eq_of_same hv.same] at hn hk
                  rw [← htype] at hshown hn hk
                  have hoffered := hoffer (hleads.grows.trans hleads₂.grows) rfl
                    (List.fst_mem_of_mem_zipIdx hitem)
                  exact .bind (ih h₂ (hleads₂.lt (hleads.lt hv.lt)) hshown hoffered
                      (Nat.le_of_succ_le_succ hn) (Nat.le_of_succ_le_succ hk))
                    fun _ _ _ _ h₃ _ _ => .routine hcall h₃ _

theorem wrapValue_agrees (hcall : (kin P fixed old).Lawful call) (h : Bridge.Kin P old b c)
    (hr : r < b.heap.cells.size) (hshows : P.Shows r (b.heap.typeOf r) mask) (hoffers : b.Offers P r) :
    (kin P fixed old).Agrees call e b c (wrapValue mask r) (wrapValue mask r) fun _ _ => True := by
  unfold wrapValue
  refine .get_bind ?_
  simp only [← h.heap.reach r]
  exact wrapWithin_agrees hcall h hr hshows hoffers (Nat.le_add_left ..) (Nat.le_add_left ..)

end Script

end HostView
