import HostView.Proofs.Atomicity
import HostView.Proofs.Host.Acyclic

/-! # Host values without circles

Whatever the host and scripts do with them, host values refer down to values of the types that their
own types are made of. So nothing that follows references comes back to where it was, and everything
that follows them to their end gets there: the text of a value, the comparison of two, the snapshot of
one and the showing of one to a script. A bound on the steps makes no difference as soon as it is as
deep as the type.
-/

namespace HostView.Script

open Discipline

variable {m : Machine} {mask : Mask} {r : Ref} {n k : Nat}

/-- A value is shown in as many steps as its type is deep. -/
theorem Machine.Sound.act_wrapWithin (hm : m.Sound) (hr : r < m.heap.cells.size)
    (hk : (m.heap.typeOf r).depth ≤ k) :
    m.act n (wrapWithin mask k r) = m.act n (wrapValue mask r) := by
  have hagrees : (twins (fun _ => True) False 0).Agrees (invoke n) m.toEngine m.toBridge m.toBridge
      (wrapWithin mask k r) (wrapWithin mask (m.heap.reach r) r) fun _ _ => True :=
    wrapWithin_agrees (invoke_lawful _ 0 n) hm.kin hr trivial Bridge.offers_ofMasks hk
      (Nat.le_add_left ..)
  generalize hleft : m.act n (wrapWithin mask k r) = left
  generalize hright : m.act n (wrapValue mask r) = right
  have hresult : left.1 = right.1 := hleft ▸ hright ▸ hagrees.result
  have hengine : left.2.toEngine = right.2.toEngine := hleft ▸ hright ▸ hagrees.engine
  have hbridge : left.2.toBridge = right.2.toBridge := by
    subst hleft hright
    exact Bridge.Twins.eq hagrees.alike.twins
  obtain ⟨x, e, b⟩ := left
  obtain ⟨x', e', b'⟩ := right
  cases hresult
  cases hengine
  cases hbridge
  rfl

/-- Host values never refer to each other in a circle: each refers to values of types that its own
type is made of. So a value is read, written, compared and put into a snapshot to its end, and shown
in as many steps as its type is deep, and what nothing holds any more is dropped. -/
theorem reachable_acyclic (hm : Reachable n m) :
    (∀ r v, m.heap.Refers r v → ∃ σ, σ.Part (m.heap.typeOf r) ∧ (m.heap.typeOf v).same σ) ∧
    (∀ r, ¬ Relation.TransGen m.heap.Refers r r) ∧
    WellFounded (fun v r => m.heap.Refers r v) ∧
    (∀ r k, (m.heap.typeOf r).depth ≤ k →
      (Image.read m.heap k r).Valid ∧ Image.of m.heap r = Image.read m.heap k r) ∧
    (∀ calls mask r k, r < m.heap.cells.size → (m.heap.typeOf r).depth ≤ k →
      m.act calls (wrapWithin mask k r) = m.act calls (wrapValue mask r)) ∧
    ∀ held v, m.heap.Dropped held v ↔ ¬ m.heap.Retained held v :=
  have hh := hm.sound.heap.left
  ⟨fun _ _ => hh.part, hh.acyclic, hh.wellFounded,
    fun _ _ hk => ⟨hh.valid_read hk, hh.image_eq hk⟩,
    fun _ _ _ _ => hm.sound.act_wrapWithin, fun _ _ => hh.dropped_iff⟩

/-- A record in a record whose declaration has the same structure as the declared one and another
descriptor, while a script has the outer one. -/
theorem reachable_acyclic_nested :
    let inner (d : Nat) := HostType.record d "point" [⟨"x", .atom .string, .optional⟩]
    let outer := HostType.record 0 "pair" [⟨"left", inner 1, .optional⟩, ⟨"right", inner 1, .optional⟩]
    let build := Event.step 9 (Event.step 9 (Event.step 9 (.start .empty)
      (.host (.createRecord outer))) (.host (.createRecord (inner 2))))
      (.host (.setFieldByName 0 "right" (some 1)))
    let m := Event.step 9 (Event.step 9 build (.expose .all 0))
      (.script (.set Intrinsic.globals (.name "x") (.string "b")))
    Reachable 9 m ∧ build.heap.Refers 0 1 ∧ ¬ Relation.TransGen m.heap.Refers 0 0 := by
  intro inner outer build m
  have hm : Reachable 9 m := by
    refine .step _ (.step _ (.step _ (.step _ (.step _ .start ?_) ?_) ?_) ?_) ?_
    · trivial
    · trivial
    · rintro v ⟨⟩
      decide
    · show 0 < 2
      decide
    · trivial
  refine ⟨hm, ?_, (reachable_acyclic hm).2.1 0⟩
  exact List.mem_cons_of_mem _ List.mem_cons_self

end HostView.Script
