import HostView.Proofs.Exposure.TableWrites
import HostView.Proofs.Integrity

/-! # Type safety of conversions

What a script writes is checked when it is converted, and never again to any effect: a conversion gives a
value of the type, or it tells what is wrong with the script value. The checks that the host makes of its
own, of the parts that are stored and of the entries and fields that are changed, are passed by whatever
has been converted, however its parts were come by. One is left for scripts to run into: a required field
cannot be cleared.
-/

namespace HostView.Script

variable {m m' : Machine} {n : Nat} {r : Receiver} {target : ObjectId}

/-- What an action throws is as its writes say. -/
theorem Writes.blames {call : Caller} {P : Policy} {fixed : Prop} {old : Nat} {α ε : Type}
    {a : ExceptT ε Effect α} {may : Ref → Place → Prop} {blame : ε → Prop} {fault : ε}
    (h : Writes P fixed old call m.toEngine m.toBridge m.toBridge a a may blame)
    (hthrows : Throws call m a fault m') : blame fault := by
  have hjudged := h.post.2
  rwa [hthrows] at hjudged

/-- No field is required of a table. -/
theorem Machine.not_requires_of_table {key : AtomType} {yield : Option HostType} {fault : HostFault}
    (hr : m.receiver? target = some r) (htype : m.heap.typeOf r.value = .table key yield) :
    ¬ m.Requires target fault := by
  rintro ⟨r', hr', -, hrequires⟩
  obtain rfl : r = r' := Option.some.inj (hr.symm.trans hr')
  cases hrequires with
  | intro hrecord => cases htype.symm.trans hrecord

/-- A conversion of any script value gives a value of the type in a well-typed heap, or fails for a fault
of the script value. A request to change a property of a live value is refused by the host only if it is
to clear a required field that the object shows; a table refuses nothing that was converted. -/
theorem conversion_type_safe (hm : m.Sound) (n : Nat) :
    (∀ type v, match m.act n (toHost type v) with
      | (.ok s, m') => m'.heap.Holds type s ∧ m'.heap.WellTyped
      | (.error fault, m') => fault.OfValue ∧ m'.heap.WellTyped) ∧
    (∀ (request : Request) target k cause m',
      Throws (invoke n) m (request.perform target k) (.refused cause) m' →
        cause.Blames fun fault => request.Clears ∧ m.Requires target fault) ∧
    ∀ (request : Request) target k r key yield fault m', m.receiver? target = some r →
      m.heap.typeOf r.value = .table key yield →
        ¬ Throws (invoke n) m (request.perform target k) (.refused (.host fault)) m' := by
  have hcall := invoke_lawful (.ofMasks fun _ => True) 0 n
  have hblames (request : Request) target k {cause m'}
      (hthrows : Throws (invoke n) m (request.perform target k) (.refused cause) m') :
      cause.Blames fun fault => request.Clears ∧ m.Requires target fault :=
    (request.perform_writes hcall hm.kin target k).blames hthrows
  refine ⟨fun type v => ?_, fun request target k cause m' => hblames request target k, ?_⟩
  · rcases hrun : m.act n (toHost type v) with ⟨x, m'⟩
    obtain ⟨hheap, -, hjudged⟩ := toHost_leaves hcall hm.kin hrun
    cases x with
    | ok s => exact ⟨hjudged, hheap⟩
    | error fault => exact ⟨hjudged, hheap⟩
  · intro request target k r key yield fault m' hr htype hthrows
    exact Machine.not_requires_of_table hr htype (hblames request target k hthrows).2

/-- A plain object that spells an account is converted to one. -/
theorem conversion_type_safe_account :
    let m : Machine := ⟨boxEngine, .start (boxHeap none)⟩
    m.Sound ∧ ∃ s m', m.act 9 (toHost accountType (.object 14)) = (.ok s, m') ∧
      m'.heap.Holds accountType s ∧ m'.heap.WellTyped := by
  intro m
  have hheap : (boxHeap none).WellTyped := boxHeap_wellTyped nofun
  have hm : m.Sound := (obeys_start hheap).twins
  have hok : (m.act 9 (toHost accountType (.object 14))).1.isOk = true := by decide +kernel
  have hsafe := (conversion_type_safe hm 9).1 accountType (.object 14)
  refine ⟨hm, ?_⟩
  rcases hrun : m.act 9 (toHost accountType (.object 14)) with ⟨x, m'⟩
  rw [hrun] at hok hsafe
  cases x with
  | ok s => exact ⟨s, m', rfl, hsafe⟩
  | error fault => cases hok

end HostView.Script
