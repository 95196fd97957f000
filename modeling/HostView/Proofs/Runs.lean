import HostView.Proofs.Session

/-! # Runs side by side

A run is made of moves: the host shows a value under a mask, or the script does something, which it
may choose by all that it was given before. On machines that only differ where a policy lets no script
look, a run gives the same and leaves such machines, as long as it shows values only as the policy
allows. What a single run does to its bridge is known by the way.
-/

namespace HostView.Script

open Discipline

variable {P : Policy} {old n : Nat} {b : Bridge} {m m' : Machine} {ε α : Type}

/-! ### Machines that are kin -/

/-- Two machines of which a script can tell no difference: the engines are one, and the bridges
show the same. -/
structure Machine.Kin (P : Policy) (old : Nat) (m m' : Machine) : Prop where
  engine : m.toEngine = m'.toEngine
  bridge : Bridge.Kin P old m.toBridge m'.toBridge

/-- How two machines go on that are alike: what they give is the same, they stay alike, and the first
becomes what it may. -/
structure Machine.Follows (P : Policy) (old : Nat) (m : Machine) (p q : α × Machine) : Prop where
  reply : p.1 = q.1
  alike : p.2.Kin P old q.2
  leads : Bridge.Leads P False old m.toBridge p.2.toBridge

/-- An action that agrees with itself goes on alike. -/
theorem Machine.Kin.act {a : ExceptT ε Effect α} {post : α → Bridge → Prop}
    (hm : m.Kin P old m')
    (h : (kin P False old).Agrees (invoke n) m.toEngine m.toBridge m'.toBridge a a post) :
    m.Follows P old (m.act n a) (m'.act n a) := by
  obtain ⟨e, b⟩ := m
  obtain ⟨e', c⟩ := m'
  obtain rfl : e = e' := hm.engine
  exact ⟨h.result, ⟨h.engine, h.alike⟩, h.leads⟩

/-! ### Moves -/

/-- What may happen next: the host shows a value under a mask, or the script does something. -/
inductive Move where
  | expose (mask : Mask) (root : Ref)
  | act (choose : List (Except Thrown Reply) → ScriptOperation)

namespace Move

/-- What the move gives, after all that was given before, and the machine that it leaves. -/
def step (n : Nat) (given : List (Except Thrown Reply)) (m : Machine) :
    Move → Except Thrown Reply × Machine
  | expose mask root => (m.act n (wrapValue mask root)).map (Reply.value <$> ·) id
  | act choose => m.act n (liftM (choose given).perform : Action Reply)

/-- Makes the moves one after the other, and gives all that was given. -/
def run (n : Nat) : List Move → List (Except Thrown Reply) → Machine →
    List (Except Thrown Reply) × Machine
  | [], given, m => (given, m)
  | move :: moves, given, m =>
    let (reply, m) := move.step n given m
    run n moves (given ++ [reply]) m

/-- The move shows a value only as the policy allows. -/
def Allowed (P : Policy) (h : Heap) : Move → Prop
  | expose mask root => root < h.cells.size ∧ P.Shows root (h.typeOf root) mask
  | act _ => True

variable {move : Move} {moves : List Move} {given : List (Except Thrown Reply)}

theorem Allowed.extend {g h : Heap} (hmove : move.Allowed P g) (hgrows : g.Extends h) :
    move.Allowed P h := by
  cases move with
  | expose mask root =>
      exact ⟨Nat.lt_of_lt_of_le hmove.1 hgrows.size_le,
        (hgrows.typeOf_eq root hmove.1).symm ▸ hmove.2⟩
  | act choose => trivial

end Move

theorem Machine.Kin.step {move : Move} (hm : m.Kin P old m') (n : Nat)
    (given : List (Except Thrown Reply)) (hmove : move.Allowed P m.heap)
    (hlends : ∀ r, P.Lends r) :
    m.Follows P old (move.step n given m) (move.step n given m') := by
  have hcall := invoke_lawful P old n
  cases move with
  | expose mask root =>
      have hshown := hm.act
        (wrapValue_agrees hcall hm.bridge hmove.1 hmove.2 (.inr (.inr (hlends root))))
      exact ⟨congrArg (Reply.value <$> ·) hshown.reply, hshown.alike, hshown.leads⟩
  | act choose => exact hm.act (.routine hcall hm.bridge (choose given).perform)

/-- A run goes on alike. -/
theorem Machine.Kin.run {moves : List Move} (hm : m.Kin P old m') (n : Nat)
    (given : List (Except Thrown Reply)) (hmoves : ∀ move ∈ moves, move.Allowed P m.heap)
    (hlends : ∀ r, P.Lends r := by exact fun _ => trivial) :
    m.Follows P old (Move.run n moves given m) (Move.run n moves given m') := by
  induction moves generalizing given m m' with
  | nil => exact ⟨rfl, hm, .refl _⟩
  | cons move moves ih =>
      obtain ⟨hmove, hrest⟩ := List.forall_mem_cons.mp hmoves
      have hfirst := hm.step n given hmove hlends
      have hlater := ih hfirst.alike (given ++ [(move.step n given m).1])
        fun later hlater => (hrest later hlater).extend hfirst.leads.grows
      simp only [Move.run]
      rw [← hfirst.reply]
      exact ⟨hlater.reply, hlater.alike, hfirst.leads.trans hlater.leads⟩

end HostView.Script
