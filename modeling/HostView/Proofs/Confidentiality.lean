import HostView.Proofs.Runs

/-! # What a mask keeps secret

A script that was shown one host value under a mask learns nothing of the fields that the mask
hides. Two sessions over heaps that differ only there give the same results, throw the same errors
and leave heaps that differ only there. The script may choose each operation by all it was given
before, and it may write what it was given back into what it can reach.
-/

namespace HostView.Script

variable {masks : Mask → Prop} {n : Nat}

/-- A script that chooses each operation by what it was given before. -/
abbrev Strategy := List (List (Except Thrown Reply) → ScriptOperation)

/-- Performs the operations of a strategy, and gives all that was given. -/
def Strategy.play (n : Nat) : Strategy → List (Except Thrown Reply) → Machine →
    List (Except Thrown Reply) × Machine
  | [], given, m => (given, m)
  | choose :: rest, given, m =>
    let (reply, m) := m.act n (liftM (choose given).perform : Action Reply)
    play n rest (given ++ [reply]) m

/-- A session in which a script is shown one host value under a mask. -/
def Strategy.session (script : Strategy) (n : Nat) (mask : Mask) (root : Ref) (m : Machine) :
    List (Except Thrown Reply) × Machine :=
  let (shown, m) := m.act n (wrapValue mask root)
  script.play n [Reply.value <$> shown] m

/-- A strategy is a run without further values that are shown. -/
theorem Strategy.play_eq_run (script : Strategy) (given : List (Except Thrown Reply))
    (m : Machine) : script.play n given m = Move.run n (script.map .act) given m := by
  induction script generalizing given m with
  | nil => rfl
  | cons choose rest ih => exact ih _ _

/-- A session is a run that begins with the one value that is shown. -/
theorem Strategy.session_eq_run (script : Strategy) (mask : Mask) (root : Ref) (m : Machine) :
    script.session n mask root m = Move.run n (.expose mask root :: script.map .act) [] m :=
  script.play_eq_run _ _

/-- Two machines of which a script can tell no difference: the engines are one, and the bridges
show the same. -/
structure Machine.Alike (masks : Mask → Prop) (m m' : Machine) : Prop where
  engine : m.toEngine = m'.toEngine
  bridge : Bridge.Twins masks 0 m.toBridge m'.toBridge

/-- A whole session is the same on machines that are alike, if it shows a host value under one of
the masks. -/
theorem Machine.Alike.session {m m' : Machine} (hm : m.Alike masks m') (script : Strategy)
    {mask : Mask} (hmask : masks mask) {root : Ref} (hroot : root < m.heap.cells.size) :
    (script.session n mask root m).1 = (script.session n mask root m').1 ∧
      (script.session n mask root m).2.Alike masks (script.session n mask root m').2 := by
  have hkin : m.Kin (.ofMasks masks) 0 m' := ⟨hm.engine, hm.bridge.kin⟩
  have hmoves : ∀ move ∈ Move.expose mask root :: script.map .act,
      move.Allowed (.ofMasks masks) m.heap := by
    simpa [Move.Allowed, Policy.ofMasks] using ⟨hroot, hmask⟩
  simp only [Strategy.session_eq_run]
  obtain ⟨hreply, hend, -⟩ := hkin.run n [] hmoves
  exact ⟨hreply, hend.engine, hend.bridge.twins⟩

/-- The type of an account, of which a mask for logs shows the name and hides the secret. -/
def accountType : HostType :=
  .record 0 "account" [⟨"name", .atom .string, .log⟩, ⟨"secret", .atom .string, .optional⟩]

/-- Two texts, and an account whose secret may be either of them or unset. -/
def accounts (secret : Option Ref) : Heap :=
  ⟨#[⟨.atom .string, .atom (.string "a")⟩, ⟨.atom .string, .atom (.string "b")⟩,
    ⟨accountType, .record [some 0, secret]⟩]⟩

theorem accounts_wellTyped {secret : Option Ref} (hsecret : ∀ v, secret = some v → v < 2) :
    (accounts secret).WellTyped := by
  have htext : ∀ v < 2, (accounts secret).Holds (.atom .string) v
    | 0, _ => ⟨Nat.zero_lt_succ 2, rfl⟩
    | 1, _ => ⟨Nat.succ_lt_succ (Nat.zero_lt_succ 1), rfl⟩
  intro r hr
  match r with
  | 0 | 1 => exact .atom rfl
  | 2 =>
      refine .record rfl fun i f v hf hv => ?_
      match i with
      | 0 =>
          cases hf
          cases hv
          exact htext 0 (by decide)
      | 1 =>
          cases hf
          exact htext v (hsecret v (Option.some.inj hv))

end HostView.Script
