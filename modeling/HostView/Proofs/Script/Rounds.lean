import HostView.Proofs.Script.Running

/-! # Rounds of a loop

Steps and loops are followed backwards, from how they end to how their parts end. A loop succeeds if
its rounds do, one after the other; it throws what the first round throws that does not succeed.
-/

namespace HostView.Script

variable {call : Caller} {m m' : Machine} {ε ε' α β : Type}

/-! ### Two steps -/

theorem succeeds_bind_iff {a : ExceptT ε Effect α} {f : α → ExceptT ε Effect β} {w : β} :
    Succeeds call m (a >>= f) w m' ↔
      ∃ v m₁, Succeeds call m a v m₁ ∧ Succeeds call m₁ (f v) w m' := by
  refine ⟨Succeeds.of_bind, ?_⟩
  rintro ⟨v, m₁, ha, hf⟩
  exact ha.bind hf

theorem throws_bind_iff {a : ExceptT ε Effect α} {f : α → ExceptT ε Effect β} {fault : ε} :
    Throws call m (a >>= f) fault m' ↔
      Throws call m a fault m' ∨ ∃ v m₁, Succeeds call m a v m₁ ∧ Throws call m₁ (f v) fault m' := by
  refine ⟨Throws.of_bind, ?_⟩
  rintro (ha | ⟨v, m₁, ha, hf⟩)
  · exact ha.bind
  · exact ha.bind_throws hf

/-- A step may be replaced by one that runs alike. -/
theorem run_bind_congr {a a' : ExceptT ε Effect α} {f : α → ExceptT ε Effect β}
    (h : (a.run.run call).run m = (a'.run.run call).run m) :
    ((a >>= f).run.run call).run m = ((a' >>= f).run.run call).run m := by
  obtain ⟨v, m₁, ha⟩ | ⟨fault, m₁, ha⟩ := succeeds_or_throws call m a
  · have ha' : Succeeds call m a' v m₁ := h.symm.trans ha
    exact (ha.bind_run f).trans (ha'.bind_run f).symm
  · have ha' : Throws call m a' fault m₁ := h.symm.trans ha
    exact (Throws.bind ha).trans (Throws.bind ha').symm

/-- After a step that succeeds, what comes later decides. -/
theorem Succeeds.throws_bind_iff {a : ExceptT ε Effect α} {f : α → ExceptT ε Effect β} {v : α}
    {m₁ : Machine} {fault : ε} (ha : Succeeds call m a v m₁) :
    Throws call m (a >>= f) fault m' ↔ Throws call m₁ (f v) fault m' := by
  rw [Throws, Throws, ha.bind_run f]

/-- Before a step that cannot throw, what comes earlier decides. -/
theorem throws_bind_pure_iff {a : ExceptT ε Effect α} {f : α → β} {fault : ε} :
    Throws call m (a >>= fun v => pure (f v)) fault m' ↔ Throws call m a fault m' := by
  rw [throws_bind_iff]
  refine ⟨?_, .inl⟩
  rintro (ha | ⟨v, m₁, -, hpure⟩)
  · exact ha
  · exact absurd hpure Succeeds.pure.not_throws

theorem succeeds_adapt_iff {a : ExceptT ε Effect α} {path : ε → ε'} {v : α} :
    Succeeds call m (ExceptT.adapt path a) v m' ↔ Succeeds call m a v m' := by
  refine ⟨fun h => ?_, .adapt path⟩
  obtain ⟨w, m₁, ha⟩ | ⟨fault, m₁, ha⟩ := succeeds_or_throws call m a
  · obtain ⟨rfl, rfl⟩ := (ha.adapt path).unique h
    exact ha
  · exact absurd (ha.adapt path) h.not_throws

theorem throws_adapt_iff {a : ExceptT ε Effect α} {path : ε → ε'} {fault : ε'} :
    Throws call m (ExceptT.adapt path a) fault m' ↔
      ∃ cause, fault = path cause ∧ Throws call m a cause m' := by
  constructor
  · intro h
    obtain ⟨v, m₁, ha⟩ | ⟨cause, m₁, ha⟩ := succeeds_or_throws call m a
    · exact absurd h (ha.adapt path).not_throws
    · obtain ⟨rfl, rfl⟩ := (ha.adapt path).unique h
      exact ⟨cause, rfl, ha⟩
  · rintro ⟨cause, rfl, ha⟩
    exact ha.adapt path

/-! ### Loops -/

/-- The rounds for some items, each on the machine that the one before it left. -/
inductive Rounds (round : α → Machine → Machine → Prop) : List α → Machine → Machine → Prop where
  | nil {m : Machine} : Rounds round [] m m
  | cons {x : α} {rest : List α} {m m₁ m' : Machine} (hfirst : round x m m₁)
      (hrest : Rounds round rest m₁ m') : Rounds round (x :: rest) m m'

/-- The rounds before the one for an item. -/
inductive UpTo (round : α → Machine → Machine → Prop) (xs : List α) (x : α) (m m' : Machine) : Prop where
  | intro {done rest : List α} (hsplit : xs = done ++ x :: rest) (hdone : Rounds round done m m')

theorem UpTo.head {round : α → Machine → Machine → Prop} {x : α} {rest : List α} :
    UpTo round (x :: rest) x m m :=
  .intro (List.nil_append _).symm .nil

theorem UpTo.tail {round : α → Machine → Machine → Prop} {x y : α} {rest : List α} {m₁ : Machine}
    (hfirst : round x m m₁) (hrest : UpTo round rest y m₁ m') : UpTo round (x :: rest) y m m' := by
  cases hrest with
  | intro hsplit hdone => exact .intro (by rw [hsplit, List.cons_append]) (.cons hfirst hdone)

namespace Rounds

variable {round : α → Machine → Machine → Prop} {xs ys : List α}

theorem append_iff : Rounds round (xs ++ ys) m m' ↔
    ∃ m₁, Rounds round xs m m₁ ∧ Rounds round ys m₁ m' := by
  induction xs generalizing m with
  | nil =>
      refine ⟨fun h => ⟨m, .nil, h⟩, ?_⟩
      rintro ⟨m₁, hnone, h⟩
      cases hnone
      exact h
  | cons x xs ih =>
      rw [List.cons_append]
      constructor
      · intro h
        cases h with
        | cons hfirst hrest =>
            obtain ⟨m₁, hxs, hys⟩ := ih.mp hrest
            exact ⟨m₁, .cons hfirst hxs, hys⟩
      · rintro ⟨m₁, hxs, hys⟩
        cases hxs with
        | cons hfirst hrest => exact .cons hfirst (ih.mpr ⟨m₁, hrest, hys⟩)

end Rounds

section

variable {round round' : α → Machine → Machine → Prop} {xs ys : List α} {x : α}

theorem UpTo.mem (h : UpTo round xs x m m') : x ∈ xs := by
  obtain ⟨rfl, -⟩ := h
  exact List.mem_append_right _ List.mem_cons_self

theorem UpTo.append (h : UpTo round xs x m m') (ys : List α) : UpTo round (xs ++ ys) x m m' := by
  obtain ⟨hsplit, hdone⟩ := h
  exact .intro (by rw [hsplit, List.append_assoc, List.cons_append]) hdone

variable (h : ∀ x m₁, UpTo round xs x m m₁ → ∀ m₂, round x m₁ m₂ ↔ round' x m₁ m₂)

include h

/-- Loops have the same rounds if each round is the same, as far as the loop comes. -/
theorem Rounds.congr : Rounds round xs m m' ↔ Rounds round' xs m m' := by
  induction xs generalizing m with
  | nil =>
      constructor <;>
      · intro hnone
        cases hnone
        exact .nil
  | cons x xs ih =>
      have hfirst := h x m .head
      have hlater {m₁ : Machine} (hx : round x m m₁) :=
        ih fun y m₂ hy => h y m₂ (hy.tail hx)
      constructor
      · intro hrounds
        cases hrounds with
        | cons hx hrest => exact .cons ((hfirst _).mp hx) ((hlater hx).mp hrest)
      · intro hrounds
        cases hrounds with
        | cons hx hrest =>
            have hx' := (hfirst _).mpr hx
            exact .cons hx' ((hlater hx').mpr hrest)

theorem UpTo.congr : UpTo round xs x m m' ↔ UpTo round' xs x m m' := by
  have hbefore {done rest : List α} (hsplit : xs = done ++ x :: rest) :
      Rounds round done m m' ↔ Rounds round' done m m' :=
    Rounds.congr fun y m₁ hy => h y m₁ (hsplit ▸ hy.append (x :: rest))
  constructor
  · rintro ⟨hsplit, hdone⟩
    exact .intro hsplit ((hbefore hsplit).mp hdone)
  · rintro ⟨hsplit, hdone⟩
    exact .intro hsplit ((hbefore hsplit).mpr hdone)

end

theorem forM_cons (body : α → ExceptT ε Effect Unit) (x : α) (xs : List α) :
    (x :: xs).forM body = body x >>= fun _ => xs.forM body := rfl

section

variable {body : α → ExceptT ε Effect Unit} {round : α → Machine → Machine → Prop} {xs : List α}
  (hround : ∀ x m m', Succeeds call m (body x) () m' ↔ round x m m')

include hround

/-- A loop succeeds if its rounds do. -/
theorem succeeds_forM_iff : Succeeds call m (xs.forM body) () m' ↔ Rounds round xs m m' := by
  induction xs generalizing m with
  | nil =>
      constructor
      · intro h
        obtain ⟨-, rfl⟩ := Succeeds.pure.unique h
        exact .nil
      · intro h
        cases h
        exact .pure
  | cons x xs ih =>
      rw [forM_cons, succeeds_bind_iff]
      constructor
      · rintro ⟨⟨⟩, m₁, hfirst, hrest⟩
        exact .cons ((hround x m m₁).mp hfirst) (ih.mp hrest)
      · intro h
        cases h with
        | cons hfirst hrest => exact ⟨(), _, (hround x m _).mpr hfirst, ih.mpr hrest⟩

/-- A loop throws what the first round throws that does not succeed. -/
theorem throws_forM_iff {fault : ε} : Throws call m (xs.forM body) fault m' ↔
    ∃ x m₁, UpTo round xs x m m₁ ∧ Throws call m₁ (body x) fault m' := by
  induction xs generalizing m with
  | nil =>
      constructor
      · intro h
        exact absurd h Succeeds.pure.not_throws
      · rintro ⟨x, m₁, ⟨hsplit, -⟩, -⟩
        cases List.append_ne_nil_of_right_ne_nil _ (List.cons_ne_nil _ _) hsplit.symm
  | cons x xs ih =>
      rw [forM_cons, throws_bind_iff]
      constructor
      · rintro (hfirst | ⟨⟨⟩, m₁, hfirst, hrest⟩)
        · exact ⟨x, m, .head, hfirst⟩
        · obtain ⟨y, m₂, hdone, hthrows⟩ := ih.mp hrest
          exact ⟨y, m₂, hdone.tail ((hround x m m₁).mp hfirst), hthrows⟩
      · rintro ⟨y, m₁, ⟨hsplit, hdone⟩, hthrows⟩
        cases hdone with
        | nil =>
            obtain ⟨rfl, -⟩ := List.cons.inj hsplit
            exact .inl hthrows
        | cons hfirst hdone =>
            obtain ⟨rfl, hrest⟩ := List.cons.inj hsplit
            exact .inr ⟨(), _, (hround _ m _).mpr hfirst, ih.mpr ⟨y, m₁, .intro hrest hdone, hthrows⟩⟩

/-- A loop runs as another one if each of its rounds does, as far as the loop comes. -/
theorem forM_run_congr {body' : α → ExceptT ε Effect Unit}
    (hbody : ∀ x m₁, UpTo round xs x m m₁ →
      ((body x).run.run call).run m₁ = ((body' x).run.run call).run m₁) :
    ((xs.forM body).run.run call).run m = ((xs.forM body').run.run call).run m := by
  induction xs generalizing m with
  | nil => rfl
  | cons x xs ih =>
      have hfirst := hbody x m .head
      rw [forM_cons, forM_cons]
      obtain ⟨⟨⟩, m₁, hx⟩ | ⟨fault, m₁, hx⟩ := succeeds_or_throws call m (body x)
      · have hx' : Succeeds call m (body' x) () m₁ := hfirst.symm.trans hx
        rw [hx.bind_run, hx'.bind_run]
        exact ih fun y m₂ hy => hbody y m₂ (hy.tail ((hround x m m₁).mp hx))
      · have hx' : Throws call m (body' x) fault m₁ := hfirst.symm.trans hx
        exact (Throws.bind hx).trans (Throws.bind hx').symm

end

end HostView.Script
