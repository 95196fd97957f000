import HostView.Proofs.Exposure.RegularImages
import HostView.Proofs.Exposure.Surfaces
import HostView.Proofs.Exposure.Untouched
import HostView.Proofs.SilentReads

/-! # Wraps are made lazily

Showing a value makes a wrap for each record or table on its surface, and no other wrap. Reading a live
value shows what is found, so a read makes as many wraps as that has on its surface. Nothing else that a
live value is asked makes wraps, and no snapshot does. Where prototypes get in the way of what is built,
functions of the script are called in passing; they may make wraps of their own.
-/

namespace HostView.Script

variable {call : Caller} {m m₁ m' : Machine} {ε α β : Type} {target : ObjectId} {r : Ref} {mask : Mask}
  {k : Key} {rest : List Value} {limit : Nat}

/-- The wraps are left as they are. -/
abbrev LeavesWraps (call : Caller) (m : Machine) (a : ExceptT ε Effect α) : Prop :=
  Leaves (·.wraps) call m a

/-! ### What the engine does by itself -/

/-- Calls leave the wraps as they are. -/
def holdingWraps : Discipline where
  alike := Eq
  leads b b' := b'.wraps = b.wraps
  leads_refl _ := rfl
  leads_trans h h' := h'.trans h
  alike_size h := by rw [h]

/-- A routine makes no wraps if the functions that it calls do not. -/
theorem Leaves.routine (hcall : holdingWraps.Lawful call) (a : ExceptT ε Turn α) :
    LeavesWraps call m (liftM a : ExceptT ε Effect α) :=
  (a.run.keeps holdingWraps call hcall m.toEngine m.toBridge m.toBridge rfl).leads

open Classical in
/-- Calls functions in the same way, except that a call which would change the wraps throws instead and
changes nothing. -/
noncomputable def Caller.wrapless (call : Caller) : Caller :=
  fun o purpose arguments m =>
    if ((call o purpose arguments).run.run m).2.wraps = m.wraps then
      (call o purpose arguments).run.run m
    else (.error .depth, m)

theorem wrapless_lawful (call : Caller) : holdingWraps.Lawful call.wrapless := by
  rintro o purpose arguments e b _ rfl
  suffices hjoins : holdingWraps.Joins b (fun _ _ => True)
      ((call.wrapless o purpose arguments).run.run ⟨e, b⟩)
      ((call.wrapless o purpose arguments).run.run ⟨e, b⟩) from hjoins
  refine ⟨rfl, rfl, rfl, ?_, trivial⟩
  by_cases hleaves : ((call o purpose arguments).run.run ⟨e, b⟩).2.wraps = b.wraps
  · have hrun : (call.wrapless o purpose arguments).run.run ⟨e, b⟩ =
        (call o purpose arguments).run.run ⟨e, b⟩ := if_pos hleaves
    rw [hrun]
    exact hleaves
  · have hrun : (call.wrapless o purpose arguments).run.run ⟨e, b⟩ = (.error .depth, ⟨e, b⟩) :=
      if_neg hleaves
    rw [hrun]
    rfl

/-- No function that is called in passing changes the wraps: the run is as it would be if such a call threw
instead. -/
def Alone (call : Caller) (m : Machine) (a : ExceptT ε Effect α) : Prop :=
  (a.run.run call).run m = (a.run.run call.wrapless).run m

theorem Leaves.of_alone {a : ExceptT ε Effect α} (h : Alone call m a) (ha : LeavesWraps call.wrapless m a) :
    LeavesWraps call m a := by
  rwa [LeavesWraps, Leaves, h]

/-- The keys are listed without a wrap. -/
theorem Trap.list_leaves (hcall : holdingWraps.Lawful call) (arguments : List Value) :
    LeavesWraps call m (Trap.list.perform arguments) :=
  .bind (needObject_leaves _) fun _ _ _ => .bind (.get_bind .pure) fun _ _ _ => .routine hcall _

/-- A function that takes snapshots makes no wrap. -/
theorem snapshot_leaves (hcall : holdingWraps.Lawful call) (number : Nat) (f : ObjectId) (purpose : Purpose)
    (arguments : List Value) :
    LeavesWraps call m (Callable.perform (.snapshot number) f purpose arguments) := by
  unfold Callable.perform
  refine .get_bind ?_
  split
  next r mask _ => exact .get_bind (.routine hcall _)
  next => exact .pure

theorem snapshotFunction_leaves (w : Receiver) : LeavesWraps call m (snapshotFunction w) := rfl

/-- Reading what a live value does not have makes no wrap. -/
theorem Trap.get_leaves (hcall : holdingWraps.Lawful call) (hw : m.Wraps target r mask)
    (hlive : WrapKind.of (m.heap.typeOf r) ≠ .bare) (hk : k.WellFormed) (rest : List Value)
    (hmissing : (m.denoted (m.front r mask) k).sight? = none) :
    LeavesWraps call m (Trap.get.perform (.object target :: k.value :: rest)) := by
  have hget := hostGet_denoted hw hlive hk
  rw [hmissing] at hget
  dsimp only at hget
  refine .of_becomes ((Trap.perform_eq .get target k rest).becomes hget.bind)
    (by rw [m.asked_eq]) (.bind ?_ fun found m₁ _ => ?_)
  · split
    next => exact .bind (snapshotFunction_leaves _) fun _ _ _ => .pure
    next =>
      split
      next => exact .pure
      next => split <;> exact .pure
  · cases found with
    | value v => exact .pure
    | inherited => exact .routine hcall _

/-! ### Live values -/

/-- Wraps that are made when a live value, which holds `r` under the mask, is read at a key. Only where
something is found are there any: one for each record or table on the surface of that. -/
structure Reads (call : Caller) (m : Machine) (target : ObjectId) (r : Ref) (mask : Mask) (k : Key)
    (rest : List Value) : Prop where
  found : ∀ s limit, (m.denoted (m.front r mask) k).sight? = some s → m.Fills limit →
    limit ≤ m.objects.size →
      ∃ v m', Succeeds call m (Trap.get.perform (.object target :: k.value :: rest)) v m' ∧
        m.wraps.Enrolls m.heap mask (s.outermost m.heap) m'.wraps
  missing : (m.denoted (m.front r mask) k).sight? = none →
    Alone call m (Trap.get.perform (.object target :: k.value :: rest)) →
      LeavesWraps call m (Trap.get.perform (.object target :: k.value :: rest))
  /-- Nothing is called in passing where the prototypes of wraps have data at most. -/
  silent : ∀ limit ≤ m.objects.size, (m.denoted (m.front r mask) k).sight? = none → k.WellFormed →
    m.Passes limit k Property.Open limit (some Intrinsic.wrap) →
      ∃ v m', Succeeds call m (Trap.get.perform (.object target :: k.value :: rest)) v m' ∧
        m'.wraps = m.wraps

theorem live_reads (hh : m.heap.WellTyped) (hw : m.Wraps target r mask)
    (hlive : WrapKind.of (m.heap.typeOf r) ≠ .bare) (call : Caller) (k : Key) (rest : List Value) :
    Reads call m target r mask k rest where
  found s limit hfound hfills hlimit := by
    have hk : k.WellFormed := by
      rintro u rfl
      cases hfound
    have hasked := m.asked_eq (m.front r mask) k
    have hget := hostGet_denoted hw hlive hk
    rw [hfound, hasked] at hget
    obtain ⟨v, m', hshow, -, henrolls⟩ := showSight_enrolls
      (m := { m with offsets := (m.asked (m.front r mask) k).offsets }) hh hfills hlimit call mask s
    exact ⟨v, m', (Trap.perform_eq .get target k rest).succeeds
      (.bind (hget.succeeds (.bind hshow .pure)) .pure), henrolls⟩
  missing hmissing halone := by
    by_cases hk : k.WellFormed
    · exact .of_alone halone (Trap.get_leaves (wrapless_lawful call) hw hlive hk rest hmissing)
    · obtain ⟨u, rfl⟩ : ∃ u, k = .string (.illFormed u) := by simpa [Key.WellFormed] using hk
      exact .of_throws (Trap.perform_illFormed hw.receiver call u rest (by simp)) rfl
  silent limit hlimit hmissing hk hpasses := by
    have hasked := m.asked_eq (m.front r mask) k
    by_cases hjson : k = .name "toJSON"
    · obtain ⟨f, m', hfunction, -⟩ :=
        snapshotFunction_snapshots call (m.asked (m.front r mask) k) (m.front r mask)
      have hwraps := (snapshotFunction_leaves _).eq hfunction
      rw [hasked] at hwraps
      exact ⟨_, m', Trap.get_snapshot hw hlive hk rest hmissing hjson hfunction, hwraps⟩
    by_cases htag : k = .symbol .tag
    · subst htag
      exact ⟨_, m, performTrap_tag rest hw.receiver, rfl⟩
    cases hdenoted : m.denoted (m.front r mask) k with
    | nothing =>
        obtain ⟨e, hread, -⟩ := Trap.get_open hw hlive hk call rest hdenoted hjson htag hlimit hpasses
        exact ⟨_, _, hread, by rw [hasked]⟩
    | field => rw [hdenoted] at hmissing; cases hmissing
    | key a entry =>
        rw [hdenoted] at hmissing
        obtain rfl := Option.map_eq_none_iff.mp hmissing
        exact ⟨_, _, Trap.get_vacant hw hlive hk call rest hdenoted hjson htag, by rw [hasked]⟩

/-- The function of a snapshot takes it of new objects, if nothing is in the way of them. -/
theorem takesSnapshot_gives {f : ObjectId} (hf : m.Snapshots f r mask) (hclear : m.Clear limit)
    (hheritable : m.Heritable limit) (hlimit : limit ≤ m.objects.size)
    (hbounded : (Image.of m.heap r).Bounded) (n : Nat) (this : Value) (arguments : List Value) :
    ∃ v e, Gives (invoke (n + 2)) m (callValue (.object f) this arguments) v ⟨e, m.toBridge⟩ := by
  have hpermits : m.Permits (invoke (n + 1)) True limit := ⟨hclear, fun _ => ⟨hheritable, n, rfl⟩⟩
  obtain ⟨v, e, htaken, -⟩ := snapshotValue_assembles hpermits hlimit hbounded mask
  obtain ⟨number, constructs, hkind, hnumber⟩ := hf
  refine ⟨v, e, callValue_gives hkind ?_⟩
  unfold Callable.perform
  refine .get_bind ?_
  rw [hnumber]
  exact htaken

/-- A value is shown with one wrap for each record and table on its surface. What the script gets, and what
becomes of the engine, depends on the surface alone: nothing below a record or table is read. -/
structure ShownLazily (m : Machine) (r : Ref) (mask : Mask) : Prop where
  count : (m.heap.outermost r).length = (m.heap.surface r).wraps
  shown : ∃ v x', (∀ call, Succeeds call m (wrapValue mask r) v
      (m.enrolled x' mask (m.heap.outermost r))) ∧
    m.wraps.Enrolls m.heap mask (m.heap.outermost r)
      (m.enrolled x' mask (m.heap.outermost r)).wraps ∧
    ∀ call (m₁ : Machine) mask₁ r₁, m₁.footing = m.footing → m₁.heap.WellTyped →
      m₁.heap.surface r₁ = m.heap.surface r →
        Succeeds call m₁ (wrapValue mask₁ r₁) v (m₁.enrolled x' mask₁ (m₁.heap.outermost r₁))

/-- What makes wraps, and how many: showing a value, and reading a live value where something is found.
Other reads, questions, removals, lists of keys and snapshots make none of their own. -/
structure MakesLazily (call : Caller) (m : Machine) : Prop where
  shown : ∀ limit ≤ m.objects.size, m.Fills limit → ∀ r mask, ShownLazily m r mask
  reads : ∀ target r mask, m.Wraps target r mask → WrapKind.of (m.heap.typeOf r) ≠ .bare → ∀ k rest,
    Reads call m target r mask k rest
  has : ∀ arguments, LeavesWraps call m (Trap.has.perform arguments)
  delete : ∀ arguments, LeavesWraps call m (Trap.delete.perform arguments)
  list : ∀ arguments, Alone call m (Trap.list.perform arguments) →
    LeavesWraps call m (Trap.list.perform arguments)
  /-- The array of the keys is built, if nothing is in the way of its items. -/
  listed : ∀ limit ≤ m.objects.size, m.Fills limit → ∀ target rest, ∃ v e,
    Succeeds call m (Trap.list.perform (.object target :: rest)) v ⟨e, m.toBridge⟩
  snapshot : ∀ number f purpose arguments,
    Alone call m (Callable.perform (.snapshot number) f purpose arguments) →
      LeavesWraps call m (Callable.perform (.snapshot number) f purpose arguments)
  /-- The objects of the snapshot are built, if nothing is in the way of them. -/
  taken : ∀ limit ≤ m.objects.size, m.Clear limit → m.Heritable limit → ∀ f r mask,
    m.Snapshots f r mask → (Image.of m.heap r).Bounded → ∀ n this arguments, ∃ v e,
      Gives (invoke (n + 2)) m (callValue (.object f) this arguments) v ⟨e, m.toBridge⟩

/-- Wraps are made lazily over a well-typed heap. -/
theorem wraps_made_lazily (hh : m.heap.WellTyped) (call : Caller) : MakesLazily call m where
  shown limit hlimit hfills r mask := by
    obtain ⟨v, x', -, hdisplays⟩ := surface_displays (m.heap.surface r) m.footing hfills hlimit
    exact ⟨hh.length_outermost (Nat.le_add_left _ _), v, x', fun _ => hdisplays.wrapValue rfl hh rfl,
      enrolls_enrolled, fun _ _ _ _ hm hh' hs => hdisplays.wrapValue hm hh' hs⟩
  reads _ _ _ hw hlive k rest := live_reads hh hw hlive call k rest
  has := Trap.has_leaves fun _ _ _ => rfl
  delete := Trap.delete_leaves fun _ _ _ => rfl
  list arguments halone := .of_alone halone (Trap.list_leaves (wrapless_lawful call) arguments)
  listed limit hlimit hfills target rest := by
    obtain ⟨e, hlist, -⟩ := listOfNames_runs hfills hlimit
      (((m.receiver? target).map (shownNames m.heap)).getD [])
    exact ⟨_, e, (Trap.list_becomes m target rest).succeeds (.routine (hlist call m.toBridge))⟩
  snapshot number f purpose arguments halone :=
    .of_alone halone (snapshot_leaves (wrapless_lawful call) number f purpose arguments)
  taken _ hlimit hclear hheritable _ _ _ hf hbounded :=
    takesSnapshot_gives hf hclear hheritable hlimit hbounded

/-! ### A shelf of rows -/

/-- Two books, two rows of them, of which the first has a gap, and a shelf of the rows and again the first
one. -/
def shelfHeap : Heap :=
  let book : HostType := .record 0 "book" [⟨"title", .atom .string, .optional⟩]
  ⟨#[⟨book, .record [none]⟩, ⟨book, .record [none]⟩,
    ⟨.vector book, .vector [some 0, none, some 1]⟩, ⟨.vector book, .vector [some 1]⟩,
    ⟨.vector (.vector book), .vector [some 2, some 3, some 2]⟩,
    ⟨.record 1 "shelf" [⟨"rows", .vector (.vector book), .none⟩, ⟨"note", .atom .string, .optional⟩],
      .record [some 4, none]⟩]⟩

/-- A script has been shown the shelf; plain objects inherit the given properties. -/
def shelfMachine (properties : List (Key × Property)) : Machine :=
  ⟨{ portEngine properties with
      objects := ((portEngine properties).objects.push ⟨.wrap 0, some Intrinsic.wrap, true, []⟩).push
        ⟨.proxy 12 Intrinsic.bridge, none, true, []⟩ },
    { Bridge.start shelfHeap with wraps := ⟨#[⟨some 5, .all, .record, .live⟩], true, 1, 0⟩ }⟩

theorem shelfHeap_wellTyped : shelfHeap.WellTyped := by decide

theorem shelfMachine_wraps : (shelfMachine []).Wraps 12 5 .all := ⟨by decide, 0, .live, rfl, rfl⟩

theorem shelfMachine_coherent : (shelfMachine []).Coherent :=
  ⟨fun d => if d = 0 then ["title"] else ["rows", "note"], by decide, OffsetCache.coherent_empty⟩

/-- The fields of the shelf are found by their names. -/
theorem shelfMachine_sight (name : String) (i : Nat) {f : Field HostType}
    (hf : exposedAt? .all (shelfHeap.typeOf 5).fields name = some (i, f)) :
    ((shelfMachine []).denoted ((shelfMachine []).front 5 .all) (.name name)).sight? =
      some (.ofItem (shelfHeap.field 5 i).toOption.join) := by
  have hshown := shelfMachine_coherent.shownField?_eq (w := (shelfMachine []).front 5 .all) rfl
    (by decide) name
  rw [Machine.denoted_record rfl, hshown.trans hf]
  rfl

theorem shelfMachine_fills : (shelfMachine []).Fills 12 := by
  have hkeeps : (portEngine []).Keeps (· < 12) (shelfMachine []).toEngine := .trans (.push _) (.push _)
  exact (portEngine_intact.keeps hkeeps (Nat.le_refl _)).fills

/-- The rows have five books on their surface, and the shelf itself is one record. A field that is unset
makes no wrap. -/
theorem wraps_made_lazily_shelf :
    let m := shelfMachine []
    m.heap.WellTyped ∧ m.Fills 12 ∧ m.Wraps 12 5 .all ∧
      (∃ v m', Succeeds (invoke 9) m (wrapValue .all 4) v m' ∧ m'.wraps.created = 6) ∧
      (∃ v m', Succeeds (invoke 9) m (wrapValue .all 5) v m' ∧ m'.wraps.created = 2) ∧
      (∃ v m', Succeeds (invoke 9) m (Trap.get.perform [.object 12, .string "rows"]) v m' ∧
        m'.wraps.created = 6) ∧
      ∃ v m', Succeeds (invoke 9) m (Trap.get.perform [.object 12, .string "note"]) v m' ∧
        m'.wraps.created = 1 := by
  intro m
  have hlazy := wraps_made_lazily (m := m) shelfHeap_wellTyped (invoke 9)
  have hshown (r : Ref) := hlazy.shown 12 (by decide) shelfMachine_fills r .all
  have hreads (name : String) :=
    hlazy.reads 12 5 .all (shelfMachine_wraps) nofun (.name name) []
  refine ⟨shelfHeap_wellTyped, shelfMachine_fills, shelfMachine_wraps, ?_, ?_, ?_, ?_⟩
  · obtain ⟨v, x', hshow, henrolls, -⟩ := (hshown 4).shown
    exact ⟨v, _, hshow (invoke 9), henrolls.created rfl⟩
  · obtain ⟨v, x', hshow, henrolls, -⟩ := (hshown 5).shown
    exact ⟨v, _, hshow (invoke 9), henrolls.created rfl⟩
  · obtain ⟨v, m', hread, henrolls⟩ :=
      (hreads "rows").found (.value 4) 12 (shelfMachine_sight _ 0 rfl) shelfMachine_fills (by decide)
    exact ⟨v, m', hread, henrolls.created rfl⟩
  · obtain ⟨v, m', hread, henrolls⟩ :=
      (hreads "note").found .unset 12 (shelfMachine_sight _ 1 rfl) shelfMachine_fills (by decide)
    exact ⟨v, m', hread, henrolls.created rfl⟩

/-- Where plain objects inherit an item that cannot be written, no array is filled: the first row makes one
wrap, for its first book, and is not shown. -/
theorem wraps_missing_shelf :
    let m := shelfMachine [(.item 0, .data (.ofInt 0) false false true)]
    m.heap.WellTyped ∧ (m.heap.surface 2).wraps = 2 ∧
      (m.act 9 (wrapValue .all 2)).2.wraps.created = m.wraps.created + 1 ∧
      ¬ ∃ v m', Succeeds (invoke 9) m (wrapValue .all 2) v m' := by
  intro m
  have hthrows : (m.act 9 (wrapValue .all 2)).1.isOk = false := by decide +kernel
  refine ⟨shelfHeap_wellTyped, by decide +kernel, by decide +kernel, ?_⟩
  rintro ⟨v, m', hshow⟩
  have hran : m.act 9 (wrapValue .all 2) = (.ok v, m') := hshow
  rw [hran] at hthrows
  cases hthrows

end HostView.Script
