import HostView.Proofs.Script.Shapes
import HostView.Script.Listing
import Mathlib.Data.List.Perm.Basic
import Mathlib.Data.Set.List

/-! # Members listed

The names of a plain object are those of its members, whose order may change: array indices come
first and in ascending order, whenever they were added.
-/

namespace HostView.Script

variable {call : Caller} {m : Machine} {o : ObjectId} {members : List (String × Value)} {k : Key}

/-- Of distinct names each leads to its own member. -/
theorem lookup_member {member : String × Value} (hdistinct : (members.map (·.1)).Nodup)
    (hmember : member ∈ members) : members.lookup member.1 = some member.2 := by
  induction members with
  | nil => cases hmember
  | cons first rest ih =>
      obtain ⟨hfirst, hrest⟩ := List.nodup_cons.mp hdistinct
      rw [List.lookup_cons]
      rcases List.mem_cons.mp hmember with rfl | hmember
      · simp
      · have hne : (member.1 == first.1) = false := by
          apply beq_false_of_ne
          intro heq
          exact hfirst (List.mem_map.mpr ⟨member, hmember, heq⟩)
        rw [hne]
        exact ih hrest hmember

theorem lookup_eq_none_of_notMem {name : String} (habsent : name ∉ members.map (·.1)) :
    members.lookup name = none := by
  rw [List.lookup_eq_none_iff]
  intro member hmember
  apply bne_iff_ne.mpr
  rintro rfl
  exact habsent (List.mem_map_of_mem hmember)

/-- An object lists its keys, in another order. -/
theorem Object.keys_perm (members : List (String × Value)) :
    (plainWith members).keys.Perm (members.map fun member => .name member.1) := by
  let stored : List Key := (plainWith members).properties.map (·.1)
  have hstored : stored = members.map fun member => .name member.1 := List.map_map
  have hstrings : ∀ k ∈ stored, k.isSymbol = false := by
    intro k hk
    rw [hstored] at hk
    obtain ⟨member, -, rfl⟩ := List.mem_map.mp hk
    rfl
  let indices : List (Nat × Key) := stored.filterMap fun k => k.index?.map fun i => (i, k)
  -- indices are sorted, names keep their order, and no member is named by a symbol
  have hindices : indices.map (·.2) = stored.filter fun k => k.index?.isSome := by
    rw [List.map_filterMap, ← List.filterMap_eq_filter]
    congr 1
    funext k
    cases hindex : k.index? <;> simp [hindex, Option.guard]
  have hnames : (stored.filter fun k => k.index?.isNone && !k.isSymbol) =
      stored.filter fun k => !k.index?.isSome := by
    apply List.filter_congr
    intro k hk
    rw [hstrings k hk]
    cases k.index? <;> rfl
  have hsymbols : stored.filter Key.isSymbol = [] := by
    apply List.filter_eq_nil_iff.mpr
    intro k hk
    rw [hstrings k hk]
    exact Bool.false_ne_true
  have hkeys : (plainWith members).keys =
      (indices.mergeSort fun a b => a.1 ≤ b.1).map (·.2) ++
        stored.filter fun k => !k.index?.isSome := by
    rw [← hnames, ← List.append_nil (stored.filter _), ← hsymbols]
    simp [keys, plainWith, stored, indices]
  rw [hkeys, ← hstored]
  have hsorted := (List.mergeSort_perm indices fun a b => a.1 ≤ b.1).map (·.2)
  rw [hindices] at hsorted
  exact (hsorted.append_right _).trans (List.filter_append_perm _ _)

theorem keysFrom_gives {n : Nat} (hproxy : (m.object o).isProxy = false) :
    Gives call m (keysFrom (n + 1) o) (m.object o).keys m := by
  rw [keysFrom]
  refine .bind (getObject_gives o) ?_
  split
  next target handler hkind => simp [Object.isProxy, hkind] at hproxy
  next => exact .pure

theorem ownKeys_gives (hproxy : (m.object o).isProxy = false) :
    Gives call m (ownKeys o) (m.object o).keys m :=
  .bind .get (keysFrom_gives hproxy)

theorem getOwnProperty_gives (hproxy : (m.object o).isProxy = false)
    (hv : ∀ v w c d, (m.object o).own? k = some (.data v w c d) → v.Settled m.toEngine) :
    Gives call m (getOwnProperty o k) ((m.object o).own? k) m := by
  unfold getOwnProperty
  refine .bind .get ?_
  rw [Engine.chainLimit, ownFrom]
  refine .bind (getObject_gives o) ?_
  split
  next target handler hkind => simp [Object.isProxy, hkind] at hproxy
  next => exact findOwn_settled hv

/-- What an object has at a key is told, though an object may be made for that. -/
theorem getOwnProperty_own (call : Caller) (hproxy : (m.object o).isProxy = false) (k : Key) :
    ∃ e, Gives call m (getOwnProperty o k) ((m.object o).own? k) ⟨e, m.toBridge⟩ ∧
      m.toEngine.Keeps (fun _ => True) e := by
  obtain ⟨e, hfind, hkeeps⟩ := findOwn_runs m.toEngine o k
  refine ⟨e, ?_, hkeeps⟩
  unfold getOwnProperty
  refine .bind .get ?_
  rw [Engine.chainLimit, ownFrom]
  refine .bind (getObject_gives o) ?_
  split
  next target handler hkind => simp [Object.isProxy, hkind] at hproxy
  next => exact hfind call m.toBridge

/-- The elements are kept that are to be; what each test preserves holds at the end. -/
theorem Gives.filterM_of {α ε : Type} {keep : α → ExceptT ε Turn Bool} {test : α → Bool} {xs : List α}
    (P : Machine → Prop) (hstart : P m)
    (hkeep : ∀ x ∈ xs, ∀ m, P m → ∃ m', Gives call m (keep x) (test x) m' ∧ P m') :
    ∃ m', Gives call m (xs.filterM keep) (xs.filter test) m' ∧ P m' := by
  -- what was kept is collected in reverse
  have hrest (done : List α) : ∃ m', Gives call m (xs.filterAuxM keep done)
      ((xs.filter test).reverse ++ done) m' ∧ P m' := by
    induction xs generalizing m done with
    | nil => exact ⟨m, .pure, hstart⟩
    | cons x xs ih =>
        obtain ⟨m₁, hfirst, hm₁⟩ := hkeep x List.mem_cons_self m hstart
        have hlater := ih hm₁ fun y hy => hkeep y (List.mem_cons_of_mem x hy)
        cases htest : test x with
        | true =>
            obtain ⟨m₂, hxs, hm₂⟩ := hlater (x :: done)
            refine ⟨m₂, ?_, hm₂⟩
            rw [List.filter_cons_of_pos htest, List.reverse_cons, List.append_assoc]
            exact .bind hfirst (htest ▸ hxs)
        | false =>
            obtain ⟨m₂, hxs, hm₂⟩ := hlater done
            refine ⟨m₂, ?_, hm₂⟩
            rw [List.filter_cons_of_neg (by simp [htest])]
            exact .bind hfirst (htest ▸ hxs)
  obtain ⟨m', hall, hm'⟩ := hrest []
  rw [List.append_nil] at hall
  refine ⟨m', .bind hall ?_, hm'⟩
  rw [List.reverse_reverse]
  exact .pure

/-- If every element is kept, all of them are. -/
theorem Gives.filterM {α ε : Type} {keep : α → ExceptT ε Turn Bool} {xs : List α}
    (hkeep : ∀ x ∈ xs, Gives call m (keep x) true m) : Gives call m (xs.filterM keep) xs m := by
  have hkept : ∃ m', Gives call m (xs.filterM keep) (xs.filter fun _ => true) m' ∧ m' = m := by
    refine filterM_of (· = m) rfl ?_
    rintro x hx _ rfl
    exact ⟨_, hkeep x hx, rfl⟩
  obtain ⟨m', hall, rfl⟩ := hkept
  rwa [List.filter_true] at hall

/-- The enumerable names that an object has itself, in the order in which they are listed. -/
def Object.enumerableNames (o : Object) : List ScriptString :=
  (o.keys.filterMap Key.string?).filter fun s =>
    ((o.own? (.string s)).map Property.enumerable).getD false

/-- Of an object that is no proxy, the enumerable names are listed that it has itself. -/
theorem enumerableNames_own (call : Caller) (ho : o < m.objects.size)
    (hproxy : (m.object o).isProxy = false) (hsettled : (m.object o).Settled) :
    ∃ e, Gives call m (enumerableNames o) (m.object o).enumerableNames ⟨e, m.toBridge⟩ := by
  let stays (m' : Machine) : Prop :=
    m'.toBridge = m.toBridge ∧ m.toEngine.Keeps (fun _ => True) m'.toEngine
  let keep (s : ScriptString) : Routine Bool := do
    return ((← getOwnProperty o (.string s)).map Property.enumerable).getD false
  let test (s : ScriptString) : Bool :=
    (((m.object o).own? (.string s)).map Property.enumerable).getD false
  -- the object stays as it is, whatever is made while its properties are asked for
  have hkeep : ∀ s m₁, stays m₁ → ∃ m', Gives call m₁ (keep s) (test s) m' ∧ stays m' := by
    intro s m₁ hm₁
    have hsame : m₁.object o = m.object o := hm₁.2.object_eq o ho trivial hsettled
    obtain ⟨e, hown, hkeeps⟩ := getOwnProperty_own call (hsame ▸ hproxy) (.string s)
    rw [hsame] at hown
    exact ⟨_, .bind hown .pure, hm₁.1, hm₁.2.trans hkeeps⟩
  have hlisted : ∃ m', Gives call m (((m.object o).keys.filterMap Key.string?).filterM keep)
      (m.object o).enumerableNames m' ∧ stays m' :=
    Gives.filterM_of stays ⟨rfl, .refl _⟩ fun s _ => hkeep s
  obtain ⟨⟨e, b⟩, hnames, rfl, -⟩ := hlisted
  exact ⟨e, .bind (ownKeys_gives hproxy) hnames⟩

/-- The names of a plain object are listed, in some order. -/
theorem enumerableNames_gives (call : Caller) (hobject : m.object o = .plainWith members)
    (hdistinct : (members.map (·.1)).Nodup)
    (hsettled : ∀ member ∈ members, member.2.Settled m.toEngine) :
    ∃ names : List String, Gives call m (enumerableNames o) (names.map .text) m ∧
      names.Perm (members.map (·.1)) := by
  have hproxy : (m.object o).isProxy = false := by
    rw [hobject]
    rfl
  let listed := (m.object o).keys.filterMap Key.string?
  have hperm : listed.Perm ((members.map (·.1)).map .text) := by
    have hkeys := (Object.keys_perm members).filterMap Key.string?
    rw [List.filterMap_map] at hkeys
    rw [List.map_map, ← List.filterMap_eq_map]
    simp only [listed, hobject]
    exact hkeys
  obtain ⟨names, hnames⟩ : listed ∈ Set.range (List.map ScriptString.text) := by
    rw [Set.range_list_map]
    intro s hs
    obtain ⟨name, -, hname⟩ := List.mem_map.mp (hperm.subset hs)
    exact ⟨name, hname⟩
  have hmembers : names.Perm (members.map (·.1)) := by
    rw [← hnames] at hperm
    exact (List.map_perm_map_iff fun _ _ => ScriptString.text.inj).mp hperm
  refine ⟨names, ?_, hmembers⟩
  unfold enumerableNames
  refine .bind (ownKeys_gives hproxy) ?_
  rw [hnames]
  -- each name is kept, since a member is an enumerable property
  refine .filterM fun s hs => ?_
  change s ∈ listed at hs
  rw [← hnames] at hs
  obtain ⟨name, hname, rfl⟩ := List.mem_map.mp hs
  obtain ⟨member, hmember, rfl⟩ := List.mem_map.mp (hmembers.subset hname)
  have hown : (m.object o).own? (.name member.1) = some (.plain member.2) := by
    rw [hobject, Object.own?_plainWith, lookup_member hdistinct hmember]
    rfl
  refine .bind (getOwnProperty_gives hproxy fun v w c d hdata => ?_) ?_
  · have hvalue := hown.symm.trans hdata
    cases hvalue
    exact hsettled member hmember
  · have hrender : Key.string (.text member.1) = .name member.1 := rfl
    rw [hrender, hown]
    exact .pure

end HostView.Script
