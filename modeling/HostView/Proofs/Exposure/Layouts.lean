import HostView.Exposure.Reading
import HostView.Proofs.Host.Typing
import HostView.Proofs.Script.Running
import Mathlib.Data.List.Nodup

/-! # Layouts in the cache

A layout of distinct names finds each name where it is declared, whatever the hash is: an answer
found by hash is only given where the name itself is, and each name has one place. Names that are
declared twice are found at their first place as long as the hash tells the name apart from the
others. A cache whose layouts are those of the declared records goes on to be one through every
look-up.
-/

namespace HostView

variable {hash : String → UInt64} {name : String} {names : List String} {offset : Nat}
  {layout : Layout} {key : UInt64}

namespace Layout

/-- The name is found among the names: they are distinct, or it shares its hash with no other. -/
def Resolves (hash : String → UInt64) (names : List String) (name : String) : Prop :=
  names.Nodup ∨ ∀ other ∈ names, hash other = hash name → other = name

@[simp]
theorem names_enter : (enter hash offset names layout).names = layout.names := by
  induction names generalizing offset layout with
  | nil => rfl
  | cons other names ih =>
      rw [enter, ih]

/-- Of distinct names each is entered with its own offset. -/
theorem lookup_enter (hdistinct : names.Nodup) :
    (enter hash offset names layout).byName.lookup name =
      ((names.findIdx? (· = name)).map (offset + ·)).or (layout.byName.lookup name) := by
  induction names generalizing offset layout with
  | nil => rfl
  | cons other names ih =>
      obtain ⟨hother, hrest⟩ := List.nodup_cons.mp hdistinct
      rw [enter, ih hrest, List.findIdx?_cons]
      -- the name occurs in no other place, so it is not entered again
      by_cases hname : other = name
      · subst hname
        have hmissing : names.findIdx? (· = other) = none := by
          rw [List.findIdx?_eq_none_iff]
          intro x hx
          exact decide_eq_false fun heq => hother (heq ▸ hx)
        simp [hmissing]
      · have hkey : (name == other) = false := beq_eq_false_iff_ne.mpr (Ne.symm hname)
        simp only [hname, decide_false, Bool.false_eq_true, ↓reduceIte, List.lookup_cons, hkey,
          Option.map_map]
        congr 2
        funext i
        simp only [Function.comp_apply]
        omega

/-- Of the names with one hash the first is entered under it. -/
theorem lookup_enter_hash :
    (enter hash offset names layout).byHash.lookup key =
      (layout.byHash.lookup key).or ((names.findIdx? (hash · = key)).map (offset + ·)) := by
  induction names generalizing offset layout with
  | nil => simp [enter]
  | cons other names ih =>
      -- what the entry of `other` adds is found by its hash alone, and only if nothing was before
      have hentry : (if (layout.byHash.lookup (hash other)).isSome then layout.byHash
          else layout.byHash ++ [(hash other, offset)]).lookup key =
          (layout.byHash.lookup key).or (if hash other = key then some offset else none) := by
        by_cases hkey : hash other = key
        · subst hkey
          cases hfound : layout.byHash.lookup (hash other) <;>
            simp [hfound, List.lookup_append]
        · have hne : (key == hash other) = false := beq_eq_false_iff_ne.mpr (Ne.symm hkey)
          rw [if_neg hkey]
          split <;> simp [List.lookup_append, List.lookup_cons, hne]
      rw [enter, ih]
      simp only [hentry, List.findIdx?_cons, decide_eq_true_eq, Option.or_assoc]
      by_cases hkey : hash other = key
      · simp [hkey]
      · simp only [hkey, ↓reduceIte, Option.none_or, Option.map_map]
        congr 2
        funext i
        simp only [Function.comp_apply]
        omega

/-- What is not entered is not found by name. -/
theorem lookup_enter_of_not_mem (hname : name ∉ names) :
    (enter hash offset names layout).byName.lookup name = layout.byName.lookup name := by
  induction names generalizing offset layout with
  | nil => rfl
  | cons other names ih =>
      obtain ⟨hother, hrest⟩ := not_or.mp (mt List.mem_cons.mpr hname)
      rw [enter, ih hrest, List.lookup_cons, beq_eq_false_iff_ne.mpr hother]

/-- What is found by name was there before, or was entered at a place of the name. -/
theorem getElem?_of_lookup_enter {i : Nat}
    (hi : (enter hash offset names layout).byName.lookup name = some i) :
    layout.byName.lookup name = some i ∨ ∃ j, names[j]? = some name ∧ i = offset + j := by
  induction names generalizing offset layout with
  | nil => exact .inl hi
  | cons other names ih =>
      rw [enter] at hi
      rcases ih hi with hbefore | ⟨j, hj, rfl⟩
      · rw [List.lookup_cons] at hbefore
        by_cases hname : name = other
        · subst hname
          exact .inr ⟨0, rfl, by simpa using hbefore.symm⟩
        · rw [beq_eq_false_iff_ne.mpr hname] at hbefore
          exact .inl hbefore
      · exact .inr ⟨j + 1, hj, by omega⟩

/-- Whatever a layout finds has the name, even if it is declared twice. -/
theorem getElem?_of_offset? {i : Nat} (hi : (ofNames hash names).offset? hash name = some i) :
    names[i]? = some name := by
  have hnames : (ofNames hash names).names = names := names_enter
  have hbyName (hfound : (ofNames hash names).byName.lookup name = some i) :
      names[i]? = some name := by
    rcases getElem?_of_lookup_enter hfound with hnone | ⟨j, hj, rfl⟩
    · cases hnone
    · rwa [Nat.zero_add]
  unfold offset? at hi
  split at hi
  next j hj =>
    split at hi
    next hplace =>
      cases hi
      rwa [hnames] at hplace
    next => exact hbyName hi
  next => exact hbyName hi

/-- A layout of distinct names finds them as a search from the first on does. -/
theorem offset?_ofNames_of_nodup (hdistinct : names.Nodup) :
    (ofNames hash names).offset? hash name = names.findIdx? (· = name) := by
  have hbyName : (ofNames hash names).byName.lookup name = names.findIdx? (· = name) := by
    rw [ofNames, lookup_enter hdistinct]
    simp
  have hnames : (ofNames hash names).names = names := names_enter
  unfold offset?
  split
  next i hi =>
    split
    next hplace =>
      -- the place that the hash leads to holds the name, and no other place does
      rw [hnames] at hplace
      obtain ⟨hlt, hat⟩ := List.getElem?_eq_some_iff.mp hplace
      apply Eq.symm
      apply List.findIdx?_eq_some_iff_getElem.mpr
      refine ⟨hlt, decide_eq_true hat, fun j hj heq => ?_⟩
      have hsame := (of_decide_eq_true heq).trans hat.symm
      exact absurd (hdistinct.getElem_inj_iff.mp hsame) (Nat.ne_of_lt hj)
    next => exact hbyName
  next => exact hbyName

/-- A layout finds a name that no other shares its hash with as a search from the first on does,
even if the name is declared twice. -/
theorem offset?_ofNames_of_hash (halone : ∀ other ∈ names, hash other = hash name → other = name) :
    (ofNames hash names).offset? hash name = names.findIdx? (· = name) := by
  have hnames : (ofNames hash names).names = names := names_enter
  have hbyHash : (ofNames hash names).byHash.lookup (hash name) =
      names.findIdx? (hash · = hash name) := by
    rw [ofNames, lookup_enter_hash]
    simp
  unfold offset?
  rw [hbyHash]
  split
  next i hi =>
    -- the first place with the hash holds the name, and so it is the first with the name
    obtain ⟨hlt, hat, hfirst⟩ := List.findIdx?_eq_some_iff_getElem.mp hi
    have hname : names[i] = name := halone _ (List.getElem_mem hlt) (of_decide_eq_true hat)
    rw [hnames, if_pos (List.getElem?_eq_some_iff.mpr ⟨hlt, hname⟩)]
    apply Eq.symm
    apply List.findIdx?_eq_some_iff_getElem.mpr
    refine ⟨hlt, decide_eq_true hname, fun j hj heq => hfirst j hj ?_⟩
    exact decide_eq_true (congrArg hash (of_decide_eq_true heq))
  next hi =>
    have hmissing : name ∉ names := fun hmem =>
      of_decide_eq_false (List.findIdx?_eq_none_iff.mp hi name hmem) rfl
    rw [ofNames, lookup_enter_of_not_mem hmissing]
    apply Eq.symm
    apply List.findIdx?_eq_none_iff.mpr
    intro other hother
    exact decide_eq_false fun heq => hmissing (heq ▸ hother)

/-- A layout finds the names that can be told apart as a search from the first on does. -/
theorem offset?_ofNames (h : Resolves hash names name) :
    (ofNames hash names).offset? hash name = names.findIdx? (· = name) :=
  h.elim offset?_ofNames_of_nodup offset?_ofNames_of_hash

end Layout

/-! ### The cache -/

/-- The layouts are those of the declarations. -/
def OffsetCache.Coherent (cache : OffsetCache) (hash : String → UInt64)
    (declared : Nat → List String) : Prop :=
  ∀ d layout, cache.layouts.lookup d = some layout → layout = Layout.ofNames hash (declared d)

namespace OffsetCache

variable {cache : OffsetCache} {declared : Nat → List String} {d : Nat}
  {fields : List (Field HostType)}

theorem coherent_empty : empty.Coherent hash declared := nofun

/-- The second cache has every layout that the first one has. -/
def Extends (cache cache' : OffsetCache) : Prop :=
  ∀ d layout, cache.layouts.lookup d = some layout → cache'.layouts.lookup d = some layout

theorem Extends.refl (cache : OffsetCache) : cache.Extends cache := fun _ _ => id

theorem Extends.trans {cache' cache'' : OffsetCache} (h : cache.Extends cache')
    (h' : cache'.Extends cache'') : cache.Extends cache'' :=
  fun d layout hlayout => h' d layout (h d layout hlayout)

/-- A layout is made where there is none. -/
theorem extends_lookup (cache : OffsetCache) (hash : String → UInt64) (type : HostType)
    (name : String) : cache.Extends (cache.lookup hash type name).2 := by
  unfold lookup
  split
  next descriptor record fields =>
    split
    next => exact .refl cache
    next hnone =>
      intro d layout hlayout
      have hne : d ≠ descriptor := by
        rintro rfl
        cases hnone.symm.trans hlayout
      rw [List.lookup_cons, beq_false_of_ne hne]
      exact hlayout
  next => exact .refl cache

/-- A look-up finds the field with the name, and leaves a cache of the same kind. -/
theorem Coherent.lookup (h : cache.Coherent hash declared) (record : String)
    (hdeclared : declared d = fields.map (·.name)) (name : String) :
    (Layout.Resolves hash (fields.map (·.name)) name →
        (cache.lookup hash (.record d record fields) name).1 = fieldOffset? fields name) ∧
      (cache.lookup hash (.record d record fields) name).2.Coherent hash declared := by
  have hoffset (hname : Layout.Resolves hash (fields.map (·.name)) name) :
      (Layout.ofNames hash (fields.map (·.name))).offset? hash name = fieldOffset? fields name := by
    rw [Layout.offset?_ofNames hname, List.findIdx?_map]
    rfl
  simp only [OffsetCache.lookup]
  split
  next layout hlayout =>
    obtain rfl := h d layout hlayout
    rw [hdeclared]
    exact ⟨hoffset, h⟩
  next =>
    refine ⟨hoffset, fun d' layout' hlookup => ?_⟩
    dsimp only at hlookup
    rw [List.lookup_cons] at hlookup
    split at hlookup
    next hd =>
      cases hlookup
      rw [eq_of_beq hd, hdeclared]
    next => exact h d' layout' hlookup

end OffsetCache

/-- The records of the heap are declared: the descriptor of a record tells the names of its
fields. -/
def Heap.Declares (h : Heap) (declared : Nat → List String) : Prop :=
  ∀ r d record fields, h.typeOf r = .record d record fields → declared d = fields.map (·.name)

/-- If the type is that of a record, its descriptor tells the names of its fields. -/
def HostType.DeclaredBy (declared : Nat → List String) : HostType → Prop
  | .record d _ fields => declared d = fields.map (·.name)
  | .atom _ | .real _ | .table .. | .vector _ => True

instance (declared : Nat → List String) : DecidablePred (HostType.DeclaredBy declared)
  | .record d _ fields => inferInstanceAs (Decidable (declared d = fields.map (·.name)))
  | .atom _ | .real _ | .table .. | .vector _ => isTrue trivial

theorem Heap.declares_iff {h : Heap} {declared : Nat → List String} :
    h.Declares declared ↔ ∀ r < h.cells.size, (h.typeOf r).DeclaredBy declared := by
  constructor
  · intro hh r _
    cases htype : h.typeOf r with
    | record d record fields => exact hh r d record fields htype
    | _ => trivial
  · intro hh r d record fields htype
    have hlt : r < h.cells.size := by
      refine Nat.lt_of_not_le fun hle => ?_
      rw [typeOf, cell_of_size_le hle] at htype
      cases htype
    have hdeclared := hh r hlt
    rwa [htype] at hdeclared

instance (h : Heap) (declared : Nat → List String) : Decidable (h.Declares declared) :=
  decidable_of_iff _ Heap.declares_iff.symm

namespace Script

variable {call : Caller} {m m' : Machine} {r : Ref} {d : Nat} {record : String}
  {fields : List (Field HostType)}

/-- Every layout in the cache is that of a declaration, and so is every record of the heap. -/
def Machine.Coherent (m : Machine) : Prop :=
  ∃ declared, m.heap.Declares declared ∧ m.offsets.Coherent nameHash declared

theorem Machine.Coherent.congr (h : m.Coherent) (hheap : m'.heap = m.heap)
    (hoffsets : m'.offsets = m.offsets) : m'.Coherent := by
  rwa [Coherent, hheap, hoffsets]

/-- The offset of a field is found by its name. No more than the cache changes. -/
theorem cachedOffset_gives (call : Caller) (hm : m.Coherent)
    (htype : m.heap.typeOf r = .record d record fields) (hdistinct : (fields.map (·.name)).Nodup)
    (name : String) :
    ∃ offsets : OffsetCache, Succeeds call m (cachedOffset (m.heap.typeOf r) name)
        (fieldOffset? fields name) { m with offsets } ∧
      Machine.Coherent { m with offsets } := by
  obtain ⟨declared, hdeclared, hcache⟩ := hm
  obtain ⟨hfound, hcache'⟩ :=
    hcache.lookup record (hdeclared r d record fields htype) name
  let found := m.offsets.lookup nameHash (.record d record fields) name
  refine ⟨found.2, ?_, declared, hdeclared, hcache'⟩
  rw [← hfound (.inl hdistinct), htype]
  exact .modifyGet _

end Script

end HostView
