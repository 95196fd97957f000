import HostView.Proofs.Exposure.Layouts
import Mathlib.Data.List.Dedup

/-! # Runs of look-ups

A cache that starts empty answers every look-up of a run as a search through the declared fields
does. The layout under a descriptor is made by the first look-up with that descriptor, from the
declaration that was looked up, and no other look-up touches it. So the layouts are as many as the
descriptors in the run.
-/

namespace HostView

/-- The layout of the fields that a type declares. -/
def HostType.layout (hash : String → UInt64) (type : HostType) : Layout :=
  Layout.ofNames hash (type.fields.map (·.name))

namespace OffsetCache

variable {hash : String → UInt64} {cache : OffsetCache} {type : HostType} {name : String} {d : Nat}
  {queries : List (HostType × String)} {declared : Nat → List String}

/-- The answers to look-ups that are made one after the other, and the cache that they leave. -/
def lookups (hash : String → UInt64) (cache : OffsetCache) :
    List (HostType × String) → List (Option Nat) × OffsetCache
  | [] => ([], cache)
  | (type, name) :: queries =>
    let found := cache.lookup hash type name
    let rest := lookups hash found.2 queries
    (found.1 :: rest.1, rest.2)

/-- The first type with a descriptor among those that are looked up. -/
def firstWith? (queries : List (HostType × String)) (d : Nat) : Option HostType :=
  (queries.map (·.1)).find? (·.descriptor? = some d)

/-- The names of the fields that are declared under a descriptor. -/
def declaredNames (queries : List (HostType × String)) (d : Nat) : List String :=
  ((firstWith? queries d).map fun type => type.fields.map (·.name)).getD []

/-- A descriptor identifies the declaration that it belongs to. -/
def Identified (queries : List (HostType × String)) : Prop :=
  ∀ p ∈ queries, ∀ q ∈ queries, ∀ d,
    p.1.descriptor? = some d → q.1.descriptor? = some d → p.1 = q.1

theorem Identified.firstWith? (h : Identified queries) {query : HostType × String}
    (hquery : query ∈ queries) (hd : query.1.descriptor? = some d) :
    firstWith? queries d = some query.1 := by
  cases hfound : OffsetCache.firstWith? queries d with
  | none =>
      have hmem : query.1 ∈ queries.map (·.1) := List.mem_map_of_mem hquery
      exact absurd hd (by simpa using List.find?_eq_none.mp hfound _ hmem)
  | some type =>
      obtain ⟨first, hfirst, rfl⟩ := List.mem_map.mp (List.mem_of_find?_eq_some hfound)
      have hown : first.1.descriptor? = some d := by simpa using List.find?_some hfound
      rw [h first hfirst query hquery d hown hd]

theorem lookup_of_descriptor?_eq_none (htype : type.descriptor? = none) :
    cache.lookup hash type name = (none, cache) := by
  cases type with
  | record => cases htype
  | _ => rfl

/-! ### The layouts that a run leaves -/

/-- A look-up keeps the layouts there are, and makes that of its own descriptor if it is new. -/
theorem layouts_lookup :
    (cache.lookup hash type name).2.layouts.lookup d =
      (cache.layouts.lookup d).or
        (if type.descriptor? = some d then some (type.layout hash) else none) := by
  cases type with
  | record own record fields =>
      simp only [OffsetCache.lookup, HostType.descriptor?, Option.some.injEq]
      cases hown : cache.layouts.lookup own with
      | some layout =>
          by_cases hd : own = d
          · subst hd
            simp [hown]
          · simp [hd]
      | none =>
          by_cases hd : own = d
          · subst hd
            simp [hown, HostType.layout, HostType.fields]
          · have hne : (d == own) = false := beq_eq_false_iff_ne.mpr (Ne.symm hd)
            simp [List.lookup_cons, hne, hd]
  | _ => simp [OffsetCache.lookup, HostType.descriptor?]

theorem layouts_lookup_of_ne (hother : type.descriptor? ≠ some d) :
    (cache.lookup hash type name).2.layouts.lookup d = cache.layouts.lookup d := by
  rw [layouts_lookup, if_neg hother, Option.or_none]

/-- The layout of a descriptor is the one there was, or that of the first type with the descriptor
among those that are looked up. -/
theorem layouts_lookups :
    (cache.lookups hash queries).2.layouts.lookup d =
      (cache.layouts.lookup d).or ((firstWith? queries d).map (·.layout hash)) := by
  induction queries generalizing cache with
  | nil => simp [lookups, firstWith?]
  | cons query queries ih =>
      obtain ⟨type, name⟩ := query
      simp only [lookups, ih, layouts_lookup, firstWith?, List.map_cons, List.find?_cons,
        Option.or_assoc]
      by_cases hd : type.descriptor? = some d <;> simp [hd]

/-- No descriptor has two layouts. -/
def Distinct (cache : OffsetCache) : Prop :=
  (cache.layouts.map (·.1)).Nodup

theorem distinct_empty : empty.Distinct :=
  List.nodup_nil

theorem Distinct.lookup (h : cache.Distinct) : (cache.lookup hash type name).2.Distinct := by
  cases type with
  | record own record fields =>
      simp only [OffsetCache.lookup]
      split
      next => exact h
      next hown =>
        refine List.nodup_cons.mpr ⟨fun hmem => ?_, h⟩
        obtain ⟨entry, hentry, rfl⟩ := List.mem_map.mp hmem
        exact bne_iff_ne.mp (List.lookup_eq_none_iff.mp hown entry hentry) rfl
  | _ => exact h

theorem Distinct.lookups (h : cache.Distinct) : (cache.lookups hash queries).2.Distinct := by
  induction queries generalizing cache with
  | nil => exact h
  | cons query queries ih => exact ih h.lookup

/-- The descriptors with a layout after a run are those that are looked up. -/
theorem mem_descriptors_lookups :
    d ∈ (empty.lookups hash queries).2.layouts.map (·.1) ↔
      d ∈ queries.filterMap (·.1.descriptor?) := by
  have hsome : d ∈ (empty.lookups hash queries).2.layouts.map (·.1) ↔
      ((empty.lookups hash queries).2.layouts.lookup d).isSome := by
    simp only [List.lookup_isSome_iff, List.mem_map, beq_iff_eq, eq_comm (a := d)]
  rw [hsome, layouts_lookups, List.mem_filterMap]
  simp [empty, firstWith?, List.find?_isSome]

theorem size_lookups :
    (empty.lookups hash queries).2.size = (queries.filterMap (·.1.descriptor?)).dedup.length := by
  have hperm : ((empty.lookups hash queries).2.layouts.map (·.1)).Perm
      (queries.filterMap (·.1.descriptor?)).dedup := by
    rw [List.perm_ext_iff_of_nodup distinct_empty.lookups (List.nodup_dedup _)]
    intro d
    rw [mem_descriptors_lookups, List.mem_dedup]
  rw [size, ← hperm.length_eq, List.length_map]

/-! ### The answers of a run -/

/-- A cache of declared layouts answers a run over the declared types as searches do. -/
theorem Coherent.lookups (h : cache.Coherent hash declared)
    (hdeclared : ∀ query ∈ queries, ∀ d, query.1.descriptor? = some d →
      declared d = query.1.fields.map (·.name)) :
    List.Forall₂ (fun query answer =>
        Layout.Resolves hash (query.1.fields.map (·.name)) query.2 →
          answer = fieldOffset? query.1.fields query.2)
      queries (cache.lookups hash queries).1 := by
  induction queries generalizing cache with
  | nil => exact .nil
  | cons query queries ih =>
      obtain ⟨type, name⟩ := query
      obtain ⟨hquery, hqueries⟩ := List.forall_mem_cons.mp hdeclared
      cases type with
      | record d record fields =>
          obtain ⟨hanswer, hafter⟩ := h.lookup record (hquery d rfl) name
          exact .cons hanswer (ih hafter hqueries)
      | _ => exact .cons (fun _ => rfl) (ih h hqueries)

/-- Every look-up in a run from the empty cache on finds the field that a search through the
declaration finds, whatever the hash, provided that the name can be told apart. A layout is kept
for each descriptor in the run, made of the declaration with that very descriptor, and for nothing
else; a look-up with another descriptor leaves it as it is. -/
theorem lookups_scan (hash : String → UInt64) (queries : List (HostType × String))
    (hidentified : Identified queries) :
    List.Forall₂ (fun query answer =>
        Layout.Resolves hash (query.1.fields.map (·.name)) query.2 →
          answer = fieldOffset? query.1.fields query.2)
      queries (empty.lookups hash queries).1 ∧
    (empty.lookups hash queries).2.size = (queries.filterMap (·.1.descriptor?)).dedup.length ∧
    (∀ query ∈ queries, ∀ d, query.1.descriptor? = some d →
      (empty.lookups hash queries).2.layouts.lookup d = some (query.1.layout hash)) ∧
    (∀ type name, type.descriptor? = none →
      (empty.lookups hash queries).2.lookup hash type name =
        (none, (empty.lookups hash queries).2)) ∧
    (∀ type name d, type.descriptor? ≠ some d →
      ((empty.lookups hash queries).2.lookup hash type name).2.layouts.lookup d =
        (empty.lookups hash queries).2.layouts.lookup d) := by
  have hdeclared : ∀ query ∈ queries, ∀ d, query.1.descriptor? = some d →
      declaredNames queries d = query.1.fields.map (·.name) := by
    intro query hquery d hd
    rw [declaredNames, hidentified.firstWith? hquery hd]
    rfl
  refine ⟨coherent_empty.lookups hdeclared, size_lookups, fun query hquery d hd => ?_,
    fun type name => lookup_of_descriptor?_eq_none, fun type name d => layouts_lookup_of_ne⟩
  rw [layouts_lookups, hidentified.firstWith? hquery hd]
  rfl

/-- A record of two fields under the descriptor `d`. -/
def endpoint (d : Nat) : HostType :=
  .record d "endpoint" [⟨"host", .atom .addr, .none⟩, ⟨"port", .atom .port, .none⟩]

/-- Two declarations that are alike, under a hash that tells no names apart. -/
theorem lookups_scan_twins :
    (endpoint 0).same (endpoint 1) ∧
    (empty.lookups (fun _ => 0) [(endpoint 0, "port"), (.atom .count, "port"),
      (endpoint 1, "host"), (endpoint 0, "none")]).1 = [some 1, none, some 0, none] ∧
    (empty.lookups (fun _ => 0) [(endpoint 0, "port"), (.atom .count, "port"),
      (endpoint 1, "host"), (endpoint 0, "none")]).2.size = 2 := by
  have hidentified : Identified [(endpoint 0, "port"), (.atom .count, "port"),
      (endpoint 1, "host"), (endpoint 0, "none")] := by
    simp [Identified, endpoint, HostType.descriptor?]
  obtain ⟨hanswers, hsize, -⟩ := lookups_scan (fun _ => 0) _ hidentified
  refine ⟨by decide, ?_, by simpa [endpoint, HostType.descriptor?] using hsize⟩
  generalize (empty.lookups (fun _ => 0) [(endpoint 0, "port"), (.atom .count, "port"),
    (endpoint 1, "host"), (endpoint 0, "none")]).1 = answers at hanswers
  obtain _ | ⟨hport, _ | ⟨hcount, _ | ⟨hhost, _ | ⟨hnone, _ | _⟩⟩⟩⟩ := hanswers
  rw [hport (.inl (by decide)), hcount (.inl (by decide)), hhost (.inl (by decide)),
    hnone (.inl (by decide))]
  rfl

end OffsetCache

end HostView
