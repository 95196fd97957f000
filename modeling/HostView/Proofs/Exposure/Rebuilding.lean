import HostView.Proofs.Exposure.Copies
import HostView.Proofs.Exposure.PlainDecoding
import HostView.Proofs.Host.Tables

/-! # Host values rebuilt

Records and tables are built anew from plain objects, and sets from arrays. The fields of a record are
filled in order; the entries of a table come in whatever order the names of the object are listed,
and the table sorts them.
-/

namespace HostView

namespace Script

variable {call : Caller} {m : Machine} {g g' g₁ g₃ h : Heap} {o : ObjectId} {r s k : Ref} {v : Value}
  {limit : Nat} {key : AtomType} {a : Atom}

/-- A script value is converted over every heap to a copy of a host value of `h`, at every type of its
structure. -/
def Rebuilds (call : Caller) (m : Machine) (h : Heap) (v : Value) (r : Ref) : Prop :=
  ∀ type g, (h.typeOf r).same type = true →
    ∃ s g', Succeeds call { m with heap := g } (toHost type v) s { m with heap := g' } ∧
      g.Adds g' ∧ h.Copies g.cells.size g' r s

/-- A copy is of every type of which the original is. -/
theorem same_of_copies {type : HostType} {low : Ref} (hs : h.Copies low g r s)
    (htype : (h.typeOf r).same type = true) : (g.typeOf s).same type = true :=
  HostType.same_trans (HostType.same_symm hs.same) htype

/-- A property of an object is there, and it is converted to a copy of a host value that is of the
type. -/
def PropertyRebuilds (call : Caller) (m : Machine) (h : Heap) (o : ObjectId) (name : String)
    (type : HostType) (r : Ref) : Prop :=
  (h.typeOf r).same type = true ∧ ∃ v, v.isPresent = true ∧ Rebuilds call m h v r ∧
    ∀ g, Gives call { m with heap := g } (readProperty o (.name name)) v { m with heap := g }

/-- A property of an object is converted to a copy of what a field holds. The property is missing if the
field is unset, and then the field is optional. -/
def FieldRebuilds (call : Caller) (m : Machine) (h : Heap) (o : ObjectId) (f : Field HostType) :
    Option Ref → Prop
  | none => f.attributes.isOptional = true ∧
      ∀ g, Gives call { m with heap := g } (readProperty o (.name f.name)) .undefined
        { m with heap := g }
  | some r => PropertyRebuilds call m h o f.name f.type r

/-! ### What host values are made again to -/

/-- A way to make the values of a heap again over other heaps. What is made has the structure of the
original, and stays what it is as long as the new values stay as they are. -/
structure Remaking (h : Heap) where
  suits : Heap → Prop
  made : Ref → Heap → Ref → Ref → Prop
  adds : ∀ {g g'}, suits g → g.Adds g' → suits g'
  lasting : ∀ r s, Heap.Lasting fun low g => made low g r s
  same : ∀ {low g r s}, suits g → made low g r s → (h.typeOf r).same (g.typeOf s) = true

namespace Remaking

/-- Values are copied. -/
def copying (h : Heap) : Remaking h where
  suits _ := True
  made := h.Copies
  adds _ _ := trivial
  lasting := Heap.Copies.lasting h
  same _ hs := hs.same

variable (w : Remaking h)

/-- A script value is made to a host value again over every suitable heap, at every type of its
structure. -/
def Remakes (call : Caller) (m : Machine) (v : Value) (r : Ref) : Prop :=
  ∀ type g, (h.typeOf r).same type = true → w.suits g →
    ∃ s g', Succeeds call { m with heap := g } (toHost type v) s { m with heap := g' } ∧
      g.Adds g' ∧ w.made g.cells.size g' r s

/-- So is a property of an object, which is there. -/
def Property (call : Caller) (m : Machine) (o : ObjectId) (name : String) (type : HostType) (r : Ref) :
    Prop :=
  (h.typeOf r).same type = true ∧ ∃ v, v.isPresent = true ∧ w.Remakes call m v r ∧
    ∀ g, Gives call { m with heap := g } (readProperty o (.name name)) v { m with heap := g }

/-- So is what a field holds, from a property of an object that is missing if the field is unset; then
the field is optional. -/
def Field (call : Caller) (m : Machine) (o : ObjectId) (f : HostView.Field HostType) : Option Ref → Prop
  | none => f.attributes.isOptional = true ∧
      ∀ g, Gives call { m with heap := g } (readProperty o (.name f.name)) .undefined
        { m with heap := g }
  | some r => w.Property call m o f.name f.type r

variable {w}

/-- What is made is of every type of which the original is. -/
theorem same_of_made {type : HostType} {low : Ref} (hsuits : w.suits g) (hs : w.made low g r s)
    (htype : (h.typeOf r).same type = true) : (g.typeOf s).same type = true :=
  HostType.same_trans (HostType.same_symm (w.same hsuits hs)) htype

/-- The fields from one on are filled. -/
theorem fillFields_gives {d : Nat} {name record : String}
    {fields before rest : List (HostView.Field HostType)} {slots done : List (Option Ref)} (hsuits : w.suits g)
    (hparts : List.Forall₂ (w.Field call m o) rest slots) (hfields : fields = before ++ rest)
    (hdone : done.length = before.length)
    (hg₁ : g.Building (.record d name fields)
      (.record (done ++ List.replicate rest.length none)) g₁) :
    ∃ news g₂, Succeeds call { m with heap := g₁ } (fillFields o record g.cells.size done.length rest)
        () { m with heap := g₂ } ∧
      g.Building (.record d name fields) (.record (done ++ news)) g₂ ∧
      g₁.KeepsFrom (g.cells.size + 1) g₂ ∧
      SlotsRelated (w.made (g.cells.size + 1) g₂) slots news := by
  induction hparts generalizing before done g₁ with
  | nil =>
      refine ⟨[], g₁, ?_, by simpa using hg₁, .refl _ _, .nil⟩
      rw [fillFields]
      exact .pure
  -- the fields before this one are done, and its slot and those after it are unset
  | @cons f slot rest slots hpart _ ih =>
      obtain ⟨fieldName, type, attributes⟩ := f
      have hfields' : fields = (before ++ [⟨fieldName, type, attributes⟩]) ++ rest := by
        simp [hfields]
      cases slot with
      | none =>
          obtain ⟨hoptional, hread⟩ := hpart
          obtain ⟨news, g₂, hrest, hg₂, hkeeps, hrelated⟩ := @ih g₁ _ (done ++ [none]) hfields'
            (by simp [hdone]) (by simpa [List.replicate_succ] using hg₁)
          refine ⟨none :: news, g₂, ?_, by simpa using hg₂, hkeeps, .cons .none hrelated⟩
          rw [fillFields]
          refine .bind (.routine (hread g₁)) ?_
          rw [if_neg (by decide), if_pos hoptional]
          simpa using hrest
      | some r =>
          obtain ⟨htype, v, hpresent, hremakes, hread⟩ := hpart
          obtain ⟨s, g', hconvert, hadds, hs⟩ := hremakes type g₁ htype (w.adds hsuits hg₁.adds)
          have hg' := hg₁.andAdds hadds
          have hfield : fields[done.length]? = some ⟨fieldName, type, attributes⟩ := by
            simp [hfields, hdone]
          have hset := Heap.setField_eq hg'.cell_eq hfield
            (same_of_made (w.adds hsuits hg'.adds) hs htype)
          have hslots : (done ++ List.replicate (rest.length + 1) none).set done.length (some s) =
              (done ++ [some s]) ++ List.replicate rest.length none := by
            simp [List.replicate_succ]
          rw [List.length_cons, hslots] at hset
          obtain ⟨news, g₂, hrest, hg₂, hkeeps, hrelated⟩ := @ih _ _ (done ++ [some s]) hfields'
            (by simp [hdone]) (hg'.update _)
          have hlast := (Heap.keepsFrom_update (Nat.lt_succ_self _)).trans hkeeps
          refine ⟨some s :: news, g₂, ?_, by simpa using hg₂, (hadds.keepsFrom _).trans hlast, ?_⟩
          · rw [fillFields]
            refine .bind (.routine (hread g₁)) ?_
            rw [if_pos hpresent]
            refine .bind (.adapt _ hconvert) (.bind (complete_gives hset) ?_)
            simpa using hrest
          · refine .cons (.some ?_) hrelated
            exact w.lasting r s hs (hlast.mono hg₁.lt) hg₁.lt

theorem Field.congr {f f' : HostView.Field HostType} {slot : Option Ref} (hname : f.name = f'.name)
    (hattributes : f.attributes = f'.attributes) (htype : f.type.same f'.type = true)
    (hf : w.Field call m o f slot) : w.Field call m o f' slot := by
  cases slot with
  | none => exact ⟨hattributes ▸ hf.1, hname ▸ hf.2⟩
  | some r => exact ⟨HostType.same_trans hf.1 htype, hname ▸ hf.2⟩

/-- A record is made of the properties of a plain object. -/
theorem record_gives {d : Nat} {name : String} {fields : List (HostView.Field HostType)}
    {slots : List (Option Ref)} {members : List (String × Value)} {type : HostType}
    (huntagged : m.toEngine.Untagged limit)
    (hcell : h.cell r = ⟨.record d name fields, .record slots⟩)
    (hobject : m.object o = .plainWith members)
    (hparts : List.Forall₂ (w.Field call m o) fields slots)
    (htype : (h.typeOf r).same type = true) (hsuits : w.suits g) :
    ∃ s g', Succeeds call { m with heap := g } (toHost type (.object o)) s { m with heap := g' } ∧
      g.Adds g' ∧ h.Remade (w.made g.cells.size g') g.cells.size g' r s := by
  rw [Heap.typeOf_eq hcell] at htype
  obtain ⟨d', name', fields', rfl, hfields⟩ : ∃ d' name' fields',
      type = .record d' name' fields' ∧ HostType.sameFields fields fields' = true := by
    cases type <;> simp_all [HostType.same]
  -- the fields of the type agree with those of the record one by one
  have hparts' : List.Forall₂ (w.Field call m o) fields' slots := by
    have hagree := HostType.forall₂_of_sameFields hfields
    clear hcell htype hfields
    induction hagree generalizing slots with
    | nil => exact hparts
    | cons hfirst _ ih =>
        cases hparts with
        | cons hpart hrest => exact .cons (hpart.congr hfirst.1 hfirst.2.1 hfirst.2.2) (ih hrest)
  let blank := List.replicate fields'.length (none : Option Ref)
  have hstart : g.Building (.record d' name' fields') (.record ([] ++ blank)) _ := .start g _ _
  obtain ⟨news, g', hfill, hg', -, hrelated⟩ :=
    fillFields_gives hsuits hparts' (List.nil_append _).symm rfl hstart
  refine ⟨g.cells.size, g', ?_, hg'.adds, Nat.le_refl _, hg'.lt, ?_⟩
  · rw [toHost]
    refine heldOr_unheld (unheld_plainWith (m := { m with heap := g }) huntagged hobject) ?_
    refine .bind (.routine (plainObject_gives hobject)) ?_
    have hcheck : Heap.checkContent (.record d' name' fields') (.record blank) = .ok () :=
      if_pos List.length_replicate
    exact .bind (new_gives hcheck) (.bind hfill .pure)
  · rw [hcell, hg'.cell_eq]
    refine .record htype ⟨hrelated.set_eq, fun v u hmem => ?_⟩
    exact w.lasting v u (hrelated.related v u hmem) (.refl _ _) (Nat.le_succ _)

end Remaking

theorem Rebuilds.remakes (hv : Rebuilds call m h v r) : (Remaking.copying h).Remakes call m v r :=
  fun type g htype _ => hv type g htype

theorem PropertyRebuilds.remakes {name : String} {type : HostType}
    (hpart : PropertyRebuilds call m h o name type r) :
    (Remaking.copying h).Property call m o name type r := by
  obtain ⟨htype, v, hpresent, hrebuilds, hread⟩ := hpart
  exact ⟨htype, v, hpresent, hrebuilds.remakes, hread⟩

theorem FieldRebuilds.remakes {f : Field HostType} {slot : Option Ref}
    (hpart : FieldRebuilds call m h o f slot) : (Remaking.copying h).Field call m o f slot := by
  cases slot with
  | none => exact hpart
  | some r => exact PropertyRebuilds.remakes hpart

/-- A record is rebuilt of the properties of a plain object. -/
theorem record_rebuilds {d : Nat} {name : String} {fields : List (Field HostType)}
    {slots : List (Option Ref)} {members : List (String × Value)} (huntagged : m.toEngine.Untagged limit)
    (hcell : h.cell r = ⟨.record d name fields, .record slots⟩)
    (hobject : m.object o = .plainWith members)
    (hparts : List.Forall₂ (FieldRebuilds call m h o) fields slots) :
    Rebuilds call m h (.object o) r := by
  intro type g htype
  obtain ⟨s, g', hconvert, hadds, hs⟩ := Remaking.record_gives (w := .copying h) huntagged hcell hobject
    (hparts.imp fun _ _ hpart => hpart.remakes) htype trivial
  exact ⟨s, g', hconvert, hadds, Heap.Remade.copies hs⟩

/-! ### Tables and sets -/

/-- Of the entries of a table of `h`, those at the atoms that are done have been gathered over `g` in a
table of the heap `g'`, with yields that are made again. -/
structure Gathered (w : Remaking h) (entries : Entries Entry) (g : Heap) (key : AtomType)
    (yield : Option HostType) (done : Atom → Prop) (g' : Heap) (news : Entries Entry) : Prop where
  building : g.Building (.table key yield) (.table news) g'
  sorted : news.Sorted
  gathers : ∀ a e, (a, e) ∈ entries → done a → ∃ e', (a, e') ∈ news
  comes : ∀ a e', (a, e') ∈ news → ∃ e, (a, e) ∈ entries ∧
    Option.Rel (w.made (g.cells.size + 1) g') e.yield e'.yield

namespace Gathered

variable {w : Remaking h} {entries news : Entries Entry} {yield : Option HostType}
  {done done' : Atom → Prop}

theorem start (w : Remaking h) (entries : Entries Entry) (g : Heap) (key : AtomType)
    (yield : Option HostType) :
    Gathered w entries g key yield (fun _ => False) (g.alloc ⟨.table key yield, .table []⟩).2 [] where
  building := .start g _ _
  sorted := Entries.sorted_nil
  gathers _ _ _ hdone := hdone.elim
  comes _ _ hmem := by cases hmem

/-- No more needs to have been gathered. -/
theorem mono (hg : Gathered w entries g key yield done g' news)
    (hdone : ∀ a e, (a, e) ∈ entries → done' a → done a) :
    Gathered w entries g key yield done' g' news :=
  ⟨hg.building, hg.sorted, fun a e hmem ha => hg.gathers a e hmem (hdone a e hmem ha), hg.comes⟩

/-- An entry is put in, under a new value of its key. -/
theorem put {e : Entry} {yield' : Option Ref} (hg : Gathered w entries g key yield done g' news)
    (hmem : (a, e) ∈ entries) (hadds : g'.Adds g₃)
    (hyield : Option.Rel (w.made g'.cells.size g₃) e.yield yield') :
    Gathered w entries g key yield (fun b => done b ∨ b = a)
      (g₃.update g.cells.size (.table (news.insert a ⟨k, yield'⟩))) (news.insert a ⟨k, yield'⟩) := by
  have hlast : g₃.KeepsFrom (g.cells.size + 1)
      (g₃.update g.cells.size (.table (news.insert a ⟨k, yield'⟩))) :=
    Heap.keepsFrom_update (Nat.lt_succ_self _)
  refine ⟨(hg.building.andAdds hadds).update _, hg.sorted.insert a _, ?_, ?_⟩
  · intro b e' hb hdone
    -- at the key itself the entry may replace one
    by_cases hba : b = a
    · exact ⟨⟨k, yield'⟩, hg.sorted.mem_insert_iff.mpr (by simp [hba])⟩
    · obtain ⟨e'', hold⟩ := hg.gathers b e' hb (hdone.resolve_right hba)
      exact ⟨e'', hg.sorted.mem_insert_iff.mpr (by simp [hba, hold])⟩
  · intro b e' hb
    have hcase := hg.sorted.mem_insert_iff.mp hb
    by_cases hba : b = a
    · rw [if_pos hba] at hcase
      subst hba hcase
      refine ⟨e, hmem, rel_imp hyield fun v u hu => ?_⟩
      exact w.lasting v u hu (hlast.mono hg.building.lt) hg.building.lt
    · rw [if_neg hba] at hcase
      obtain ⟨e'', hold, hrel⟩ := hg.comes b e' hcase
      refine ⟨e'', hold, rel_imp hrel fun v u hu => ?_⟩
      exact w.lasting v u hu ((hadds.keepsFrom _).trans hlast) (Nat.le_refl _)

/-- The table takes the entry. -/
theorem assign_eq (yield' : Option Ref) (hg : Gathered w entries g key yield done g' news)
    (hadds : g'.Adds g₃) (hkey : g₃.cell k = ⟨.atom key, .atom a⟩)
    (hyield : g₃.checkYield yield yield' = .ok ()) :
    g₃.tableAssign g.cells.size k yield' =
      .ok (g₃.update g.cells.size (.table (news.insert a ⟨k, yield'⟩))) := by
  have hcell := (hg.building.andAdds hadds).cell_eq
  have hatom : g₃.keyAtom key k = .ok a := by
    refine Heap.keyAtom_eq_ok.mpr ⟨?_, congrArg Cell.content hkey⟩
    rw [Heap.typeOf_eq hkey]
    exact HostType.same_refl _
  exact Heap.tableAssign_eq (congrArg Cell.type hcell) (congrArg Cell.content hcell) hatom hyield

/-- Once all entries have been gathered the table is made again. -/
theorem remade {yield₀ : Option HostType} (hg : Gathered w entries g key yield done g' news)
    (hcell : h.cell r = ⟨.table key yield₀, .table entries⟩) (hsorted : entries.Sorted)
    (hsame : HostType.sameYield yield₀ yield = true) (hall : ∀ a e, (a, e) ∈ entries → done a) :
    h.Remade (w.made g.cells.size g') g.cells.size g' r g.cells.size := by
  -- both tables are sorted by the same keys, so they agree place by place
  have hkeys : entries.map (·.1) = news.map (·.1) := by
    refine hsorted.keys_eq hg.sorted fun a => ⟨?_, ?_⟩
    · rintro ⟨e, hmem⟩
      exact hg.gathers a e hmem (hall a e hmem)
    · rintro ⟨e', hmem⟩
      obtain ⟨e, hold, -⟩ := hg.comes a e' hmem
      exact ⟨e, hold⟩
  have hyields : List.Forall₂ (Option.Rel (w.made (g.cells.size + 1) g'))
      (entries.map (·.2.yield)) (news.map (·.2.yield)) := by
    rw [List.forall₂_map_left_iff, List.forall₂_map_right_iff, List.forall₂_iff_zip]
    refine ⟨by simpa using congrArg List.length hkeys, ?_⟩
    rintro ⟨a, e⟩ ⟨b, e'⟩ hmem
    obtain ⟨i, hi⟩ := List.mem_iff_getElem?.mp hmem
    obtain ⟨hold, hnew⟩ := List.getElem?_zip_eq_some.mp hi
    obtain rfl : a = b := by
      have hat := congrArg (·[i]?) hkeys
      simpa [List.getElem?_map, hold, hnew] using hat
    obtain ⟨e₀, hmem₀, hrel⟩ := hg.comes a e' (List.mem_of_getElem? hnew)
    obtain rfl : e = e₀ := hsorted.eq_of_mem (List.mem_of_getElem? hold) hmem₀
    exact hrel
  have hrelated := SlotsRelated.of_forall₂ hyields
  refine ⟨Nat.le_refl _, hg.building.lt, ?_⟩
  rw [hcell, hg.building.cell_eq]
  refine .table hsame hkeys ⟨hrelated.set_eq, fun v u hmem => ?_⟩
  exact w.lasting v u (hrelated.related v u hmem) (.refl _ _) (Nat.le_succ _)

end Gathered

/-- Converts an item of an array to a member of a set. -/
def convertMember (set : Ref) (key : AtomType) (index : Nat) (item : Value) : Conversion Unit := do
  let member ← inPart (.inElement index) (memberToHost key item)
  complete fun h => h.tableAssign set member none

namespace Gathered

variable {w : Remaking h} {entries news : Entries Entry} {done : Atom → Prop} {e : Entry}

/-- One more member is put in a set. -/
theorem member_gives {i : Nat} (hg : Gathered w entries g key none done g₁ news)
    (hmem : (a, e) ∈ entries) (hyield : e.yield = none)
    (hmember : Succeeds call { m with heap := g₁ } (memberToHost key v) g₁.cells.size
      { m with heap := (g₁.alloc ⟨.atom key, .atom a⟩).2 }) :
    ∃ g₂ news', Succeeds call { m with heap := g₁ } (convertMember g.cells.size key i v) ()
        { m with heap := g₂ } ∧
      Gathered w entries g key none (fun b => done b ∨ b = a) g₂ news' := by
  have hadds := Heap.adds_alloc g₁ ⟨.atom key, .atom a⟩
  have hassign := hg.assign_eq none hadds (Heap.cell_alloc_self _) rfl
  have hnone : Option.Rel (w.made g₁.cells.size (g₁.alloc ⟨.atom key, .atom a⟩).2) e.yield none := by
    rw [hyield]
    exact .none
  exact ⟨_, _, .bind (.adapt _ hmember) (complete_gives hassign), hg.put hmem hadds hnone⟩

/-- One more entry is put in a table: first comes the new key, then what is new in the yield. -/
theorem entry_gives {yield yield' : HostType} (hsuits : w.suits g)
    (hg : Gathered w entries g key (some yield') done g₁ news) (hmem : (a, e) ∈ entries)
    (hadmits : key.admits a = true) (hkey : key.keyOfName (a.render key) = .ok a)
    (hr : e.yield = some r) (hpart : w.Property call m o (a.render key) yield r)
    (hsame : yield.same yield' = true) :
    ∃ g₂ news', Succeeds call { m with heap := g₁ }
        (convertEntry o g.cells.size key yield' (a.render key)) () { m with heap := g₂ } ∧
      Gathered w entries g key (some yield') (fun b => done b ∨ b = a) g₂ news' := by
  obtain ⟨htype, v, -, hremakes, hread⟩ := hpart
  have hitem := HostType.same_trans htype hsame
  let g₂ := (g₁.alloc ⟨.atom key, .atom a⟩).2
  have hsuits₁ := w.adds hsuits hg.building.adds
  obtain ⟨s, g₃, hconvert, hadds, hs⟩ := hremakes yield' g₂ hitem (w.adds hsuits₁ (Heap.adds_alloc g₁ _))
  have hall : g₁.Adds g₃ := (Heap.adds_alloc g₁ _).trans hadds
  have hcell₃ : g₃.cell g₁.cells.size = ⟨.atom key, .atom a⟩ := by
    rw [hadds.cell_eq _ (by simp [g₂]), Heap.cell_alloc_self]
  have hcheck : g₃.checkYield (some yield') (some s) = .ok () :=
    if_pos (Remaking.same_of_made (w.adds hsuits₁ hall) hs hitem)
  have hassign := hg.assign_eq (some s) hall hcell₃ hcheck
  have hyield : Option.Rel (w.made g₁.cells.size g₃) e.yield (some s) := by
    rw [hr]
    exact .some (w.lasting r s hs (.refl _ _) (by simp [g₂]))
  refine ⟨_, _, ?_, hg.put (k := g₁.cells.size) hmem hall hyield⟩
  refine .bind (.adapt _ (.except hkey)) ?_
  refine .bind (new_gives (Heap.checkContent_atom hadmits)) ?_
  exact .bind (.routine (hread g₂)) (.bind (.adapt _ hconvert) (complete_gives hassign))

end Gathered

variable {entries : Entries Entry}

/-- A set is built of the items of an array, in order. -/
theorem set_rebuilds {items : List Value} (huntagged : m.toEngine.Untagged limit)
    (hcell : h.cell r = ⟨.table key none, .table entries⟩) (hsorted : entries.Sorted)
    (hyields : ∀ a e, (a, e) ∈ entries → e.yield = none)
    (hobject : m.object o = .arrayWith items) (hlength : items.length < 2 ^ 31)
    (hsize : items.length = entries.length) (hsettled : ∀ v ∈ items, v.Settled m.toEngine)
    (hmembers : ∀ (i : Nat) (v : Value) (a : Atom) (e : Entry), items[i]? = some v →
      entries[i]? = some (a, e) → ∀ g, Succeeds call { m with heap := g } (memberToHost key v)
        g.cells.size { m with heap := (g.alloc ⟨.atom key, .atom a⟩).2 }) :
    Rebuilds call m h (.object o) r := by
  intro type g htype
  obtain rfl : type = .table key none := by
    rw [Heap.typeOf_eq hcell] at htype
    cases type with
    | table key' yield => cases yield <;> simp_all [HostType.same, HostType.sameYield]
    | _ => simp_all [HostType.same]
  -- after so many items the entries at as many places have been gathered
  let done (i : Nat) (a : Atom) : Prop := ∃ j < i, ∃ e, entries[j]? = some (a, e)
  have hround : ∀ (i : Nat) (v : Value), items[i]? = some v →
      ∀ g₁, (∃ news, Gathered (.copying h) entries g key none (done i) g₁ news) →
        ∃ g₂, Succeeds call { m with heap := g₁ } (convertMember g.cells.size key i v) ()
            { m with heap := g₂ } ∧
          ∃ news, Gathered (.copying h) entries g key none (done (i + 1)) g₂ news := by
    rintro i v hv g₁ ⟨news, hg₁⟩
    have hi : i < entries.length := hsize ▸ (List.getElem?_eq_some_iff.mp hv).1
    obtain ⟨⟨a, e⟩, hat⟩ : ∃ x, entries[i]? = some x := ⟨_, List.getElem?_eq_getElem hi⟩
    have hmem := List.mem_of_getElem? hat
    obtain ⟨g₂, news', hgives, hg₂⟩ :=
      hg₁.member_gives (i := i) hmem (hyields a e hmem) (hmembers i v a e hv hat g₁)
    refine ⟨g₂, hgives, news', hg₂.mono ?_⟩
    rintro b e' - ⟨j, hj, e'', hb⟩
    rcases Nat.lt_succ_iff_lt_or_eq.mp hj with hlt | rfl
    · exact .inl ⟨j, hlt, e'', hb⟩
    · rw [hat] at hb
      cases hb
      exact .inr rfl
  let blank : Machine := { m with heap := (g.alloc ⟨.table key none, .table []⟩).2 }
  have hblank : blank.object o = .arrayWith items := hobject
  have hstart : Gathered (.copying h) entries g key none (done 0) blank.heap [] :=
    (Gathered.start (.copying h) entries g key none).mono fun a e _ ⟨j, hj, _⟩ => Nat.not_lt_zero j hj
  obtain ⟨g', hloop, news, hg'⟩ := forItems_gives _ hblank hlength hsettled ⟨[], hstart⟩ hround
  refine ⟨g.cells.size, g', ?_, hg'.building.adds, (hg'.remade hcell hsorted rfl ?_).copies⟩
  · rw [toHost]
    refine heldOr_unheld (unheld_arrayWith (m := { m with heap := g }) huntagged hobject) ?_
    refine .bind (new_gives rfl) ?_
    exact .bind (.routine (arrayOf_gives hobject)) (.bind hloop .pure)
  · intro a e hmem
    obtain ⟨i, hi⟩ := List.mem_iff_getElem?.mp hmem
    exact ⟨i, hsize ▸ (List.getElem?_eq_some_iff.mp hi).1, e, hi⟩

/-- A table is made of the members of a plain object, which name its keys, in any order. -/
theorem Remaking.table_gives {w : Remaking h} {yield type : HostType} {members : List (String × Value)}
    (huntagged : m.toEngine.Untagged limit)
    (hcell : h.cell r = ⟨.table key (some yield), .table entries⟩) (hsorted : entries.Sorted)
    (hobject : m.object o = .plainWith members)
    (hnames : members.map (·.1) = entries.map fun x => x.1.render key)
    (hdistinct : (entries.map fun x => x.1.render key).Nodup)
    (hsettled : ∀ member ∈ members, member.2.Settled m.toEngine)
    (hkeys : ∀ a e, (a, e) ∈ entries → key.admits a = true ∧ key.keyOfName (a.render key) = .ok a)
    (hyields : ∀ a e, (a, e) ∈ entries → ∃ r, e.yield = some r ∧
      w.Property call m o (a.render key) yield r)
    (htype : (h.typeOf r).same type = true) (hsuits : w.suits g) :
    ∃ s g', Succeeds call { m with heap := g } (toHost type (.object o)) s { m with heap := g' } ∧
      g.Adds g' ∧ h.Remade (w.made g.cells.size g') g.cells.size g' r s := by
  obtain ⟨yield', rfl, hsame⟩ : ∃ yield', type = .table key (some yield') ∧
      yield.same yield' = true := by
    rw [Heap.typeOf_eq hcell] at htype
    cases type with
    | table key' yield' => cases yield' <;> simp_all [HostType.same, HostType.sameYield]
    | _ => simp_all [HostType.same]
  -- the names come in an order of their own, so what is done is kept by name
  let reached (done : List String) (g₁ : Heap) : Prop :=
    ∃ news, Gathered w entries g key (some yield') (fun a => a.render key ∈ done) g₁ news
  have hround : ∀ done name rest, (done ++ name :: rest).Perm (members.map (·.1)) →
      ∀ g₁, reached done g₁ → ∃ g₂, Succeeds call { m with heap := g₁ }
        (convertEntry o g.cells.size key yield' name) () { m with heap := g₂ } ∧
          reached (done ++ [name]) g₂ := by
    rintro done name rest hperm g₁ ⟨news, hg₁⟩
    have hname : name ∈ entries.map fun x => x.1.render key :=
      hnames ▸ hperm.subset (by simp)
    obtain ⟨⟨a, e⟩, hmem, rfl⟩ := List.mem_map.mp hname
    obtain ⟨hadmits, hkey⟩ := hkeys a e hmem
    obtain ⟨r, hr, hpart⟩ := hyields a e hmem
    obtain ⟨g₂, news', hgives, hg₂⟩ := hg₁.entry_gives hsuits hmem hadmits hkey hr hpart hsame
    refine ⟨g₂, hgives, news', hg₂.mono ?_⟩
    intro b e' hb hdone
    rcases List.mem_append.mp hdone with hold | hnew
    · exact .inl hold
    · have hpair := List.inj_on_of_nodup_map hdistinct hb hmem (List.mem_singleton.mp hnew)
      exact .inr (congrArg Prod.fst hpair)
  let blank : Machine := { m with heap := (g.alloc ⟨.table key (some yield'), .table []⟩).2 }
  have hblank : blank.object o = .plainWith members := hobject
  have hstart : reached [] blank.heap :=
    ⟨[], (Gathered.start w entries g key (some yield')).mono fun a e _ hdone => by cases hdone⟩
  obtain ⟨names, g', hloop, hperm, news, hg'⟩ :=
    forNames_gives reached hblank (hnames ▸ hdistinct) hsettled hstart hround
  refine ⟨g.cells.size, g', ?_, hg'.building.adds, hg'.remade hcell hsorted hsame ?_⟩
  · rw [toHost]
    refine heldOr_unheld (unheld_plainWith (m := { m with heap := g }) huntagged hobject) ?_
    refine .bind (new_gives rfl) ?_
    exact .bind (.routine (plainObject_gives hobject)) (.bind hloop .pure)
  · intro a e hmem
    rw [hnames] at hperm
    exact hperm.symm.subset (List.mem_map_of_mem (f := fun x => x.1.render key) hmem)

/-- A table is rebuilt of the members of a plain object. -/
theorem table_rebuilds {yield : HostType} {members : List (String × Value)}
    (huntagged : m.toEngine.Untagged limit)
    (hcell : h.cell r = ⟨.table key (some yield), .table entries⟩) (hsorted : entries.Sorted)
    (hobject : m.object o = .plainWith members)
    (hnames : members.map (·.1) = entries.map fun x => x.1.render key)
    (hdistinct : (entries.map fun x => x.1.render key).Nodup)
    (hsettled : ∀ member ∈ members, member.2.Settled m.toEngine)
    (hkeys : ∀ a e, (a, e) ∈ entries → key.admits a = true ∧ key.keyOfName (a.render key) = .ok a)
    (hyields : ∀ a e, (a, e) ∈ entries → ∃ r, e.yield = some r ∧
      PropertyRebuilds call m h o (a.render key) yield r) : Rebuilds call m h (.object o) r := by
  intro type g htype
  have hparts : ∀ a e, (a, e) ∈ entries → ∃ r, e.yield = some r ∧
      (Remaking.copying h).Property call m o (a.render key) yield r := by
    intro a e hmem
    obtain ⟨r, hr, hpart⟩ := hyields a e hmem
    exact ⟨r, hr, hpart.remakes⟩
  obtain ⟨s, g', hconvert, hadds, hs⟩ := Remaking.table_gives (w := .copying h) huntagged hcell hsorted
    hobject hnames hdistinct hsettled hkeys hparts htype trivial
  exact ⟨s, g', hconvert, hadds, Heap.Remade.copies hs⟩

end Script

end HostView
