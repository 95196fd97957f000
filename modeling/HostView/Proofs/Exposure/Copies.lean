import HostView.Proofs.Exposure.Building
import HostView.Proofs.Host.Images
import Mathlib.Data.List.Forall2
import Mathlib.Data.Option.Basic

/-! # Copies of host values

A copy of a host value is made of new values throughout. It has the structure of the original, and
what is read of it is the same but for the sign of zeros.
-/

namespace HostView

/-- Images of values that are structurally equal, where doubles are the same but for the sign of zero.
In particular what is no number is like itself. -/
inductive Image.Alike : Image → Image → Prop
  | atom {τ : AtomType} {a : Atom} : Alike (.atom τ a) (.atom τ a)
  | real {kind : RealKind} {x y : Binary64} (halike : x.Alike y) :
      Alike (.real kind x) (.real kind y)
  | record {τ σ : HostType} {ps qs : List (Part Image)} (hsame : τ.same σ = true)
      (hparts : List.Forall₂ (Option.Rel Alike) (ps.map (·.content)) (qs.map (·.content))) :
      Alike (.record τ ps) (.record σ qs)
  | table {key : AtomType} {y z : Option HostType} {es fs : List (Atom × Option Image)}
      (hsame : HostType.sameYield y z = true) (hkeys : es.map (·.1) = fs.map (·.1))
      (hyields : List.Forall₂ (Option.Rel Alike) (es.map (·.2)) (fs.map (·.2))) :
      Alike (.table key y es) (.table key z fs)
  | vector {τ σ : HostType} {xs ys : List (Option Image)} (hsame : τ.same σ = true)
      (hitems : List.Forall₂ (Option.Rel Alike) xs ys) : Alike (.vector τ xs) (.vector σ ys)

namespace Image

theorem equalParts_eq (ps qs : List (Part Image)) :
    equalParts ps qs = equalItems (ps.map (·.content)) (qs.map (·.content)) := by
  induction ps generalizing qs with
  | nil => cases qs <;> simp [equalParts, equalItems]
  | cons p ps ih =>
      obtain ⟨name, attributes, content⟩ := p
      cases qs with
      | nil => simp [equalParts, equalItems]
      | cons q qs =>
          obtain ⟨name', attributes', content'⟩ := q
          simp [equalParts, equalItems, ih]

theorem equalEntries_iff (es fs : List (Atom × Option Image)) :
    equalEntries es fs = true ↔
      es.map (·.1) = fs.map (·.1) ∧ equalItems (es.map (·.2)) (fs.map (·.2)) = true := by
  induction es generalizing fs with
  | nil => cases fs <;> simp [equalEntries, equalItems]
  | cons e es ih =>
      obtain ⟨a, x⟩ := e
      cases fs with
      | nil => simp [equalEntries]
      | cons f fs =>
          obtain ⟨b, y⟩ := f
          simp only [equalEntries, equalItems, List.map_cons, List.cons.injEq, Bool.and_eq_true,
            decide_eq_true_eq, ih]
          tauto

/-- A value that equals itself, as all values do in which there is no NaN, equals what is like it. -/
theorem Alike.equal {i j : Image} (h : i.Alike j) (hself : i.equal i = true) :
    i.equal j = true := by
  revert hself
  -- the induction is on images, lists of slots and single slots at once
  refine @Alike.rec (fun i j _ => i.equal i = true → i.equal j = true)
    (fun xs ys _ => equalItems xs xs = true → equalItems xs ys = true)
    (fun x y _ => equalSlot x x = true → equalSlot x y = true)
    ?atom ?real ?record ?table ?vector ?nil ?cons ?some ?none i j h
  case atom | nil | none => exact fun hself => hself
  case real =>
    intro kind x y halike hself
    rcases halike with rfl | ⟨hx, hy⟩
    · exact hself
    · have hnumber := Binary64.isNaN_of_isZero hy
      simp_all [Image.equal, Binary64.eq]
  case record =>
    intro τ σ ps qs hsame _ ih hself
    simp only [Image.equal, equalParts_eq, Bool.and_eq_true] at hself ⊢
    exact ⟨hsame, ih hself.2⟩
  case table =>
    intro key y z es fs hsame hkeys _ ih hself
    simp only [Image.equal, HostType.same, decide_true, Bool.true_and, Bool.and_eq_true,
      equalEntries_iff] at hself ⊢
    exact ⟨hsame, hkeys, ih hself.2.2⟩
  case vector =>
    intro τ σ xs ys hsame _ ih hself
    simp only [Image.equal, Bool.and_eq_true] at hself ⊢
    exact ⟨hsame, ih hself.2⟩
  case cons =>
    intro x y xs ys _ _ ih ihs hself
    simp only [equalItems, Bool.and_eq_true] at hself ⊢
    exact ⟨ih hself.1, ihs hself.2⟩
  case some =>
    intro i j _ ih hself
    rw [equalSlot] at hself ⊢
    exact ih hself

end Image

/-- Fields of the same structure agree one by one. -/
theorem HostType.forall₂_of_sameFields {fs gs : List (Field HostType)}
    (h : sameFields fs gs = true) : List.Forall₂ (fun f g => f.name = g.name ∧
      f.attributes = g.attributes ∧ f.type.same g.type = true) fs gs := by
  induction fs generalizing gs with
  | nil =>
      cases gs with
      | nil => exact .nil
      | cons g gs => simp [sameFields] at h
  | cons f fs ih =>
      obtain ⟨name, type, attributes⟩ := f
      cases gs with
      | nil => simp [sameFields] at h
      | cons g gs =>
          obtain ⟨name', type', attributes'⟩ := g
          simp only [sameFields, Bool.and_eq_true, decide_eq_true_eq] at h
          obtain ⟨⟨⟨hname, hattributes⟩, htype⟩, hrest⟩ := h
          exact .cons ⟨hname, hattributes, htype⟩ (ih hrest)

theorem rel_imp {α β : Type} {R S : α → β → Prop} {x : Option α} {y : Option β}
    (h : Option.Rel R x y) (himp : ∀ a b, R a b → S a b) : Option.Rel S x y := by
  cases h with
  | some hab => exact .some (himp _ _ hab)
  | none => exact .none

/-- The same slots are set on both sides, to values that are related. -/
structure SlotsRelated (related : Ref → Ref → Prop) (slots news : List (Option Ref)) : Prop where
  set_eq : slots.map Option.isSome = news.map Option.isSome
  related : ∀ r s, (some r, some s) ∈ slots.zip news → related r s

namespace SlotsRelated

variable {related related' : Ref → Ref → Prop} {slots news : List (Option Ref)}
  {slot new : Option Ref}

theorem nil : SlotsRelated related [] [] := ⟨rfl, nofun⟩

theorem cons (hfirst : Option.Rel related slot new) (hrest : SlotsRelated related slots news) :
    SlotsRelated related (slot :: slots) (new :: news) := by
  refine ⟨?_, fun r s hmem => ?_⟩
  · cases hfirst <;> simp [hrest.set_eq]
  · rw [List.zip_cons_cons, List.mem_cons] at hmem
    rcases hmem with heq | hmem
    · cases heq
      cases hfirst with
      | some h => exact h
    · exact hrest.related r s hmem

theorem length_eq (h : SlotsRelated related slots news) : slots.length = news.length := by
  simpa using congrArg List.length h.set_eq

theorem of_forall₂ (h : List.Forall₂ (Option.Rel related) slots news) :
    SlotsRelated related slots news := by
  induction h with
  | nil => exact nil
  | cons hfirst _ ih => exact cons hfirst ih

/-- What is read at related slots is related, if it is for the values in them. -/
theorem forall₂ {α β : Type} {R : α → β → Prop} {f : Ref → α} {k : Ref → β}
    (h : SlotsRelated related slots news)
    (hR : ∀ r s, (some r, some s) ∈ slots.zip news → related r s → R (f r) (k s)) :
    List.Forall₂ (Option.Rel R) (slots.map fun slot => slot.map f)
      (news.map fun slot => slot.map k) := by
  -- both sides are taken apart together, since they are set at the same places
  induction slots generalizing news with
  | nil =>
      have hnil : news = [] := List.map_eq_nil_iff.mp h.set_eq.symm
      subst hnil
      exact .nil
  | cons slot slots ih =>
      cases news with
      | nil => cases h.set_eq
      | cons new news =>
          obtain ⟨hset, hrest⟩ := List.cons.inj h.set_eq
          refine .cons ?_ (ih ⟨hrest, fun r s hmem => h.related r s (List.mem_cons_of_mem _ hmem)⟩
            fun r s hmem => hR r s (List.mem_cons_of_mem _ hmem))
          cases slot <;> cases new <;> simp only [Option.isSome, reduceCtorEq] at hset
          · exact .none
          · exact .some (hR _ _ List.mem_cons_self (h.related _ _ List.mem_cons_self))

end SlotsRelated

namespace Heap

variable {g h : Heap} {low : Ref} {r s : Ref} {n k : Nat}

/-- The second reference is to a copy of what the first one was in the heap `h`: to a new value, from
`low` on, whose parts are copies. -/
inductive Copies (h : Heap) (low : Ref) (g : Heap) : Ref → Ref → Prop
  | atom {r s : Ref} {τ : AtomType} {a : Atom} (hcell : h.cell r = ⟨.atom τ, .atom a⟩)
      (hlow : low ≤ s) (hlt : s < g.cells.size) (hnew : g.cell s = ⟨.atom τ, .atom a⟩) :
      Copies h low g r s
  | real {r s : Ref} {kind : RealKind} {x y : Binary64}
      (hcell : h.cell r = ⟨.real kind, .real kind x⟩) (hlow : low ≤ s) (hlt : s < g.cells.size)
      (hnew : g.cell s = ⟨.real kind, .real kind y⟩) (halike : x.Alike y) : Copies h low g r s
  | record {r s d d' : Nat} {name name' : String} {fields fields' : List (Field HostType)}
      {slots news : List (Option Ref)}
      (hcell : h.cell r = ⟨.record d name fields, .record slots⟩) (hlow : low ≤ s)
      (hlt : s < g.cells.size) (hnew : g.cell s = ⟨.record d' name' fields', .record news⟩)
      (hsame : (HostType.record d name fields).same (.record d' name' fields') = true)
      (hset : slots.map Option.isSome = news.map Option.isSome)
      (hslots : ∀ r s, (some r, some s) ∈ slots.zip news → Copies h low g r s) : Copies h low g r s
  | table {r s : Ref} {key : AtomType} {yield yield' : Option HostType}
      {entries news : Entries Entry} (hcell : h.cell r = ⟨.table key yield, .table entries⟩)
      (hlow : low ≤ s) (hlt : s < g.cells.size)
      (hnew : g.cell s = ⟨.table key yield', .table news⟩)
      (hsame : HostType.sameYield yield yield' = true)
      (hkeys : entries.map (·.1) = news.map (·.1))
      (hset : (entries.map (·.2.yield)).map Option.isSome =
        (news.map (·.2.yield)).map Option.isSome)
      (hyields : ∀ r s, (some r, some s) ∈ (entries.map (·.2.yield)).zip (news.map (·.2.yield)) →
        Copies h low g r s) : Copies h low g r s
  | vector {r s : Ref} {element element' : HostType} {slots news : List (Option Ref)}
      (hcell : h.cell r = ⟨.vector element, .vector slots⟩) (hlow : low ≤ s)
      (hlt : s < g.cells.size) (hnew : g.cell s = ⟨.vector element', .vector news⟩)
      (hsame : element.same element' = true)
      (hset : slots.map Option.isSome = news.map Option.isSome)
      (hitems : ∀ r s, (some r, some s) ∈ slots.zip news → Copies h low g r s) : Copies h low g r s

theorem Copies.low_le (hs : h.Copies low g r s) : low ≤ s := by
  cases hs <;> assumption

/-- A copy stays one as long as the new values stay as they are. -/
theorem Copies.lasting (h : Heap) (r s : Ref) : Lasting fun low g => h.Copies low g r s := by
  intro low low' g g' hs hkeeps hlow
  have hnew {x : Ref} (hx : x < g.cells.size) (hx' : low ≤ x) :
      low' ≤ x ∧ x < g'.cells.size ∧ g'.cell x = g.cell x :=
    ⟨Nat.le_trans hlow hx', Nat.lt_of_lt_of_le hx hkeeps.size_le, hkeeps.cell_eq x hx hx'⟩
  induction hs with
  | atom hcell hs hs' hcell' =>
      obtain ⟨hlow, hlt, heq⟩ := hnew hs' hs
      exact .atom hcell hlow hlt (heq.trans hcell')
  | real hcell hs hs' hcell' halike =>
      obtain ⟨hlow, hlt, heq⟩ := hnew hs' hs
      exact .real hcell hlow hlt (heq.trans hcell') halike
  | record hcell hs hs' hcell' hsame hset _ ih =>
      obtain ⟨hlow, hlt, heq⟩ := hnew hs' hs
      exact .record hcell hlow hlt (heq.trans hcell') hsame hset ih
  | table hcell hs hs' hcell' hsame hkeys hset _ ih =>
      obtain ⟨hlow, hlt, heq⟩ := hnew hs' hs
      exact .table hcell hlow hlt (heq.trans hcell') hsame hkeys hset ih
  | vector hcell hs hs' hcell' hsame hset _ ih =>
      obtain ⟨hlow, hlt, heq⟩ := hnew hs' hs
      exact .vector hcell hlow hlt (heq.trans hcell') hsame hset ih

/-- What the parts of a record hold is what its slots hold. -/
theorem contents_zip {α : Type} {fields : List (Field HostType)} {slots : List (Option Ref)}
    (hlength : slots.length = fields.length) (f : Ref → α) :
    ((fields.zip slots).map fun (field, slot) =>
        (⟨field.name, field.attributes, slot.map f⟩ : Part α)).map (·.content) =
      slots.map fun slot => slot.map f := by
  rw [List.map_map]
  conv_rhs => rw [← List.map_snd_zip (Nat.le_of_eq hlength)]
  rw [List.map_map]
  rfl

/-- Cells of one structure that hold the same but for the sign of zeros, where what they refer to is
related. -/
inductive CellsAlike (related : Ref → Ref → Prop) : Cell → Cell → Prop
  | atom {τ : AtomType} {a : Atom} : CellsAlike related ⟨.atom τ, .atom a⟩ ⟨.atom τ, .atom a⟩
  | real {kind : RealKind} {x y : Binary64} (halike : x.Alike y) :
      CellsAlike related ⟨.real kind, .real kind x⟩ ⟨.real kind, .real kind y⟩
  | record {d d' : Nat} {name name' : String} {fields fields' : List (Field HostType)}
      {slots news : List (Option Ref)}
      (hsame : (HostType.record d name fields).same (.record d' name' fields') = true)
      (hslots : SlotsRelated related slots news) :
      CellsAlike related ⟨.record d name fields, .record slots⟩
        ⟨.record d' name' fields', .record news⟩
  | table {key : AtomType} {yield yield' : Option HostType} {entries news : Entries Entry}
      (hsame : HostType.sameYield yield yield' = true)
      (hkeys : entries.map (·.1) = news.map (·.1))
      (hyields : SlotsRelated related (entries.map (·.2.yield)) (news.map (·.2.yield))) :
      CellsAlike related ⟨.table key yield, .table entries⟩ ⟨.table key yield', .table news⟩
  | vector {element element' : HostType} {slots news : List (Option Ref)}
      (hsame : element.same element' = true) (hitems : SlotsRelated related slots news) :
      CellsAlike related ⟨.vector element, .vector slots⟩ ⟨.vector element', .vector news⟩

theorem CellsAlike.same {related : Ref → Ref → Prop} {c c' : Cell} (h : CellsAlike related c c') :
    c.type.same c'.type = true := by
  cases h with
  | atom | real => exact HostType.same_refl _
  | record hsame => exact hsame
  | table hsame => simpa [HostType.same] using hsame
  | vector hsame => simpa [HostType.same] using hsame

/-- What is read of values is alike if their cells are, and what is read of their parts. -/
theorem CellsAlike.image_alike {related : Ref → Ref → Prop} (hh : h.WellTyped)
    (hcells : CellsAlike related (h.cell r) (g.cell s))
    (hparts : ∀ v w, some v ∈ (h.contentOf r).slots → related v w →
      (Image.read h n v).Alike (Image.read g k w)) :
    (Image.read h (n + 1) r).Alike (Image.read g (k + 1) s) := by
  have hfits := hh.fits r
  rw [typeOf, contentOf] at hfits
  rw [contentOf] at hparts
  rw [Image.read, Image.read]
  generalize h.cell r = cell, g.cell s = cell' at hcells hfits hparts
  cases hcells with
  | atom => exact .atom
  | real halike => exact .real halike
  | @record _ _ _ _ fields fields' slots news hsame hslots =>
      cases hfits with
      | record hlength _ =>
          have hfields : fields.length = fields'.length := by
            simp only [HostType.same, Bool.and_eq_true] at hsame
            exact (HostType.forall₂_of_sameFields hsame.2).length_eq
          have hnews : news.length = fields'.length := by
            rw [← hslots.length_eq, hlength, hfields]
          refine .record hsame ?_
          rw [contents_zip hlength, contents_zip hnews]
          exact hslots.forall₂ fun v w hmem => hparts v w (List.of_mem_zip hmem).1
  | table hsame hkeys hyields =>
      refine .table hsame ?_ ?_
      · simpa [Function.comp_def] using hkeys
      · have hread := hyields.forall₂ fun v w hmem => hparts v w (List.of_mem_zip hmem).1
        simpa [Function.comp_def] using hread
  | vector hsame hitems =>
      exact .vector hsame (hitems.forall₂ fun v w hmem => hparts v w (List.of_mem_zip hmem).1)

/-- What is read of related values is alike, as deep as the type is, if their cells are alike. -/
theorem WellTyped.images_alike {related : Ref → Ref → Prop} (hh : h.WellTyped)
    (hcells : ∀ v w, related v w → CellsAlike related (h.cell v) (g.cell w)) (hrs : related r s)
    (hn : (h.typeOf r).depth ≤ n) (hk : (h.typeOf r).depth ≤ k) :
    (Image.read h n r).Alike (Image.read g k s) := by
  -- how deep the copy is read is general, as it goes down together with the first
  have hall : ∀ k s, related r s → (h.typeOf r).depth ≤ k →
      (Image.read h n r).Alike (Image.read g k s) := by
    refine hh.depth_induction (motive := fun n r => ∀ k s, related r s →
      (h.typeOf r).depth ≤ k → (Image.read h n r).Alike (Image.read g k s)) ?_ hn
    intro n r _ ih k s hrs hk
    cases k with
    | zero => exact absurd hk (Nat.not_le.mpr (HostType.depth_pos _))
    | succ k =>
        refine (hcells r s hrs).image_alike hh fun v w hv hvw => ?_
        have hlt := hh.depth_lt hv
        exact ih v hv k w hvw (by omega)
  exact hall k s hrs hk

theorem Copies.cells_alike (hs : h.Copies low g r s) :
    CellsAlike (h.Copies low g) (h.cell r) (g.cell s) := by
  cases hs with
  | atom hcell _ _ hnew =>
      rw [hcell, hnew]
      exact .atom
  | real hcell _ _ hnew halike =>
      rw [hcell, hnew]
      exact .real halike
  | record hcell _ _ hnew hsame hset hslots =>
      rw [hcell, hnew]
      exact .record hsame ⟨hset, hslots⟩
  | table hcell _ _ hnew hsame hkeys hset hyields =>
      rw [hcell, hnew]
      exact .table hsame hkeys ⟨hset, hyields⟩
  | vector hcell _ _ hnew hsame hset hitems =>
      rw [hcell, hnew]
      exact .vector hsame ⟨hset, hitems⟩

/-- A copy has the structure of the original. -/
theorem Copies.same (hs : h.Copies low g r s) : (h.typeOf r).same (g.typeOf s) = true :=
  hs.cells_alike.same

/-- What is read of a copy is like what is read of the original, as deep as the type is. -/
theorem Copies.alike (hh : h.WellTyped) (hs : h.Copies low g r s) (hn : (h.typeOf r).depth ≤ n)
    (hk : (h.typeOf r).depth ≤ k) : (Image.read h n r).Alike (Image.read g k s) :=
  hh.images_alike (fun _ _ hcopies => hcopies.cells_alike) hs hn hk

/-- The second reference is to a new value, from `low` on, that is like the first one, with parts that are
related to those of the first. -/
structure Remade (h : Heap) (related : Ref → Ref → Prop) (low : Ref) (g : Heap) (r s : Ref) : Prop where
  low_le : low ≤ s
  lt : s < g.cells.size
  cells : CellsAlike related (h.cell r) (g.cell s)

/-- It is structurally equal to the first one, if its parts are. -/
theorem Remade.alike {related similar : Ref → Ref → Prop} (hs : h.Remade related low g r s)
    (hh : h.WellTyped) (hsimilar : ∀ v w, some v ∈ (h.contentOf r).slots → related v w → similar v w)
    (hcells : ∀ v w, similar v w → CellsAlike similar (h.cell v) (g.cell w)) :
    (Image.of h r).Alike (Image.of g s) := by
  have hdepth := HostType.depth_eq_of_same hs.cells.same
  -- both are read one step further than what is in them
  obtain ⟨n, hn⟩ : ∃ n, h.reach r = n + 1 :=
    Nat.exists_eq_succ_of_ne_zero (Nat.ne_zero_of_lt (Nat.lt_add_left _ (HostType.depth_pos _)))
  obtain ⟨k, hk⟩ : ∃ k, g.reach s = k + 1 :=
    Nat.exists_eq_succ_of_ne_zero (Nat.ne_zero_of_lt (Nat.lt_add_left _ (HostType.depth_pos _)))
  rw [Image.of, Image.of, hn, hk]
  refine hs.cells.image_alike hh fun v w hv hvw => ?_
  have hlt := hh.depth_lt hv
  have hlt' : (h.typeOf v).depth < (g.typeOf s).depth := hdepth ▸ hlt
  rw [reach] at hn hk
  exact hh.images_alike hcells (hsimilar v w hv hvw) (by omega) (by omega)

/-- It is a copy if its parts are. -/
theorem Remade.copies (hs : h.Remade (h.Copies low g) low g r s) : h.Copies low g r s := by
  obtain ⟨hlow, hlt, hcells⟩ := hs
  generalize hcell : h.cell r = cell, hnew : g.cell s = cell' at hcells
  cases hcells with
  | atom => exact .atom hcell hlow hlt hnew
  | real halike => exact .real hcell hlow hlt hnew halike
  | record hsame hslots => exact .record hcell hlow hlt hnew hsame hslots.set_eq hslots.related
  | table hsame hkeys hyields =>
      exact .table hcell hlow hlt hnew hsame hkeys hyields.set_eq hyields.related
  | vector hsame hitems => exact .vector hcell hlow hlt hnew hsame hitems.set_eq hitems.related

end Heap

end HostView
