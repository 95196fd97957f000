import HostView.Proofs.Exposure.Building
import HostView.Proofs.Exposure.Naming
import HostView.Proofs.Exposure.PlainData
import HostView.Proofs.Script.Listing

/-! # Plain data read back

An atom is read back from the plain data that stands for it, unless it is an integer beyond the exact
doubles, which is kept as text. As a member of a set it is read back also then, since the text of a
member is read as the name of a key.
-/

namespace HostView

/-- An integer among atoms is one that doubles represent exactly. -/
def Atom.Small : Atom → Prop
  | .int i => i.toInt.natAbs ≤ 2 ^ 53 - 1
  | .count c => c.toNat ≤ 2 ^ 53 - 1
  | _ => True

instance : DecidablePred Atom.Small
  | .int i => inferInstanceAs (Decidable (i.toInt.natAbs ≤ 2 ^ 53 - 1))
  | .count c => inferInstanceAs (Decidable (c.toNat ≤ 2 ^ 53 - 1))
  | .bool _ | .string _ | .port _ | .addr _ | .subnet _ | .enum _ => .isTrue trivial

/-- Variants of the same name are the same, if there are no two of one name. -/
theorem AtomType.Alike.eq {τ : AtomType} {a b : Atom} (h : τ.Alike a b) (hdistinct : τ.Distinct)
    (ha : τ.admits a = true) : a = b := by
  cases τ with
  | enum e =>
      cases a <;> simp only [admits, Bool.false_eq_true] at ha
      cases b with
      | enum j =>
          have hvariants : e.variants[_]? = e.variants[j]? := h
          rw [(List.getElem?_inj (of_decide_eq_true ha) hdistinct).mp hvariants]
      | _ => exact h
  | _ => exact h

namespace Plain

variable {τ : AtomType} {a : Atom}

theorem ofInt_small {i : Int} (hi : i.natAbs ≤ 2 ^ 53 - 1) : ofInt i = .int i := if_pos hi

/-- An atom is kept as its text, or otherwise as what is no text; then it is small. -/
theorem ofAtom_cases (τ : AtomType) (a : Atom) :
    ofAtom τ a = .text (a.render τ) ∨ a.Small ∧ ∀ s, ofAtom τ a ≠ .text s := by
  cases a with
  | bool => exact .inr ⟨trivial, nofun⟩
  | int i =>
      by_cases hsmall : i.toInt.natAbs ≤ 2 ^ 53 - 1
      · refine .inr ⟨hsmall, fun s => ?_⟩
        rw [ofAtom, ofInt_small hsmall]
        nofun
      · exact .inl (if_neg hsmall)
  | count c =>
      by_cases hsmall : c.toNat ≤ 2 ^ 53 - 1
      · refine .inr ⟨hsmall, fun s => ?_⟩
        rw [ofAtom, ofInt_small (by simpa using hsmall)]
        nofun
      · exact .inl (if_neg (by simpa using hsmall))
  | port => exact .inr ⟨trivial, nofun⟩
  | string | addr | subnet | enum => exact .inl rfl

end Plain

namespace Script

variable {call : Caller} {m : Machine} {e : Engine} {low limit o : ObjectId} {v : Value} {d : Datum}
  {p : Plain} {τ : AtomType} {a : Atom} {g : Heap}

/-! ### What stands for data -/

/-- No data is taken for a host value. -/
theorem Engine.Denotes.unheld (hv : m.toEngine.Denotes low v d) (huntagged : m.toEngine.Untagged limit) :
    Unheld call m v := by
  cases hv with
  | value hv => exact unheld_of_object? hv
  | array _ _ hobject => exact unheld_arrayWith huntagged hobject
  | object _ _ hobject => exact unheld_plainWith huntagged hobject

theorem Engine.Denotes.eq_value {w : Value} (hv : e.Denotes low v (.value w)) : v = w := by
  cases hv
  rfl

/-- Data that is not null is there. -/
theorem Engine.Denotes.present (hv : e.Denotes low v p.datum) (hp : p ≠ .null) :
    v.isPresent = true := by
  cases p with
  | null => exact absurd rfl hp
  | bool =>
      cases hv
      rfl
  | int i =>
      cases hv
      unfold Value.ofInt
      split <;> rfl
  | real x =>
      cases hv
      unfold Value.ofReal
      split
      next => split <;> rfl
      next => rfl
  | text =>
      cases hv
      rfl
  | array =>
      cases hv
      rfl
  | object =>
      cases hv
      rfl

/-- Only text stands for text. -/
theorem Engine.Denotes.eq_text {s : ScriptString} (hv : e.Denotes low (.string s) p.datum) :
    ∃ t, p = .text t := by
  cases p with
  | text t => exact ⟨t, rfl⟩
  | int i =>
      have hint := hv.eq_value
      unfold Value.ofInt at hint
      split at hint <;> cases hint
  | real x =>
      have hreal := hv.eq_value
      unfold Value.ofReal at hreal
      split at hreal
      next => split at hreal <;> cases hreal
      next => cases hreal
  | null => cases hv.eq_value
  | bool => cases hv.eq_value
  | array => cases hv
  | object => cases hv

theorem settled_items {items : List Value} {data : List Datum} (hlength : items.length = data.length)
    (hitems : ∀ (i : Nat) (v : Value) (d : Datum), items[i]? = some v → data[i]? = some d →
      e.Denotes low v d) : ∀ v ∈ items, v.Settled e := by
  intro v hmem
  obtain ⟨i, hi, rfl⟩ := List.mem_iff_getElem.mp hmem
  exact (hitems i _ _ (List.getElem?_eq_getElem hi)
    (List.getElem?_eq_getElem (hlength ▸ hi))).settled

section

variable {members : List (String × Value)} {data : List (String × Datum)} {name : String}
  (hnames : members.map (·.1) = data.map (·.1))
  (hmembers : ∀ (i : Nat) (x : String × Value) (y : String × Datum), members[i]? = some x →
    data[i]? = some y → e.Denotes low x.2 y.2)

include hnames hmembers

theorem settled_members : ∀ member ∈ members, member.2.Settled e := by
  intro member hmember
  obtain ⟨i, hi, rfl⟩ := List.mem_iff_getElem.mp hmember
  have hlength : members.length = data.length := by simpa using congrArg List.length hnames
  exact (hmembers i _ _ (List.getElem?_eq_getElem hi)
    (List.getElem?_eq_getElem (hlength ▸ hi))).settled

/-- An object of data with distinct names has the data of each name. -/
theorem lookup_denotes (hdistinct : (data.map (·.1)).Nodup) (hmem : (name, d) ∈ data) :
    ∃ v, members.lookup name = some v ∧ e.Denotes low v d := by
  obtain ⟨i, hi, hat⟩ := List.mem_iff_getElem.mp hmem
  have hlength : members.length = data.length := by simpa using congrArg List.length hnames
  have hi' : i < members.length := hlength ▸ hi
  have hname : members[i].1 = name := by
    have hget := congrArg (·[i]?) hnames
    simpa [hi, hi', hat] using hget
  refine ⟨members[i].2, ?_, ?_⟩
  · rw [← hname]
    exact lookup_member (hnames ▸ hdistinct) (List.getElem_mem hi')
  · exact hmembers i _ (name, d) (List.getElem?_eq_getElem hi')
      (hat ▸ List.getElem?_eq_getElem hi)

omit hmembers in
theorem lookup_absent (habsent : name ∉ data.map (·.1)) : members.lookup name = none :=
  lookup_eq_none_of_notMem (hnames ▸ habsent)

end

theorem forM_texts {names : List String} {body : ScriptString → Conversion Unit}
    (P : List String → Heap → Prop) (hstart : P [] m.heap)
    (hround : ∀ done name rest, names = done ++ name :: rest → ∀ g, P done g →
      ∃ g', Succeeds call { m with heap := g } (body (.text name)) () { m with heap := g' } ∧
        P (done ++ [name]) g') :
    ∃ g, Succeeds call m ((names.map .text).forM body) () { m with heap := g } ∧ P names g := by
  -- the texts that are done tell the names that are done
  let reached (texts : List ScriptString) (m' : Machine) : Prop :=
    ∃ done g, texts = done.map .text ∧ m' = { m with heap := g } ∧ P done g
  obtain ⟨m', hloop, done, g, hdone, rfl, hg⟩ : ∃ m', Succeeds call m
      ((names.map .text).forM body) () m' ∧ reached (names.map .text) m' := by
    refine Succeeds.forM reached ⟨[], m.heap, rfl, rfl, hstart⟩ ?_
    rintro _ _ _ hsplit _ ⟨done, g, rfl, rfl, hg⟩
    obtain ⟨before, after, rfl, hbefore, hafter⟩ := List.map_eq_append_iff.mp hsplit
    obtain ⟨name, rest, rfl, rfl, rfl⟩ := List.map_eq_cons_iff.mp hafter
    obtain rfl : before = done := (List.map_inj_right fun _ _ => ScriptString.text.inj).mp hbefore
    obtain ⟨g', hround, hg'⟩ := hround before name rest rfl g hg
    exact ⟨_, hround, before ++ [name], g', by simp, rfl, hg'⟩
  obtain rfl : names = done := (List.map_inj_right fun _ _ => ScriptString.text.inj).mp hdone
  exact ⟨g, hloop, hg⟩

/-- The names of a plain object are converted one after the other, in the order in which they are
listed. -/
theorem forNames_gives {members : List (String × Value)} {convert : String → Conversion Unit}
    (P : List String → Heap → Prop) (hobject : m.object o = .plainWith members)
    (hdistinct : (members.map (·.1)).Nodup)
    (hsettled : ∀ member ∈ members, member.2.Settled m.toEngine) (hstart : P [] m.heap)
    (hround : ∀ done name rest, (done ++ name :: rest).Perm (members.map (·.1)) → ∀ g, P done g →
      ∃ g', Succeeds call { m with heap := g } (convert name) () { m with heap := g' } ∧
        P (done ++ [name]) g') :
    ∃ names g, Succeeds call m (forNames o convert) () { m with heap := g } ∧
      names.Perm (members.map (·.1)) ∧ P names g := by
  obtain ⟨names, hlist, hperm⟩ := enumerableNames_gives call hobject hdistinct hsettled
  have hbind : ∀ {f : Except Thrown (List ScriptString) → Conversion Unit},
      (∃ g, Succeeds call m (f (.ok (names.map .text))) () { m with heap := g } ∧ P names g) →
      ∃ g, Succeeds call m (liftM (enumerableNames o).run >>= f) () { m with heap := g } ∧
        P names g := by
    rintro f ⟨g, hrest, hg⟩
    exact ⟨g, .bind (.routine (.attempt hlist)) hrest, hg⟩
  obtain ⟨g, hrun, hg⟩ : ∃ g, Succeeds call m (forNames o convert) () { m with heap := g } ∧
      P names g := by
    unfold forNames
    refine hbind (forM_texts P hstart fun done name rest hsplit g hg => ?_)
    exact hround done name rest (hsplit ▸ hperm) g hg
  exact ⟨names, g, hrun, hperm, hg⟩

/-! ### Atoms -/

theorem countOf_ofInt {i : Int} (hlow : 0 ≤ i) (hhigh : i ≤ safeLimit) :
    Gives call m (countOf (.ofInt i)) (.ofNat i.toNat) m := by
  have hsmall : i.natAbs < 2 ^ 53 := by
    unfold safeLimit at hhigh
    omega
  unfold countOf
  rw [number?_ofInt]
  exact .bind (.except (wholeBetween_ofInt hsmall hlow hhigh)) .pure

/-- A small atom is read back. -/
theorem atomOf_denoted (hadmits : τ.admits a = true) (hdistinct : τ.Distinct) (hsmall : a.Small)
    (hmade : ∀ s, a = .subnet s → s.Made)
    (hv : m.toEngine.Denotes low v (Plain.ofAtom τ a).datum) : Gives call m (atomOf τ v) a m := by
  have hshown : ∀ w, shownAs? τ a = some w → v = w → Gives call m (atomOf τ v) a m := by
    rintro w hw rfl
    obtain ⟨b, hgives, hadmits', halike⟩ := atomOf_shown hadmits hmade hw
    rwa [halike.eq hdistinct hadmits]
  cases a with
  | count c =>
      obtain rfl : τ = .count := by
        cases τ <;> simp_all [AtomType.admits]
      have hc : c.toNat ≤ 2 ^ 53 - 1 := hsmall
      rw [Plain.ofAtom, Plain.ofInt_small (by simpa using hc), Plain.datum] at hv
      rw [hv.eq_value]
      have hcount : Gives call m (countOf (.ofInt c.toNat)) (.ofNat (c.toNat : Int).toNat) m :=
        countOf_ofInt (Int.natCast_nonneg _) (Int.ofNat_le.mpr hc)
      rw [Int.toNat_natCast, UInt64.ofNat_toNat] at hcount
      exact .bind hcount .pure
  -- a port is an object with two members
  | port p =>
      obtain rfl : τ = .port := by
        cases τ <;> simp_all [AtomType.admits]
      simp only [Plain.ofAtom, Plain.datum, Plain.memberData] at hv
      cases hv with
      | @object o members _ _ _ hobject hnames hmembers =>
          rcases members with _ | ⟨⟨port, x⟩, _ | ⟨⟨proto, y⟩, _ | _⟩⟩ <;>
            simp only [List.map_cons, List.map_nil, List.cons.injEq, reduceCtorEq, and_false,
              and_true] at hnames
          obtain ⟨rfl, rfl⟩ := hnames
          have hx : x = .ofInt p.number.toNat := (hmembers 0 _ _ rfl rfl).eq_value
          have hy : y = .string p.protocol.render := (hmembers 1 _ _ rfl rfl).eq_value
          rw [hx, hy] at hobject
          exact .bind (portOf_gives hobject) .pure
  | int i =>
      rw [Plain.ofAtom, Plain.ofInt_small hsmall] at hv
      cases hv
      exact hshown _ rfl (if_pos hsmall).symm
  | bool | string | addr | subnet | enum =>
      cases hv
      exact hshown _ rfl rfl

/-- A member of a set is read back, small or not. -/
theorem memberToHost_denoted (huntagged : m.toEngine.Untagged limit) (hadmits : τ.admits a = true)
    (hdistinct : τ.Distinct) (hmade : ∀ s, a = .subnet s → s.Made)
    (hv : m.toEngine.Denotes low v (Plain.ofAtom τ a).datum) :
    Succeeds call m (memberToHost τ v) m.heap.cells.size
      { m with heap := (m.heap.alloc ⟨.atom τ, .atom a⟩).2 } := by
  have hnew : Succeeds call m (newAtom τ a) m.heap.cells.size
      { m with heap := (m.heap.alloc ⟨.atom τ, .atom a⟩).2 } :=
    new_gives (Heap.checkContent_atom hadmits)
  -- a text is read as the name of a key; all else is read as an atom is
  rcases Plain.ofAtom_cases τ a with htext | ⟨hsmall, htext⟩
  · rw [htext] at hv
    cases hv
    refine .bind (.routine .pure) (.bind (.except ?_) hnew)
    exact AtomType.keyOfName_render hadmits hdistinct hmade
  · have hconvert : memberToHost τ v = atomToHost τ v := by
      cases v with
      | string s =>
          obtain ⟨t, ht⟩ := hv.eq_text
          exact absurd ht (htext t)
      | _ => rfl
    rw [hconvert]
    refine heldOr_unheld (hv.unheld huntagged) (.bind (.routine ?_) hnew)
    exact atomOf_denoted hadmits hdistinct hsmall hmade hv

end Script

end HostView
