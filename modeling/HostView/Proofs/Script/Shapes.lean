import HostView.Proofs.Script.Additions
import HostView.Proofs.Text.Digits

/-! # Plain objects and arrays

What a plain object with given members and an array with given items have, and what they become when
a member or an item is added.
-/

namespace HostView.Script

variable {call : Caller} {m : Machine} {e e₁ : Engine} {o : ObjectId} {items : List Value}
  {members : List (String × Value)} {name : String} {v : Value} {i limit : Nat}

/-! ### Keys of items -/

namespace Key

theorem item_injective : Function.Injective Key.item := by
  intro i j h
  have htext : Decimal.ofNat i = Decimal.ofNat j := by
    simpa only [Key.item, Key.name, Key.string.injEq, ScriptString.text.injEq] using h
  have hdigits : Decimal.digits i = Decimal.digits j := by
    simpa only [Decimal.ofNat, String.toList_ofList] using congrArg String.toList htext
  -- a number is read back from its digits
  have hread := congrArg Decimal.ofDigits? hdigits
  rw [Decimal.ofDigits?_digits, Decimal.ofDigits?_digits] at hread
  exact Option.some.inj hread

/-- A name with a character that is no digit is not that of an item. -/
theorem item_ne_name {name : String} {c : Char} (hc : c ∈ name.toList)
    (hdigit : ∀ d < 10, c ≠ d.digitChar) (i : Nat) : Key.item i ≠ .name name := by
  intro h
  have htext : Decimal.ofNat i = name := by
    simpa only [Key.item, Key.name, Key.string.injEq, ScriptString.text.injEq] using h
  have hdigits : c ∈ Decimal.digits i := by
    rw [← String.toList_ofList (l := Decimal.digits i)]
    change c ∈ (Decimal.ofNat i).toList
    rwa [htext]
  obtain ⟨d, hd, heq⟩ := Nat.exists_of_mem_toDigits (by omega) hdigits
  exact hdigit d hd heq

theorem item_ne_length (i : Nat) : Key.item i ≠ .length :=
  item_ne_name (c := 'l') (by decide) (by decide) i

theorem item_ne_proto (i : Nat) : Key.item i ≠ .name "__proto__" :=
  item_ne_name (c := '_') (by decide) (by decide) i

/-- As far as an array can be long, the key of an item is the index of the item. -/
theorem index?_item (hi : i < 2 ^ 32 - 1) : (Key.item i).index? = some i := by
  have hread : Decimal.natural? (2 ^ 32 - 1) (Decimal.ofNat i) = some i :=
    Decimal.natural?_ofNat (by omega)
  change arrayIndex? (Decimal.ofNat i) = some i
  rw [arrayIndex?, hread]
  exact if_pos ⟨by omega, rfl⟩

end Key

namespace Object

/-! ### Plain objects -/

/-- A plain object with the given members. -/
def plainWith (members : List (String × Value)) : Object :=
  ⟨.ordinary, some Intrinsic.object, true, members.map fun (name, v) => (.name name, .plain v)⟩

theorem plainWith_takes (members : List (String × Value)) : (plainWith members).Takes :=
  ⟨nofun, rfl, rfl, nofun⟩

theorem own?_plainWith (members : List (String × Value)) (name : String) :
    (plainWith members).own? (.name name) = (members.lookup name).map .plain := by
  have hlookup : ((members.map fun (name, v) => (Key.name name, Property.plain v)).lookup
      (.name name)) = (members.lookup name).map .plain := by
    induction members with
    | nil => rfl
    | cons member members ih =>
        obtain ⟨other, v⟩ := member
        rw [List.map_cons, List.lookup_cons, List.lookup_cons, ih]
        by_cases hname : name = other
        · subst hname
          simp
        · have hkey : (Key.name name == Key.name other) = false := by
            simpa [Key.name] using hname
          rw [hkey, beq_eq_false_iff_ne.mpr hname]
  exact hlookup

theorem own?_plainWith_tag (members : List (String × Value)) :
    (plainWith members).own? (.symbol .tag) = none := by
  have hlookup : ((members.map fun (name, v) => (Key.name name, Property.plain v)).lookup
      (.symbol .tag)) = none := by
    rw [List.lookup_eq_none_iff]
    intro p hp
    obtain ⟨member, -, rfl⟩ := List.mem_map.mp hp
    rfl
  exact hlookup

theorem plainWith_adding (members : List (String × Value)) (name : String) (v : Value) :
    (plainWith members).adding (.name name) v = plainWith (members ++ [(name, v)]) := by
  simp [adding, plainWith]

/-! ### Arrays -/

/-- An array with the given items. -/
def arrayWith (items : List Value) : Object :=
  ⟨.array items.length false, some Intrinsic.array, true,
    items.zipIdx.map fun (v, i) => (.item i, .plain v)⟩

theorem arrayWith_takes (items : List Value) : (arrayWith items).Takes :=
  ⟨nofun, rfl, rfl, nofun⟩

theorem lookup_items (items : List Value) (first i : Nat) :
    ((items.zipIdx first).map fun (v, i) => (Key.item i, Property.plain v)).lookup
      (.item (first + i)) = items[i]?.map .plain := by
  induction items generalizing first i with
  | nil => rfl
  | cons v items ih =>
      rw [List.zipIdx_cons, List.map_cons, List.lookup_cons]
      cases i with
      | zero => simp
      | succ i =>
          have hkey : (Key.item (first + (i + 1)) == Key.item first) = false := by
            refine beq_eq_false_iff_ne.mpr fun h => ?_
            have hindex := Key.item_injective h
            omega
          have hnext : first + (i + 1) = first + 1 + i := by omega
          rw [hkey, List.getElem?_cons_succ, hnext]
          exact ih (first + 1) i

theorem own?_arrayWith_item (items : List Value) (i : Nat) :
    (arrayWith items).own? (.item i) = items[i]?.map .plain := by
  have hitem := lookup_items items 0 i
  rw [Nat.zero_add] at hitem
  -- the length is the one property that no list entry stands for
  have hinherent : (arrayWith items).inherent? (.item i) = none :=
    if_neg (Key.item_ne_length i)
  rw [own?, hinherent, Option.none_or]
  exact hitem

theorem own?_arrayWith_length (items : List Value) :
    (arrayWith items).own? .length = some (.data (.ofInt items.length) true false false) := rfl

theorem own?_arrayWith_tag (items : List Value) : (arrayWith items).own? (.symbol .tag) = none := by
  have hlookup : ((items.zipIdx.map fun (v, i) => (Key.item i, Property.plain v)).lookup
      (.symbol .tag)) = none := by
    rw [List.lookup_eq_none_iff]
    intro p hp
    obtain ⟨item, -, rfl⟩ := List.mem_map.mp hp
    rfl
  exact hlookup

theorem arrayWith_adding (hlength : items.length < 2 ^ 32 - 1) (v : Value) :
    (arrayWith items).adding (.item items.length) v = arrayWith (items ++ [v]) := by
  have hindex := Key.index?_item hlength
  simp [adding, arrayWith, hindex, List.zipIdx_append]

end Object

/-! ### Building them -/

theorem newPlain_runs :
    e.Runs newPlain e.objects.size { e with objects := e.objects.push (.plainWith []) } :=
  fun _ _ => rfl

theorem newArray_runs :
    e.Runs (newArray []) e.objects.size { e with objects := e.objects.push (.arrayWith []) } :=
  fun _ _ => rfl

/-- Objects below the bound are not the new one. -/
theorem ne_of_limit_le (hlimit : limit ≤ o) : ∀ x < limit, x ≠ o :=
  fun _ hx heq => absurd hlimit (Nat.not_le.mpr (heq ▸ hx))

/-- A member is added to a plain object by an assignment. The value may have been made in between:
that left the object as it was. -/
theorem setMember_runs (hmade : e.Keeps (fun _ => True) e₁) (ho : o < e.objects.size)
    (hobject : e.object o = .plainWith members) (hname : members.lookup name = none)
    (h : e₁.Passes limit (.name name) Property.Open limit (some Intrinsic.object))
    (hlimit : limit ≤ o) :
    ∃ e', e₁.Runs (setProperty o (.name name) v) () e' ∧ e₁.Keeps (· ≠ o) e' ∧ e.Keeps (· ≠ o) e' ∧
      e'.object o = .plainWith (members ++ [(name, v)]) := by
  have hsame : e₁.object o = .plainWith members :=
    (hmade.object_eq o ho trivial (hobject ▸ (Object.plainWith_takes members).settled)).trans hobject
  have hsize : limit ≤ e₁.objects.size :=
    Nat.le_trans hlimit (Nat.le_of_lt (Nat.lt_of_lt_of_le ho hmade.size_le))
  have hown : (e₁.object o).own? (.name name) = none := by
    rw [hsame, Object.own?_plainWith, hname]
    rfl
  obtain ⟨e', hset, hadds⟩ := setProperty_runs (v := v) (Nat.lt_of_lt_of_le ho hmade.size_le)
    (hsame ▸ Object.plainWith_takes members) hown (by rw [hsame]; exact h.letsBy hlimit hsize) hsize
  refine ⟨e', hset, hadds.keeps, (hmade.mono fun _ _ _ => trivial).trans hadds.keeps, ?_⟩
  rw [hadds.object_eq, hsame, Object.plainWith_adding]

/-- Since the one engine, the other has made a plain object with the given members, after all objects that
there were. -/
structure Engine.Made (e e' : Engine) (members : List (String × Value)) : Prop where
  keeps : e.Keeps (fun _ => True) e'
  lt : e.objects.size < e'.objects.size
  object_eq : e'.object e.objects.size = .plainWith members

theorem Engine.made_new (e : Engine) :
    e.Made { e with objects := e.objects.push (.plainWith []) } [] :=
  ⟨.push _, by simp, Engine.object_push_size _⟩

/-- The object gets one more member. -/
theorem Engine.Made.add (h : e.Made e₁ members) (name : String) (v : Value)
    (hname : members.lookup name = none)
    (hopen : e.Passes limit (.name name) Property.Open limit (some Intrinsic.object))
    (hlimit : limit ≤ e.objects.size) :
    ∃ e', e₁.Runs (setProperty e.objects.size (.name name) v) () e' ∧
      e.Made e' (members ++ [(name, v)]) := by
  have hopen' := hopen.keeps (h.keeps.mono fun _ _ _ => trivial) hlimit
  obtain ⟨e', hset, hkeeps, -, hobject⟩ := setMember_runs (v := v) (.refl _) h.lt h.object_eq
    hname hopen' hlimit
  exact ⟨e', hset, h.keeps.andNew hkeeps (Nat.le_refl _), Nat.lt_of_lt_of_le h.lt hkeeps.size_le,
    hobject⟩

/-- An item is added to an array by an assignment, also when it has been made in between. -/
theorem setItem_runs (hmade : e.Keeps (fun _ => True) e₁) (ho : o < e.objects.size)
    (hobject : e.object o = .arrayWith items) (hlength : items.length < 2 ^ 32 - 1)
    (h : e₁.Passes limit (.item items.length) Property.Open limit (some Intrinsic.array))
    (hlimit : limit ≤ o) :
    ∃ e', e₁.Runs (setProperty o (.item items.length) v) () e' ∧
      e₁.Keeps (· ≠ o) e' ∧ e.Keeps (· ≠ o) e' ∧ e'.object o = .arrayWith (items ++ [v]) := by
  have hsame : e₁.object o = .arrayWith items :=
    (hmade.object_eq o ho trivial (hobject ▸ (Object.arrayWith_takes items).settled)).trans hobject
  have hsize : limit ≤ e₁.objects.size :=
    Nat.le_trans hlimit (Nat.le_of_lt (Nat.lt_of_lt_of_le ho hmade.size_le))
  have hown : (e₁.object o).own? (.item items.length) = none := by
    rw [hsame, Object.own?_arrayWith_item, List.getElem?_eq_none (Nat.le_refl _)]
    rfl
  obtain ⟨e', hset, hadds⟩ := setProperty_runs (v := v) (Nat.lt_of_lt_of_le ho hmade.size_le)
    (hsame ▸ Object.arrayWith_takes items) hown (by rw [hsame]; exact h.letsBy hlimit hsize) hsize
  refine ⟨e', hset, hadds.keeps, (hmade.mono fun _ _ _ => trivial).trans hadds.keeps, ?_⟩
  rw [hadds.object_eq, hsame, Object.arrayWith_adding hlength]

end HostView.Script
