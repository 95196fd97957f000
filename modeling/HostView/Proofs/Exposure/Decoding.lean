import HostView.Proofs.Exposure.Exposing
import HostView.Proofs.Number.Binary64

/-! # Shown atoms read back

What an atom or a real is shown as is decoded to the same atom or real, whichever way numbers are
kept. Two things cannot be told apart by what is shown of them: the two zeros, and variants of one
enumeration that have the same name.
-/

namespace HostView

/-- Doubles that are the same but for the sign of zero. -/
def Binary64.Alike (x y : Binary64) : Prop := x = y ∨ x.isZero ∧ y.isZero

/-- Atoms of a type that are the same, or variants of the same name. -/
def AtomType.Alike : AtomType → Atom → Atom → Prop
  | .enum e, .enum i, .enum j => e.variant? i = e.variant? j
  | _, a, b => a = b

/-- The name of a variant leads to a variant of that name. -/
theorem Enumeration.index?_of_variant? {e : Enumeration} {i : Nat} {name : String}
    (hname : e.variant? i = some name) : ∃ j, e.index? name = some j ∧ e.variant? j = some name := by
  have hmem : name ∈ e.variants := List.mem_of_getElem? hname
  have hfound := List.findIdx?_eq_some_of_exists (p := (· = name)) ⟨name, hmem, by simp⟩
  obtain ⟨hlt, hvariant, -⟩ := List.findIdx?_eq_some_iff_getElem.mp hfound
  refine ⟨_, hfound, ?_⟩
  rw [variant?, List.getElem?_eq_getElem hlt]
  exact congrArg some (of_decide_eq_true hvariant)

namespace Script

variable {call : Caller} {m : Machine} {o : ObjectId} {v : Value} {i low high : Int}
  {expected target : String}

/-! ### Numbers -/

/-- A whole number of the engine is the double that is made of it. -/
theorem number?_ofInt (i : Int) : (Value.ofInt i).number? = some (.ofInt i) := by
  unfold Value.ofInt
  split
  next hsmall =>
    rw [Value.number?, Int32.toInt_ofInt_of_le hsmall.1 hsmall.2]
  next => rfl

/-- A length of 32 bits is read back as such. -/
theorem toWord_ofInt {n : Nat} (hn : n < 2 ^ 32) : (Value.ofInt n).toWord = n := by
  have hinteger : (Binary64.ofInt n).toInt? = some (n : Int) := Binary64.toInt?_ofInt (by omega)
  obtain ⟨hmagnitude, hpositive, -⟩ := Binary64.toInt?_eq_some_iff.mp hinteger
  obtain ⟨hfinite, hwhole⟩ := Binary64.wholePart_of_magnitude? hmagnitude
  rw [Value.toWord, number?_ofInt]
  dsimp only
  rw [if_pos hfinite, hwhole, Int.natAbs_natCast]
  split
  next hnegative =>
    have hzero : n = 0 := by
      by_contra hne
      rw [hpositive (by omega)] at hnegative
      cases hnegative
    rw [hzero]
    rfl
  next => omega

/-- A real is read back from what it is shown as, but for the sign of zero. -/
theorem number?_ofReal (x : Binary64) : ∃ y, (Value.ofReal x).number? = some y ∧ x.Alike y := by
  unfold Value.ofReal
  split
  next i hi =>
    split
    next hsmall =>
      refine ⟨.ofInt i, ?_, ?_⟩
      · rw [Value.number?, Int32.toInt_ofInt_of_le hsmall.1 hsmall.2]
      · rcases Binary64.ofInt_of_toInt? (by omega) hi with hsame | ⟨hzero, hzero'⟩
        · exact .inl hsame.symm
        · exact .inr ⟨hzero', hzero⟩
    next => exact ⟨x, rfl, .inl rfl⟩
  next => exact ⟨x, rfl, .inl rfl⟩

theorem wholeBetween_ofInt (hi : i.natAbs < 2 ^ 53) (hlow : low ≤ i) (hhigh : i ≤ high) :
    wholeBetween expected target low high (.ofInt i) = .ok i := by
  rw [wholeBetween, Binary64.toInt?_ofInt hi]
  exact if_pos ⟨hlow, hhigh⟩

/-- An integer is read back, also where it is too large for a double. -/
theorem intOf_gives (i : Int64) : Gives call m (intOf (.ofHostInt i.toInt)) i m := by
  have hlow := i.le_toInt
  have hhigh := i.toInt_lt
  unfold Value.ofHostInt
  split
  next hsafe =>
    have hwhole : wholeBetween "integer" "int" (-2 ^ 63) (2 ^ 63 - 1) (.ofInt i.toInt) =
        .ok i.toInt := by
      refine wholeBetween_ofInt ?_ hlow (by omega)
      unfold safeLimit at hsafe
      omega
    unfold intOf
    rw [number?_ofInt]
    refine .bind (.except hwhole) ?_
    rw [Int64.ofInt_toInt]
    exact .pure
  next =>
    have hbig : bigBetween "int" (-2 ^ 63) (2 ^ 63 - 1) i.toInt = .ok i.toInt :=
      if_pos ⟨hlow, by omega⟩
    refine .bind (.except hbig) ?_
    rw [Int64.ofInt_toInt]
    exact .pure

theorem countOf_gives (c : UInt64) : Gives call m (countOf (.bigInt c.toNat)) c m := by
  have hlt := c.toNat_lt
  have hbig : bigBetween "count" 0 (2 ^ 64 - 1) c.toNat = .ok (c.toNat : Int) :=
    if_pos ⟨by omega, by omega⟩
  refine .bind (.except hbig) ?_
  rw [Int.toNat_natCast, UInt64.ofNat_toNat]
  exact .pure

/-! ### Texts -/

theorem literalOf_gives {α : Type} {read? : String → Option α} {s : String} {a : α}
    (h : read? s = some a) : Gives call m (literalOf expected read? (.string s)) a m := by
  refine .bind (Gives.pure (v := s)) ?_
  rw [h]
  exact .pure

/-! ### Ports -/

theorem plainObject_gives {members : List (String × Value)}
    (hobject : m.object o = .plainWith members) :
    Gives call m (plainObject expected (.object o)) o m := by
  have hbehind := behindProxies_eq (e := m.toEngine) (o := o) (by rw [hobject]; rfl)
  have harray : m.isArray o = false := by
    rw [Engine.isArray, hbehind, hobject]
    rfl
  have hfunction : m.callable? o = none := by
    rw [Engine.callable?, hbehind, hobject]
    rfl
  refine .bind .get ?_
  dsimp only
  rw [harray, hfunction]
  exact .pure

/-- A property that an object has itself is read as it is. -/
theorem readProperty_gives {k : Key} {writable enumerable configurable : Bool}
    (hproxy : (m.object o).isProxy = false)
    (hown : (m.object o).own? k = some (.data v writable enumerable configurable))
    (hv : v.Settled m.toEngine) : Gives call m (readProperty o k) v m :=
  .bind (.attempt (getProperty_own hproxy hown hv)) .pure

theorem readMember_gives {members : List (String × Value)} {name : String}
    (hobject : m.object o = .plainWith members) (hmember : members.lookup name = some v)
    (hv : v.Settled m.toEngine) : Gives call m (readProperty o (.name name)) v m := by
  have hown : (m.object o).own? (.name name) = some (.plain v) := by
    rw [hobject, Object.own?_plainWith, hmember]
    rfl
  exact readProperty_gives (by rw [hobject]; rfl) hown hv

/-- A port is read back from the object that it is shown as. -/
theorem portOf_gives {p : Port} (hobject : m.object o = .plainWith
    [("port", .ofInt p.number.toNat), ("proto", .string p.protocol.render)]) :
    Gives call m (portOf (.object o)) p m := by
  have hlt := p.number.toNat_lt
  have hnumber : wholeBetween "port number" "port" 0 65535 (.ofInt p.number.toNat) =
      .ok (p.number.toNat : Int) := wholeBetween_ofInt (by omega) (by omega) (by omega)
  have hprotocol : (Protocol.parse p.protocol.render).toOption = some p.protocol := by
    rw [Protocol.parse_render]
    rfl
  refine .bind (plainObject_gives hobject) ?_
  refine .bind (readMember_gives hobject rfl (.of_object? (object?_ofInt _))) ?_
  rw [number?_ofInt]
  refine .bind (.except hnumber) ?_
  refine .bind (readMember_gives hobject rfl (.of_object? rfl)) ?_
  refine .bind (literalOf_gives hprotocol) ?_
  rw [Int.toNat_natCast, UInt16.ofNat_toNat]
  exact .pure

/-! ### Arrays -/

section

variable {items : List Value}

theorem isProxy_arrayWith (hobject : m.object o = .arrayWith items) :
    (m.object o).isProxy = false := by
  rw [hobject]
  rfl

theorem arrayOf_gives (hobject : m.object o = .arrayWith items) :
    Gives call m (arrayOf (.object o)) o m := by
  have harray : m.isArray o = true := by
    rw [Engine.isArray, behindProxies_eq (isProxy_arrayWith hobject), hobject]
    rfl
  refine .bind .get ?_
  dsimp only
  rw [harray]
  exact .pure

/-- The length of an array is an integer of the engine if it has 32 bits. -/
theorem readLength_gives (hobject : m.object o = .arrayWith items)
    (hlength : items.length < 2 ^ 31) :
    Gives call m (readProperty o (.name "length")) (.int (.ofNat items.length)) m := by
  have hvalue : Value.ofInt items.length = .int (.ofNat items.length) :=
    if_pos ⟨by omega, by omega⟩
  have hown : (m.object o).own? (.name "length") =
      some (.data (.int (.ofNat items.length)) true false false) := by
    rw [hobject, ← hvalue]
    exact Object.own?_arrayWith_length items
  exact readProperty_gives (isProxy_arrayWith hobject) hown nofun

/-- The length of a longer array is kept as a double, and none of its items is converted. -/
theorem forItems_long {convert : Nat → Value → Conversion Unit} (hobject : m.object o = .arrayWith items)
    (hlength : 2 ^ 31 ≤ items.length) : Succeeds call m (forItems o convert) () m := by
  have hvalue : Value.ofInt items.length = .float (.ofInt items.length) := if_neg (by omega)
  have hown : (m.object o).own? (.name "length") =
      some (.data (.float (.ofInt items.length)) true false false) := by
    rw [hobject, ← hvalue]
    exact Object.own?_arrayWith_length items
  unfold forItems
  exact .bind (.routine (readProperty_gives (isProxy_arrayWith hobject) hown nofun)) .pure

theorem readItem_gives {i : Nat} (hobject : m.object o = .arrayWith items)
    (hitem : items[i]? = some v) (hv : v.Settled m.toEngine) :
    Gives call m (readProperty o (.item i)) v m := by
  have hown : (m.object o).own? (.item i) = some (.plain v) := by
    rw [hobject, Object.own?_arrayWith_item, hitem]
    rfl
  exact readProperty_gives (isProxy_arrayWith hobject) hown hv

/-- The items of an array are converted one after the other, each over the heap that the one before
it left. -/
theorem forItems_gives {convert : Nat → Value → Conversion Unit} (P : Nat → Heap → Prop)
    (hobject : m.object o = .arrayWith items) (hlength : items.length < 2 ^ 31)
    (hsettled : ∀ v ∈ items, v.Settled m.toEngine) (hstart : P 0 m.heap)
    (hround : ∀ (i : Nat) (v : Value), items[i]? = some v → ∀ g, P i g →
      ∃ g', Succeeds call { m with heap := g } (convert i v) () { m with heap := g' } ∧
        P (i + 1) g') :
    ∃ g, Succeeds call m (forItems o convert) () { m with heap := g } ∧ P items.length g := by
  let round : Nat → Conversion Unit := fun index => do
    convert index (← readProperty o (.name (Decimal.ofNat index)))
  have hrounds : ∀ i < items.length, ∀ m', (∃ g, m' = { m with heap := g } ∧ P i g) →
      ∃ m'', Succeeds call m' (round i) () m'' ∧ ∃ g, m'' = { m with heap := g } ∧ P (i + 1) g := by
    rintro i hi _ ⟨g, rfl, hg⟩
    have hitem := List.getElem?_eq_getElem hi
    obtain ⟨g', hconvert, hg'⟩ := hround i _ hitem g hg
    have hread : Gives call { m with heap := g } (readProperty o (.item i)) items[i]
        { m with heap := g } :=
      readItem_gives hobject hitem (hsettled _ (List.getElem_mem hi))
    exact ⟨_, .bind (.routine hread) hconvert, g', rfl, hg'⟩
  obtain ⟨m', hloop, g, rfl, hg⟩ := Succeeds.range_forM _ ⟨m.heap, rfl, hstart⟩ hrounds
  refine ⟨g, ?_, hg⟩
  unfold forItems
  refine .bind (.routine (readLength_gives hobject hlength)) ?_
  dsimp only
  rw [Int32.toNatClampNeg_ofNat_of_lt hlength]
  exact hloop

end

/-! ### Atoms -/

/-- An atom is read back from the primitive value that it is shown as. -/
theorem atomOf_shown {τ : AtomType} {a : Atom} (hadmits : τ.admits a = true)
    (hsubnet : ∀ s, a = .subnet s → s.Made) (hv : shownAs? τ a = some v) :
    ∃ b, Gives call m (atomOf τ v) b m ∧ τ.admits b = true ∧ τ.Alike a b := by
  have hkind := hadmits
  cases τ <;> cases a <;> simp only [AtomType.admits, Bool.false_eq_true] at hkind <;> cases hv
  case bool.bool b => exact ⟨.bool b, .pure, rfl, rfl⟩
  case int.int i => exact ⟨.int i, .bind (intOf_gives i) .pure, rfl, rfl⟩
  case count.count c => exact ⟨.count c, .bind (countOf_gives c) .pure, rfl, rfl⟩
  case string.string s => exact ⟨.string s, .bind (Gives.pure (v := s)) .pure, rfl, rfl⟩
  case addr.addr a =>
    exact ⟨.addr a, .bind (literalOf_gives (Address.parse?_render a)) .pure, rfl, rfl⟩
  case enum.enum e index =>
    obtain ⟨name, hvariant⟩ : ∃ name, e.variant? index = some name :=
      ⟨_, List.getElem?_eq_getElem (of_decide_eq_true hkind)⟩
    obtain ⟨j, hj, hname⟩ := Enumeration.index?_of_variant? hvariant
    have hread : e.index? ((Atom.enum index).render (.enum e)) = some j := by
      simpa only [Atom.render, Atom.renderOr, hvariant, Option.getD_some] using hj
    refine ⟨.enum j, .bind (literalOf_gives hread) .pure, ?_, hvariant.trans hname.symm⟩
    exact decide_eq_true (List.getElem?_eq_some_iff.mp hname).1
  case subnet.subnet s =>
    have hread : (Subnet.parse s.render).toOption = some s := by
      rw [(hsubnet s rfl).parse_render]
      rfl
    exact ⟨.subnet s, .bind (literalOf_gives hread) .pure, rfl, rfl⟩

end Script

end HostView
