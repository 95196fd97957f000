import HostView.Exposure.Snapshot
import HostView.Proofs.Exposure.Decoding
import HostView.Proofs.Exposure.Naming
import HostView.Proofs.Number.Rational

/-! # Integers cross exactly

An integer of the host and the script value that it is taken from or shown as are one number. A script
number is taken only if it is an integer within the bounds, and for that integer; a big integer is taken
if it fits. What is shown is a number as long as every integer of the magnitude is a double, and
otherwise a big integer or its decimal text. Main statement: `integers_cross_exactly`.
-/

namespace HostView

/-- The integer that an atom is, if it is one. -/
def Atom.integer? : Atom → Option Int
  | .int i => some i.toInt
  | .count c => some c.toNat
  | _ => none

namespace Script

variable {α : Type} {call : Caller} {m m' : Machine} {v : Value} {x : Binary64} {a : α} {i low high : Int}
  {expected target : String} {fault : ConversionFault}

/-! ### Checks of the bounds -/

theorem wholeBetween_taken (hx : x.toRat? = some (i : ℚ)) (hlow : low ≤ i) (hhigh : i ≤ high) :
    wholeBetween expected target low high x = .ok i := by
  rw [wholeBetween, Binary64.toInt?_eq_some_iff_toRat?.mpr hx]
  exact if_pos ⟨hlow, hhigh⟩

theorem wholeBetween_invalid (hx : ∀ i : Int, x.toRat? ≠ some (i : ℚ)) :
    wholeBetween expected target low high x = .error (.invalid expected (Notation.host.render x)) := by
  rw [wholeBetween, Binary64.toInt?_eq_none_iff_toRat?.mpr hx]

theorem wholeBetween_outOfRange (hx : x.toRat? = some (i : ℚ)) (hout : ¬(low ≤ i ∧ i ≤ high)) :
    wholeBetween expected target low high x =
      .error (.outOfRange target (Notation.host.render x)) := by
  rw [wholeBetween, Binary64.toInt?_eq_some_iff_toRat?.mpr hx]
  exact if_neg hout

/-- Between the bounds of 64 bits with a sign, a big integer is checked as its decimal text is read. -/
theorem bigBetween_eq_int64? (i : Int) : bigBetween target (-2 ^ 63) (2 ^ 63 - 1) i =
    match Decimal.int64? (Decimal.ofInt i) with
    | some n => .ok n.toInt
    | none => .error (.outOfRange target (Decimal.ofInt i)) := by
  rw [bigBetween, Decimal.int64?, Decimal.signed?_ofInt]
  by_cases hi : -2 ^ 63 ≤ i ∧ i < 2 ^ 63
  · rw [if_pos ⟨hi.1, Int.le_sub_one_of_lt hi.2⟩]
    dsimp only
    rw [if_pos hi]
    exact congrArg Except.ok (Int64.toInt_ofInt_of_le hi.1 hi.2).symm
  · rw [if_neg fun h => hi ⟨h.1, Int.lt_of_le_sub_one h.2⟩]
    dsimp only
    rw [if_neg hi]

/-- Between the bounds of 64 bits without a sign, too. -/
theorem bigBetween_eq_uint64? (i : Int) : bigBetween target 0 (2 ^ 64 - 1) i =
    match Decimal.uint64? (Decimal.ofInt i) with
    | some n => .ok (n.toNat : Int)
    | none => .error (.outOfRange target (Decimal.ofInt i)) := by
  cases i with
  | ofNat n =>
      rw [bigBetween, Decimal.uint64?, Decimal.natural?, Decimal.ofInt, Decimal.ofNat,
        String.toList_ofList, Decimal.unsigned?_digits]
      simp only [Int.ofNat_eq_natCast]
      by_cases hn : n ≤ 2 ^ 64 - 1
      · have hlt : n < 2 ^ 64 := by omega
        rw [if_pos (by omega), if_pos hn]
        exact congrArg (fun n : Nat => Except.ok (n : Int)) (UInt64.toNat_ofNat_of_lt' hlt).symm
      · rw [if_neg (by omega), if_neg hn]
        rfl
  | negSucc n =>
      have hminus : Decimal.unsigned? ('-' :: Decimal.digits (n + 1)) = none := rfl
      rw [bigBetween, if_neg (by omega), Decimal.uint64?, Decimal.natural?, Decimal.ofInt,
        String.toList_ofList, hminus]
      rfl

/-! ### What is taken -/

/-- The decoding refuses the value: it throws a fault and leaves the machine as it was. -/
def Refuses (call : Caller) (m : Machine) (decode : Decoding α) (fault : ConversionFault) : Prop :=
  Throws call m (liftM decode : Conversion α) fault m

/-- A decoding takes script numbers for the integers that they are: between two bounds, exactly, and
refuses every other number. -/
structure TakesNumbers (decode : Value → Decoding α) (integer : α → Int) (low high : Int)
    (expected target : String) : Prop where
  taken (call : Caller) (m : Machine) {v : Value} {x : Binary64} {i : Int} (hv : v.number? = some x)
    (hx : x.toRat? = some (i : ℚ)) (hlow : low ≤ i) (hhigh : i ≤ high) :
    ∃ a, integer a = i ∧ Gives call m (decode v) a m
  taken_iff (call : Caller) (m m' : Machine) {v : Value} {x : Binary64} (hv : v.number? = some x)
    (a : α) : Gives call m (decode v) a m' ↔
      m' = m ∧ x.toRat? = some (integer a : ℚ) ∧ low ≤ integer a ∧ integer a ≤ high
  /-- An infinity, a NaN or a fraction is not what is expected. -/
  invalid (call : Caller) (m : Machine) {v : Value} {x : Binary64} (hv : v.number? = some x)
    (hx : ∀ i : Int, x.toRat? ≠ some (i : ℚ)) :
    Refuses call m (decode v) (.invalid expected (Notation.host.render x))
  outOfRange (call : Caller) (m : Machine) {v : Value} {x : Binary64} {i : Int}
    (hv : v.number? = some x) (hx : x.toRat? = some (i : ℚ)) (hout : ¬(low ≤ i ∧ i ≤ high)) :
    Refuses call m (decode v) (.outOfRange target (Notation.host.render x))

/-- A decoding takes the big integers between two bounds, exactly, and refuses every other one. -/
structure TakesBigIntegers (decode : Value → Decoding α) (integer : α → Int) (low high : Int)
    (target : String) : Prop where
  taken (call : Caller) (m : Machine) {i : Int} (hlow : low ≤ i) (hhigh : i ≤ high) :
    ∃ a, integer a = i ∧ Gives call m (decode (.bigInt i)) a m
  taken_iff (call : Caller) (m m' : Machine) (i : Int) (a : α) :
    Gives call m (decode (.bigInt i)) a m' ↔ m' = m ∧ integer a = i ∧ low ≤ i ∧ i ≤ high
  outOfRange (call : Caller) (m : Machine) {i : Int} (hout : ¬(low ≤ i ∧ i ≤ high)) :
    Refuses call m (decode (.bigInt i)) (.outOfRange target (Decimal.ofInt i))

/-- What is refused is not taken. -/
theorem Refuses.not_gives {decode : Decoding α} (h : Refuses call m decode fault) :
    ¬Gives call m decode a m' :=
  fun hgives => nomatch h.symm.trans hgives

section

variable {check : Except ConversionFault Int} {make : Int → α} {integer : α → Int}

/-- A checked integer is made into a value. -/
theorem checked_gives (call : Caller) (m : Machine) (hcheck : check = .ok i) :
    Gives call m (do return make (← liftM check) : Decoding α) (make i) m :=
  .bind (.except hcheck) .pure

theorem checked_refuses (call : Caller) (m : Machine) (hcheck : check = .error fault) :
    Refuses call m (do return make (← liftM check)) fault := by
  rw [hcheck]
  rfl

variable {decode : Value → Decoding α}

/-- A decoding takes numbers exactly if it makes a value of every integer between the bounds. -/
theorem TakesNumbers.of_wholeBetween (make : Int → α) (hinjective : Function.Injective integer)
    (hmake : ∀ i, low ≤ i → i ≤ high → integer (make i) = i)
    (hdecode : ∀ v x, v.number? = some x →
      decode v = do return make (← wholeBetween expected target low high x)) :
    TakesNumbers decode integer low high expected target := by
  have htaken : ∀ call m {v x} {i : Int}, v.number? = some x → x.toRat? = some (i : ℚ) → low ≤ i →
      i ≤ high → ∃ a, integer a = i ∧ Gives call m (decode v) a m := by
    intro call m v x i hv hx hlow hhigh
    rw [hdecode v x hv]
    exact ⟨_, hmake i hlow hhigh, checked_gives call m (wholeBetween_taken hx hlow hhigh)⟩
  have hinvalid : ∀ call m {v x}, v.number? = some x → (∀ i : Int, x.toRat? ≠ some (i : ℚ)) →
      Refuses call m (decode v) (.invalid expected (Notation.host.render x)) := by
    intro call m v x hv hx
    rw [hdecode v x hv]
    exact checked_refuses call m (wholeBetween_invalid hx)
  have houtOfRange : ∀ call m {v x} {i : Int}, v.number? = some x → x.toRat? = some (i : ℚ) →
      ¬(low ≤ i ∧ i ≤ high) →
      Refuses call m (decode v) (.outOfRange target (Notation.host.render x)) := by
    intro call m v x i hv hx hout
    rw [hdecode v x hv]
    exact checked_refuses call m (wholeBetween_outOfRange hx hout)
  refine ⟨htaken, fun call m m' {v x} hv a => ⟨fun hgives => ?_, ?_⟩, hinvalid, houtOfRange⟩
  · by_cases hwhole : ∃ i : Int, x.toRat? = some (i : ℚ)
    · obtain ⟨i, hx⟩ := hwhole
      by_cases hbounds : low ≤ i ∧ i ≤ high
      · obtain ⟨b, hb, hgives'⟩ := htaken call m hv hx hbounds.1 hbounds.2
        obtain ⟨rfl, rfl⟩ := Succeeds.unique hgives' hgives
        exact ⟨rfl, hb ▸ ⟨hx, hbounds⟩⟩
      · exact absurd hgives (houtOfRange call m hv hx hbounds).not_gives
    · exact absurd hgives (hinvalid call m hv fun i hi => hwhole ⟨i, hi⟩).not_gives
  · rintro ⟨rfl, hx, hlow, hhigh⟩
    obtain ⟨b, hb, hgives⟩ := htaken call m' hv hx hlow hhigh
    exact hinjective hb ▸ hgives

theorem TakesBigIntegers.of_bigBetween (make : Int → α) (hinjective : Function.Injective integer)
    (hmake : ∀ i, low ≤ i → i ≤ high → integer (make i) = i)
    (hdecode : ∀ i, decode (.bigInt i) = do return make (← bigBetween target low high i)) :
    TakesBigIntegers decode integer low high target := by
  have htaken : ∀ call m {i}, low ≤ i → i ≤ high →
      ∃ a, integer a = i ∧ Gives call m (decode (.bigInt i)) a m := by
    intro call m i hlow hhigh
    rw [hdecode]
    exact ⟨_, hmake i hlow hhigh, checked_gives call m (if_pos ⟨hlow, hhigh⟩)⟩
  have houtOfRange : ∀ call m {i}, ¬(low ≤ i ∧ i ≤ high) →
      Refuses call m (decode (.bigInt i)) (.outOfRange target (Decimal.ofInt i)) := by
    intro call m i hout
    rw [hdecode]
    exact checked_refuses call m (if_neg hout)
  refine ⟨htaken, fun call m m' i a => ⟨fun hgives => ?_, ?_⟩, houtOfRange⟩
  · by_cases hbounds : low ≤ i ∧ i ≤ high
    · obtain ⟨b, hb, hgives'⟩ := htaken call m hbounds.1 hbounds.2
      obtain ⟨rfl, rfl⟩ := Succeeds.unique hgives' hgives
      exact ⟨rfl, hb, hbounds⟩
    · exact absurd hgives (houtOfRange call m hbounds).not_gives
  · rintro ⟨rfl, hi, hlow, hhigh⟩
    obtain ⟨b, hb, hgives⟩ := htaken call m' hlow hhigh
    exact hinjective (hb.trans hi.symm) ▸ hgives

end

/-! ### Integers and counts -/

theorem intOf_number : TakesNumbers intOf Int64.toInt (-2 ^ 63) (2 ^ 63 - 1) "integer" "int" := by
  refine .of_wholeBetween Int64.ofInt (fun a b => Int64.toInt_inj.mp) ?_ ?_
  · exact fun i hlow hhigh => Int64.toInt_ofInt_of_le hlow (Int.lt_of_le_sub_one hhigh)
  · intro v x hv
    unfold intOf
    rw [hv]

theorem intOf_bigInt : TakesBigIntegers intOf Int64.toInt (-2 ^ 63) (2 ^ 63 - 1) "int" := by
  refine .of_bigBetween Int64.ofInt (fun a b => Int64.toInt_inj.mp) ?_ fun _ => rfl
  exact fun i hlow hhigh => Int64.toInt_ofInt_of_le hlow (Int.lt_of_le_sub_one hhigh)

/-- The integer that a count is. -/
def countInteger (c : UInt64) : Int := c.toNat

theorem countInteger_injective : Function.Injective countInteger :=
  fun _ _ h => UInt64.toNat_inj.mp (Int.natCast_inj.mp h)

theorem countInteger_ofNat (hlow : 0 ≤ i) (hhigh : i ≤ 2 ^ 64 - 1) :
    countInteger (.ofNat i.toNat) = i := by
  have hlt : i.toNat < 2 ^ 64 := by omega
  rw [countInteger, UInt64.toNat_ofNat_of_lt' hlt, Int.toNat_of_nonneg hlow]

theorem countOf_number :
    TakesNumbers countOf countInteger 0 (2 ^ 53 - 1) "non-negative integer" "count" := by
  refine .of_wholeBetween (fun i => .ofNat i.toNat) countInteger_injective ?_ ?_
  · exact fun i hlow hhigh => countInteger_ofNat hlow (by omega)
  · intro v x hv
    unfold countOf
    rw [hv]
    rfl

theorem countOf_bigInt : TakesBigIntegers countOf countInteger 0 (2 ^ 64 - 1) "count" :=
  .of_bigBetween (fun i => .ofNat i.toNat) countInteger_injective
    (fun _ hlow hhigh => countInteger_ofNat hlow hhigh) fun _ => rfl

/-! ### Numbers of ports -/

/-- The number of a port, from the property that gives it. -/
def portNumberOf (v : Value) : Decoding UInt16 :=
  match v.number? with
  | none => mismatch "port number" v
  | some x => return .ofNat (← wholeBetween "port number" "port" 0 65535 x).toNat

/-- A port is read from an object in two parts, of which the number is the first. -/
theorem portOf_object (o : ObjectId) : portOf (.object o) = do
    let o ← plainObject portForm (.object o)
    let number ← portNumberOf (← readProperty o (.name "port"))
    let protocol ← readProperty o (.name "proto")
    return ⟨number,
      ← literalOf "transport protocol" (fun s => (Protocol.parse s).toOption) protocol⟩ := by
  unfold portOf
  dsimp only
  refine congrArg _ (funext fun o => congrArg _ (funext fun n => ?_))
  unfold portNumberOf
  cases n.number? with
  | none => rfl
  | some x =>
      dsimp only
      cases wholeBetween "port number" "port" 0 65535 x with
      | error => rfl
      | ok => rfl

/-- The integer that the number of a port is. -/
def portInteger (n : UInt16) : Int := n.toNat

theorem portNumberOf_number :
    TakesNumbers portNumberOf portInteger 0 65535 "port number" "port" := by
  refine .of_wholeBetween (fun i => .ofNat i.toNat) ?_ ?_ ?_
  · exact fun _ _ h => UInt16.toNat_inj.mp (Int.natCast_inj.mp h)
  · intro i hlow hhigh
    have hlt : i.toNat < 2 ^ 16 := by omega
    rw [portInteger, UInt16.toNat_ofNat_of_lt' hlt, Int.toNat_of_nonneg hlow]
  · intro v x hv
    unfold portNumberOf
    rw [hv]

theorem portNumberOf_bigInt (call : Caller) (m : Machine) (i : Int) :
    Refuses call m (portNumberOf (.bigInt i)) (.mismatch "port number" "big_int") := rfl

/-! ### What is shown -/

/-- The integer that a script value denotes: it is a number, a big integer or its decimal text. -/
inductive Value.Denotes : Value → Int → Prop where
  | number {v : Value} {x : Binary64} {i : Int} (hv : v.number? = some x)
    (hx : x.toRat? = some (i : ℚ)) : Denotes v i
  | bigInt (i : Int) : Denotes (.bigInt i) i
  | text {s : String} {i : Int} (hs : Decimal.signed? s.toList = some i) : Denotes (.string (.text s)) i

/-- The action shows an integer: as a number, if every integer of the magnitude is a double, and
otherwise as the given value, which denotes it too. -/
def ShowsInteger (call : Caller) (m : Machine) (give : Action Value) (i : Int) (beyond : Value) :
    Prop :=
  ∃ v m', Succeeds call m give v m' ∧ v.Denotes i ∧
    (i.natAbs ≤ 2 ^ 53 - 1 → v.number?.isSome) ∧ (2 ^ 53 - 1 < i.natAbs → v = beyond)

theorem ShowsInteger.number {give : Action Value} {beyond : Value} (hi : i.natAbs ≤ 2 ^ 53 - 1)
    (hshow : Succeeds call m give (.ofInt i) m') : ShowsInteger call m give i beyond := by
  have hnumber := number?_ofInt i
  have hexact : (Binary64.ofInt i).toRat? = some (i : ℚ) :=
    Binary64.toInt?_eq_some_iff_toRat?.mp (Binary64.toInt?_ofInt (by omega))
  exact ⟨_, m', hshow, .number hnumber hexact, fun _ => by rw [hnumber]; rfl,
    fun hlarge => absurd hi (Nat.not_le.mpr hlarge)⟩

theorem ShowsInteger.beyond {give : Action Value} {beyond : Value} (hi : ¬i.natAbs ≤ 2 ^ 53 - 1)
    (hdenotes : beyond.Denotes i) (hshow : Succeeds call m give beyond m') :
    ShowsInteger call m give i beyond :=
  ⟨_, m', hshow, hdenotes, fun hsmall => absurd hsmall hi, fun _ => rfl⟩

theorem reach_atom {h : Heap} {r : Ref} {τ : AtomType} {b : Atom}
    (hcell : h.cell r = ⟨.atom τ, .atom b⟩) : h.reach r = h.cells.size + 1 := by
  rw [Heap.reach, Heap.typeOf, hcell, HostType.depth]

/-- On a machine where a value is an atom, the atom is shown. -/
theorem wrapValue_atom {mask : Mask} {r : Ref} {τ : AtomType} {b : Atom} {w : Value}
    (hcell : m.heap.cell r = ⟨.atom τ, .atom b⟩) (hshow : Succeeds call m (atomValue τ b) w m') :
    Succeeds call m (wrapValue mask r) w m' := by
  unfold wrapValue
  refine .get_bind ?_
  rw [reach_atom hcell, wrapWithin]
  refine .get_bind ?_
  rw [hcell]
  exact hshow

theorem wrapValue_int {mask : Mask} {r : Ref} {τ : AtomType} {n : Int64} (call : Caller)
    (hcell : m.heap.cell r = ⟨.atom τ, .atom (.int n)⟩) :
    ShowsInteger call m (wrapValue mask r) n.toInt (.bigInt n.toInt) := by
  have hshow : Succeeds call m (wrapValue mask r) (.ofHostInt n.toInt) m := wrapValue_atom hcell .pure
  unfold Value.ofHostInt safeLimit at hshow
  by_cases hn : n.toInt.natAbs ≤ 2 ^ 53 - 1
  · rw [if_pos hn] at hshow
    exact .number hn hshow
  · rw [if_neg hn] at hshow
    exact .beyond hn (.bigInt _) hshow

/-- A count is a big integer wherever it is shown, as long as the kept ones are those that they are kept
for. -/
theorem wrapValue_count {mask : Mask} {r : Ref} {τ : AtomType} {c : UInt64} (call : Caller)
    (hexact : m.integers.Exact) (hcell : m.heap.cell r = ⟨.atom τ, .atom (.count c)⟩) :
    ∃ m', Succeeds call m (wrapValue mask r) (.bigInt c.toNat) m' := by
  refine ⟨{ m with integers := (m.integers.get c).2 }, wrapValue_atom hcell ?_⟩
  rw [← (hexact.get c).1]
  exact .modifyGet _

/-- An integer in a snapshot, wherever it stands. -/
theorem build_integer (call : Caller) (m : Machine) (i : Int) :
    ShowsInteger call m (build (.ofInt i)) i (.string (Decimal.ofInt i)) := by
  unfold Plain.ofInt
  by_cases hi : i.natAbs ≤ 2 ^ 53 - 1
  · rw [if_pos hi]
    exact .number hi (.routine .pure)
  · rw [if_neg hi]
    exact .beyond hi (.text (Decimal.signed?_ofInt i)) (.routine .pure)

theorem ofAtom_integer {τ : AtomType} {b : Atom} (hb : b.integer? = some i) :
    Plain.ofAtom τ b = .ofInt i := by
  cases b <;> cases hb <;> rfl

/-- The snapshot of a value that is an atom is that of the atom. -/
theorem snapshotValue_atom {mask : Mask} {r : Ref} {τ : AtomType} {b : Atom} {beyond : Value}
    (hcell : m.heap.cell r = ⟨.atom τ, .atom b⟩)
    (hshow : ShowsInteger call m (build (.ofAtom τ b)) i beyond) :
    ShowsInteger call m (snapshotValue r mask) i beyond := by
  have himage : Image.of m.heap r = .atom τ b := by
    rw [Image.of, reach_atom hcell, Image.read, hcell]
  obtain ⟨v, m', hbuilt, hv⟩ := hshow
  refine ⟨v, m', ?_, hv⟩
  unfold snapshotValue
  refine .get_bind ?_
  rw [himage, Image.snapshot]
  exact hbuilt

/-! ### Both ways -/

/-- Integers are never rounded, wrapped or cut off. Inbound, numbers and big integers are taken for the
integers that they are and only within the bounds; the number of a port may not be a big integer.
Outbound, an integer is a number as long as its magnitude is below `2 ^ 53`, and otherwise a big integer,
which counts always are, or in a snapshot its decimal text. -/
theorem integers_cross_exactly (call : Caller) (hexact : m.integers.Exact) (mask : Mask) :
    (TakesNumbers intOf Int64.toInt (-2 ^ 63) (2 ^ 63 - 1) "integer" "int" ∧
      TakesBigIntegers intOf Int64.toInt (-2 ^ 63) (2 ^ 63 - 1) "int") ∧
    (TakesNumbers countOf countInteger 0 (2 ^ 53 - 1) "non-negative integer" "count" ∧
      TakesBigIntegers countOf countInteger 0 (2 ^ 64 - 1) "count") ∧
    (TakesNumbers portNumberOf portInteger 0 65535 "port number" "port" ∧
      (∀ call m i, Refuses call m (portNumberOf (.bigInt i)) (.mismatch "port number" "big_int")) ∧
      ∀ o, portOf (.object o) = do
        let o ← plainObject portForm (.object o)
        let number ← portNumberOf (← readProperty o (.name "port"))
        let protocol ← readProperty o (.name "proto")
        return ⟨number,
          ← literalOf "transport protocol" (fun s => (Protocol.parse s).toOption) protocol⟩) ∧
    (∀ r τ n, m.heap.cell r = ⟨.atom τ, .atom (.int n)⟩ →
      ShowsInteger call m (wrapValue mask r) n.toInt (.bigInt n.toInt)) ∧
    (∀ r τ c, m.heap.cell r = ⟨.atom τ, .atom (.count c)⟩ →
      ∃ m', Succeeds call m (wrapValue mask r) (.bigInt c.toNat) m') ∧
    (∀ r τ b i, m.heap.cell r = ⟨.atom τ, .atom b⟩ → b.integer? = some i →
      ShowsInteger call m (snapshotValue r mask) i (.string (Decimal.ofInt i))) ∧
    ∀ m τ b i, b.integer? = some i →
      ShowsInteger call m (build (.ofAtom τ b)) i (.string (Decimal.ofInt i)) := by
  have hbuild : ∀ m τ b i, b.integer? = some i →
      ShowsInteger call m (build (.ofAtom τ b)) i (.string (Decimal.ofInt i)) := by
    intro m τ b i hb
    rw [ofAtom_integer hb]
    exact build_integer call m i
  refine ⟨⟨intOf_number, intOf_bigInt⟩, ⟨countOf_number, countOf_bigInt⟩,
    ⟨portNumberOf_number, portNumberOf_bigInt, portOf_object⟩, ?_, ?_, ?_, hbuild⟩
  · exact fun r τ n hcell => wrapValue_int call hcell
  · exact fun r τ c hcell => wrapValue_count call hexact hcell
  · exact fun r τ b i hcell hb => snapshotValue_atom hcell (hbuild m τ b i hb)

/-- The least integer is taken from the double that it is; the greatest count is shown as a big integer. -/
theorem integers_cross_exactly_extremes :
    let m : Machine := ⟨⟨#[], 0, []⟩, .start ⟨#[⟨.atom .count, .atom (.count (-1))⟩]⟩⟩
    m.integers.Exact ∧
      (∃ n : Int64, n.toInt = -2 ^ 63 ∧
        Gives (invoke 1) m (intOf (.float ⟨0xC3E0000000000000⟩)) n m) ∧
      ∃ m', Succeeds (invoke 1) m (wrapValue .all 0) (.bigInt (2 ^ 64 - 1)) m' := by
  intro m
  have hexact : m.integers.Exact := IntegerCache.exact_empty
  have hleast : (⟨0xC3E0000000000000⟩ : Binary64).toInt? = some (-2 ^ 63) := by decide
  obtain ⟨⟨hint, -⟩, -, -, -, hcount, -⟩ := integers_cross_exactly (invoke 1) hexact .all
  refine ⟨hexact, ?_, hcount 0 .count (-1) rfl⟩
  exact hint.taken (invoke 1) m rfl (Binary64.toInt?_eq_some_iff_toRat?.mp hleast) (by decide)
    (by decide)

end Script

end HostView
