import HostView.Proofs.Exposure.Composites
import HostView.Proofs.Exposure.TableWrites

/-! # The way to a fault

The frames around the fault of a conversion lead to the first piece of the value that does not convert.
They are followed through the value and the type: every piece before it was converted, and its own
conversion throws the innermost fault. Main statement: `fault_leads_to_piece`.
-/

namespace HostView.Script

/-! ### Places in a value -/

/-- The conversion to a record has come to a field: all fields that are declared before it were dealt
with. -/
inductive AtField (call : Caller) (m : Machine) (descriptor : Nat) (record : String)
    (fields : List (Field HostType)) (v : Value) (o : ObjectId) (x : Field HostType × Nat)
    (m' : Machine) : Prop where
  | intro {m₁ : Machine} (hbegins : Begins call m (.record descriptor record fields) v o m₁)
      (hdone : UpTo (FieldConverts call o m₁.heap.cells.size) fields.zipIdx x
        (m₁.opened (.record descriptor record fields)) m')

/-- The conversion to a table has come to a name: all names that are listed before it were dealt with. -/
inductive AtEntry (call : Caller) (m : Machine) (key : AtomType) (yield : HostType) (v : Value)
    (o : ObjectId) (name : ScriptString) (m' : Machine) : Prop where
  | intro {m₁ m₂ : Machine} {names : List ScriptString}
      (hbegins : Begins call m (.table key (some yield)) v o m₁)
      (hnames : Gives call (m₁.opened (.table key (some yield))) (enumerableNames o) names m₂)
      (hdone : UpTo (EntryConverts call key yield o m₁.heap.cells.size) names name m₂ m')

/-- A type whose values are made of the items of an array, each converted as a piece and stored in the
host value. -/
inductive Row : HostType → (Value → Piece) → (Ref → Ref → Heap → Except HostFault Heap) → Prop where
  | set (key : AtomType) : Row (.table key none) (.member key) fun r s h => h.tableAssign r s none
  | vector (element : HostType) : Row (.vector element) (.value element) fun r s h => h.vectorPush r s

/-- The conversion to a set or vector has come to an item: all items before it were dealt with. An array has
the items below its length, which the engine keeps as an integer. -/
inductive AtItem (call : Caller) (m : Machine) (type : HostType) (piece : Value → Piece)
    (store : Ref → Ref → Heap → Except HostFault Heap) (v : Value) (o : ObjectId) (index : Nat)
    (m' : Machine) : Prop where
  | intro {m₁ m₂ : Machine} {length : Int32} (hbegins : Begins call m type v o m₁)
      (hlength : Gives call (m₁.opened type) (readProperty o (.name "length")) (.int length) m₂)
      (hdone : UpTo (ItemConverts call piece (store m₁.heap.cells.size) o)
        (List.range length.toNatClampNeg) index m₂ m')

/-- A conversion comes to a piece of what it converts. -/
inductive Reaches (call : Caller) (m : Machine) : Piece → Frame → Machine → Piece → Prop where
  | field {descriptor i : Nat} {record : String} {fields : List (Field HostType)} {f : Field HostType}
      {v item : Value} {o : ObjectId} {m₁ m₂ : Machine}
      (hat : AtField call m descriptor record fields v o (f, i) m₁)
      (hread : Gives call m₁ (readProperty o (.name f.name)) item m₂) (hpresent : item.isPresent = true) :
      Reaches call m (.value (.record descriptor record fields) v) (.field f.name) m₂ (.value f.type item)
  | name {key : AtomType} {yield : HostType} {v : Value} {o : ObjectId} {name : String} {m₁ : Machine}
      (hat : AtEntry call m key yield v o (.text name) m₁) :
      Reaches call m (.value (.table key (some yield)) v) (.key name) m₁ (.name key name)
  | entry {key : AtomType} {yield : HostType} {v item : Value} {o : ObjectId} {name : String} {k : Ref}
      {m₁ m₂ m₃ : Machine} (hat : AtEntry call m key yield v o (.text name) m₁)
      (hname : Succeeds call m₁ (Piece.name key name).convert k m₂)
      (hread : Gives call m₂ (readProperty o (.name name)) item m₃) :
      Reaches call m (.value (.table key (some yield)) v) (.key name) m₃ (.value yield item)
  | item {type : HostType} {piece : Value → Piece} {store : Ref → Ref → Heap → Except HostFault Heap}
      {v item : Value} {o : ObjectId} {index : Nat} {m₁ m₂ : Machine} (hrow : Row type piece store)
      (hat : AtItem call m type piece store v o index m₁)
      (hread : Gives call m₁ (readProperty o (.name (Decimal.ofNat index))) item m₂) :
      Reaches call m (.value type v) (.element index) m₂ (piece item)

/-- Frames are followed from a piece to a piece of it. -/
inductive Locates (call : Caller) : Machine → Piece → List Frame → Machine → Piece → Prop where
  | here {m : Machine} {p : Piece} : Locates call m p [] m p
  | step {m m₁ m₂ : Machine} {p q q' : Piece} {frame : Frame} {path : List Frame}
      (hreaches : Reaches call m p frame m₁ q) (hrest : Locates call m₁ q path m₂ q') :
      Locates call m p (frame :: path) m₂ q'

/-! ### Pieces at fault -/

/-- A key or a property of a value cannot be read, on which its conversion depends. -/
inductive Unread (call : Caller) (m : Machine) : HostType → Value → EngineCause → Prop where
  | field {descriptor i : Nat} {record : String} {fields : List (Field HostType)} {f : Field HostType}
      {v : Value} {o : ObjectId} {m₁ m₂ : Machine}
      (hat : AtField call m descriptor record fields v o (f, i) m₁)
      (hunread : Throws call m₁ (liftM (readProperty o (.name f.name)) : Conversion Value)
        (.engine .exception) m₂) : Unread call m (.record descriptor record fields) v .exception
  | names {key : AtomType} {yield : HostType} {v : Value} {o : ObjectId} {thrown : Thrown}
      {m₁ m₂ : Machine} (hbegins : Begins call m (.table key (some yield)) v o m₁)
      (hunread : Throws call (m₁.opened (.table key (some yield)))
        (liftM (enumerableNames o) : Action (List ScriptString)) thrown m₂) :
      Unread call m (.table key (some yield)) v .exception
  | name {key : AtomType} {yield : HostType} {v : Value} {o : ObjectId} {u : LoneSurrogate} {m₁ : Machine}
      (hat : AtEntry call m key yield v o (.illFormed u) m₁) :
      Unread call m (.table key (some yield)) v (.illFormed u.index)
  | entry {key : AtomType} {yield : HostType} {v : Value} {o : ObjectId} {name : String} {k : Ref}
      {m₁ m₂ m₃ : Machine} (hat : AtEntry call m key yield v o (.text name) m₁)
      (hname : Succeeds call m₁ (Piece.name key name).convert k m₂)
      (hunread : Throws call m₂ (liftM (readProperty o (.name name)) : Conversion Value)
        (.engine .exception) m₃) : Unread call m (.table key (some yield)) v .exception
  | length {type : HostType} {piece : Value → Piece} {store : Ref → Ref → Heap → Except HostFault Heap}
      {v : Value} {o : ObjectId} {m₁ m₂ : Machine} (hrow : Row type piece store)
      (hbegins : Begins call m type v o m₁)
      (hunread : Throws call (m₁.opened type) (liftM (readProperty o (.name "length")) : Conversion Value)
        (.engine .exception) m₂) : Unread call m type v .exception
  | item {type : HostType} {piece : Value → Piece} {store : Ref → Ref → Heap → Except HostFault Heap}
      {v : Value} {o : ObjectId} {index : Nat} {m₁ m₂ : Machine} (hrow : Row type piece store)
      (hat : AtItem call m type piece store v o index m₁)
      (hunread : Throws call m₁ (liftM (readProperty o (.name (Decimal.ofNat index))) : Conversion Value)
        (.engine .exception) m₂) : Unread call m type v .exception

/-- A piece is at fault itself. -/
inductive Piece.AtFault (call : Caller) (m : Machine) : Piece → ConversionFault → Prop where
  /-- It has no pieces. -/
  | simple {p : Piece} {fault : ConversionFault} (hsimple : p.isSimple = true) (hfault : fault.Simple) :
      AtFault call m p fault
  /-- It is no object of the kind that has the pieces. -/
  | unlike {type : HostType} {v : Value} {m₁ : Machine} (hparts : (Piece.value type v).isSimple = false)
      (hunheld : Succeeds call m (heldOf? type v) none m₁) (hnone : m₁.body? type v = none) :
      AtFault call m (.value type v) (.mismatch type.bodyForm (m₁.typeName v))
  /-- The first field that cannot be dealt with is required, and reads null or undefined. -/
  | missing {descriptor i : Nat} {record : String} {fields : List (Field HostType)} {f : Field HostType}
      {v item : Value} {o : ObjectId} {m₁ m₂ : Machine}
      (hat : AtField call m descriptor record fields v o (f, i) m₁)
      (hread : Gives call m₁ (readProperty o (.name f.name)) item m₂) (habsent : item.isPresent = false)
      (hrequired : f.attributes.isOptional = false) :
      AtFault call m (.value (.record descriptor record fields) v) (.missingField record f.name)
  /-- A key or a property of it cannot be read. -/
  | unread {type : HostType} {v : Value} {cause : EngineCause} (hunread : Unread call m type v cause) :
      AtFault call m (.value type v) (.engine cause)

variable {call : Caller} {m m₁ m' : Machine} {type yield : HostType} {v : Value} {o : ObjectId}
  {fault cause : ConversionFault} {key : AtomType} {descriptor : Nat} {record : String}
  {fields : List (Field HostType)} {x : Field HostType × Nat} {r : Ref} {name : ScriptString} {index : Nat}
  {piece : Value → Piece} {store : Ref → Ref → Heap → Except HostFault Heap} {p q : Piece} {frame : Frame}
  {path : List Frame}

theorem Piece.AtFault.path_eq_nil (h : p.AtFault call m fault) : fault.path = [] := by
  cases h with
  | simple _ hfault => exact hfault.path_eq_nil
  | unlike | missing | unread => rfl

/-! ### One step -/

/-- Where a fault comes from: from the piece itself, from the host, or from a piece of the piece. -/
inductive Piece.Blames (call : Caller) (m : Machine) (p : Piece) (m' : Machine) : ConversionFault → Prop where
  | itself {fault : ConversionFault} (hfault : p.AtFault call m fault) : p.Blames call m m' fault
  | host (cause : HostFault) : p.Blames call m m' (.host cause)
  | within {m₁ : Machine} {q : Piece} {frame : Frame} {cause : ConversionFault}
      (hreaches : Reaches call m p frame m₁ q) (hthrows : Throws call m₁ q.convert cause m') :
      p.Blames call m m' (frame.around cause)

/-- The last steps of every round: a piece is converted, and the result is stored. -/
theorem Reaches.blames (hreaches : Reaches call m p frame m₁ q)
    {change : Ref → Heap → Except HostFault Heap}
    (h : Throws call m₁ (do let s ← inPart frame.around q.convert; complete (change s)) fault m') :
    p.Blames call m m' fault := by
  obtain h | ⟨s, m₂, -, h⟩ := throws_bind_iff.mp h
  · obtain ⟨cause, rfl, hconvert⟩ := throws_adapt_iff.mp h
    exact .within hreaches hconvert
  · obtain ⟨cause, -, rfl, -⟩ := throws_complete_iff.mp h
    exact .host cause

theorem AtField.blames (hat : AtField call m descriptor record fields v o x m₁)
    (h : Throws call m₁ (fieldRound o record r x) fault m') :
    (Piece.value (.record descriptor record fields) v).Blames call m m' fault := by
  cases throws_fieldRound_iff.mp h with
  | unread hunread =>
      obtain rfl := throws_readProperty hunread
      exact .itself (.unread (.field hat hunread))
  | missing hread habsent hrequired => exact .itself (.missing hat hread habsent hrequired)
  | within hread hpresent hthrows => exact .within (Reaches.field hat hread hpresent) hthrows
  | refused => exact .host _

theorem AtEntry.blames {name : String} (hat : AtEntry call m key yield v o (.text name) m₁)
    (h : Throws call m₁ (convertEntry o r key yield name) fault m') :
    (Piece.value (.table key (some yield)) v).Blames call m m' fault := by
  obtain h | ⟨a, m₂, hname, h⟩ := throws_bind_iff.mp h
  · obtain ⟨cause, rfl, hname⟩ := throws_adapt_iff.mp h
    exact .within (.name hat) (.bind hname)
  obtain hnew | ⟨k, m₃, hnew, h⟩ := throws_bind_iff.mp h
  · obtain ⟨hadmits, -⟩ := succeeds_except_iff.mp (succeeds_adapt_iff.mp hname)
    exact absurd hnew (not_throws_newAtom (AtomType.admits_of_keyOfName hadmits))
  have hkey : Succeeds call m₁ (Piece.name key name).convert k m₃ := (succeeds_adapt_iff.mp hname).bind hnew
  obtain hunread | ⟨item, m₄, hread, h⟩ := throws_bind_iff.mp h
  · obtain rfl := throws_readProperty hunread
    exact .itself (.unread (.entry hat hkey hunread))
  · exact (Reaches.entry hat hkey hread).blames h

theorem AtItem.blames (hrow : Row type piece store) (hat : AtItem call m type piece store v o index m₁)
    (h : Throws call m₁ (itemRound o (convertItem piece (store r)) index) fault m') :
    (Piece.value type v).Blames call m m' fault := by
  obtain hunread | ⟨item, m₂, hread, h⟩ := throws_bind_iff.mp h
  · obtain rfl := throws_readProperty hunread
    exact .itself (.unread (.item hrow hat hunread))
  · exact (Reaches.item hrow hat hread).blames h

section

variable (hbegins : Begins call m type v o m₁)

include hbegins

theorem Begins.blames_row (hrow : Row type piece store)
    (h : Throws call (m₁.opened type) (forItems o (convertItem piece (store m₁.heap.cells.size))) fault m') :
    (Piece.value type v).Blames call m m' fault := by
  obtain hunread | ⟨length, m₂, index, m₃, hlength, hdone, hround⟩ :=
    (throws_forItems_iff succeeds_itemRound_iff).mp h
  · obtain rfl := throws_readProperty hunread
    exact .itself (.unread (.length hrow hbegins hunread))
  · exact AtItem.blames hrow (.intro hbegins hlength hdone) hround

/-- While a host value is filled, the first round that does not succeed tells where the fault is. -/
theorem Begins.blames (h : Throws call (m₁.opened type) (fill type o m₁.heap.cells.size) fault m') :
    (Piece.value type v).Blames call m m' fault := by
  cases type with
  | atom | real => exact absurd h Succeeds.pure.not_throws
  | record descriptor record fields =>
      obtain ⟨x, m₂, hdone, hround⟩ := (throws_forM_iff succeeds_fieldRound_iff).mp h
      exact AtField.blames (.intro hbegins hdone) hround
  | vector element => exact hbegins.blames_row (.vector element) h
  | table key yield =>
      cases yield with
      | none => exact hbegins.blames_row (.set key) h
      | some yield =>
          obtain ⟨rfl, thrown, hunread⟩ | ⟨names, m₂, name, m₃, hnames, hdone, hround⟩ :=
            (throws_forNames_iff succeeds_convertEntry_iff nofun).mp h
          · exact .itself (.unread (.names hbegins hunread))
          · cases name with
            | text name => exact AtEntry.blames (.intro hbegins hnames hdone) hround
            | illFormed u =>
                cases hround
                exact .itself (.unread (.name (.intro hbegins hnames hdone)))

end

theorem exists_unheld (hparts : (Piece.value type v).isSimple = false)
    (h : Throws call m (toHost type v) fault m') : ∃ m₁, Succeeds call m (heldOf? type v) none m₁ := by
  obtain ⟨convert, hconvert, -⟩ := exists_makes call hparts
  rw [hconvert] at h
  obtain ⟨m₁, hunheld, -⟩ := throws_heldOr_iff.mp h
  exact ⟨m₁, hunheld⟩

/-- Whatever the conversion of a piece throws comes from the piece itself, from the host or from one of its
own pieces. -/
theorem Piece.blames (h : Throws call m p.convert fault m') : p.Blames call m m' fault := by
  cases hparts : p.isSimple with
  | true => exact .itself (.simple hparts (simple_of_throws hparts h))
  | false =>
      cases p with
      | member | name => cases hparts
      | value type v =>
          obtain ⟨m₁, hunheld⟩ := exists_unheld hparts h
          cases hbody : m₁.body? type v with
          | none =>
              obtain ⟨m₂, hunlike⟩ := throws_unlike hparts hunheld hbody
              obtain ⟨rfl, -⟩ := h.unique hunlike
              exact .itself (.unlike hparts hunheld hbody)
          | some o =>
              have hbegins : Begins call m type v o m₁ := ⟨hunheld, hbody⟩
              exact hbegins.blames ((hbegins.throws_iff hparts).mp h)

/-! ### One step, forwards -/

theorem AtEntry.throws {name : String} (hat : AtEntry call m key yield v o (.text name) m₁)
    (h : ∀ r, Throws call m₁ (convertEntry o r key yield name) fault m') :
    Throws call m (Piece.value (.table key (some yield)) v).convert fault m' := by
  obtain ⟨hbegins, hnames, hdone⟩ := hat
  have hloop := (throws_forNames_iff succeeds_convertEntry_iff nofun).mpr
    (.inr ⟨_, _, _, _, hnames, hdone, h _⟩)
  exact (hbegins.throws_iff rfl).mpr hloop

theorem AtItem.throws (hrow : Row type piece store) (hat : AtItem call m type piece store v o index m₁)
    (h : ∀ r, Throws call m₁ (itemRound o (convertItem piece (store r)) index) fault m') :
    Throws call m (Piece.value type v).convert fault m' := by
  obtain ⟨hbegins, hlength, hdone⟩ := hat
  have hloop := (throws_forItems_iff succeeds_itemRound_iff).mpr
    (.inr ⟨_, _, _, _, hlength, hdone, h _⟩)
  cases hrow with
  | set | vector => exact (hbegins.throws_iff rfl).mpr hloop

/-- If a piece does not convert that the conversion comes to, the whole does not. -/
theorem Reaches.throws (hreaches : Reaches call m p frame m₁ q) (h : Throws call m₁ q.convert cause m') :
    Throws call m p.convert (frame.around cause) m' := by
  cases hreaches with
  | field hat hread hpresent =>
      obtain ⟨hbegins, hdone⟩ := hat
      refine (hbegins.throws_iff rfl).mpr ((throws_forM_iff succeeds_fieldRound_iff).mpr ⟨_, _, hdone, ?_⟩)
      exact throws_fieldRound_iff.mpr (.within hread hpresent h)
  | name hat =>
      refine hat.throws fun r => ?_
      obtain ⟨hname, rfl⟩ := throws_name_iff.mp h
      exact ((throws_except_iff.mpr ⟨hname, rfl⟩).adapt _).bind
  | entry hat hname hread =>
      refine hat.throws fun r => ?_
      obtain ⟨a, m₂, hname, hnew⟩ := succeeds_bind_iff.mp hname
      refine (hname.adapt _).bind_throws (hnew.bind_throws ?_)
      exact (Succeeds.routine hread).bind_throws (h.adapt _).bind
  | item hrow hat hread =>
      exact hat.throws hrow fun r => (Succeeds.routine hread).bind_throws (h.adapt _).bind

/-! ### The whole way -/

/-- If a piece does not convert to which frames lead, the whole does not, and the frames are around the
fault. -/
theorem Locates.throws (hlocates : Locates call m p path m₁ q) (h : Throws call m₁ q.convert cause m') :
    Throws call m p.convert (path.foldr Frame.around cause) m' := by
  induction hlocates with
  | here => exact h
  | step hreaches _ ih => exact hreaches.throws (ih h)

/-- The frames around a fault lead to the piece that is at fault, if it is not the host. -/
theorem Piece.locates (h : Throws call m p.convert fault m') (hhost : ∀ cause, fault.root ≠ .host cause) :
    ∃ m₁ q, Locates call m p fault.path m₁ q ∧ Throws call m₁ q.convert fault.root m' ∧
      q.AtFault call m₁ fault.root := by
  -- one frame after the other; where there is none, the piece is at fault
  generalize hpath : fault.path = path
  induction path generalizing m p fault with
  | nil =>
      rw [ConversionFault.root_eq_self hpath] at hhost ⊢
      refine ⟨m, p, .here, h, ?_⟩
      cases blames h with
      | itself hfault => exact hfault
      | host cause => exact absurd rfl (hhost cause)
      | within => simp at hpath
  | cons frame path ih =>
      cases blames h with
      | itself hfault =>
          rw [hfault.path_eq_nil] at hpath
          cases hpath
      | host => cases hpath
      | within hreaches hthrows =>
          rw [ConversionFault.path_around] at hpath
          obtain ⟨rfl, hrest⟩ := List.cons.inj hpath
          rw [ConversionFault.root_around] at hhost ⊢
          obtain ⟨m₂, q, hlocates, hq⟩ := ih hthrows hhost hrest
          exact ⟨m₂, q, .step hreaches hlocates, hq⟩

/-- A conversion throws exactly if a piece is at fault to which the frames lead: the conversion of that
piece throws the innermost fault, and all pieces before it were converted. It also throws if any other
piece does not convert that it comes to. -/
theorem fault_leads_to_piece (hm : m.Sound) (n : Nat) (type : HostType) (v : Value) :
    (∀ fault m', Throws (invoke n) m (toHost type v) fault m' ↔
      ∃ m₁ p, Locates (invoke n) m (.value type v) fault.path m₁ p ∧
        Throws (invoke n) m₁ p.convert fault.root m' ∧ p.AtFault (invoke n) m₁ fault.root) ∧
    ∀ path m₁ p cause m', Locates (invoke n) m (.value type v) path m₁ p →
      Throws (invoke n) m₁ p.convert cause m' →
      Throws (invoke n) m (toHost type v) (path.foldr Frame.around cause) m' := by
  refine ⟨fun fault m' => ⟨fun h => ?_, ?_⟩, fun path m₁ p cause m' hlocates => hlocates.throws⟩
  · have hcall := invoke_lawful (.ofMasks fun _ => True) 0 n
    obtain ⟨-, -, hvalue⟩ := toHost_leaves hcall hm.kin h
    have hroot : fault.root.OfValue := ConversionFault.OfValue.root hvalue
    refine Piece.locates h fun cause hcause => ?_
    rw [hcause] at hroot
    exact hroot
  · rintro ⟨m₁, p, hlocates, hthrows, -⟩
    have h := hlocates.throws hthrows
    rwa [ConversionFault.foldr_around] at h

/-- An object with a name and with a list of numbers, of which one is a text. -/
def listEngine : Engine :=
  let plain (properties : List (Key × Property)) : Object := ⟨.ordinary, none, true, properties⟩
  ⟨#[plain [(.name "name", .plain (.string "a")), (.name "counts", .plain (.object 1))],
      ⟨.array 2 false, none, true, [(.item 0, .plain (.int 1)), (.item 1, .plain (.string "x"))]⟩], 0, []⟩

/-- A record with a name and a list of integers. -/
def listType : HostType :=
  .record 0 "list" [⟨"name", .atom .string, .none⟩, ⟨"counts", .vector (.atom .int), .none⟩]

theorem fault_leads_to_piece_list :
    let m : Machine := ⟨listEngine, .start ⟨#[]⟩⟩
    let fault : ConversionFault := .mismatch "integer" "string"
    m.Sound ∧ ∃ m', Throws (invoke 9) m (toHost listType (.object 0))
        (.inField "counts" (.inElement 1 fault)) m' ∧
      ∃ m₁ p, Locates (invoke 9) m (.value listType (.object 0)) [.field "counts", .element 1] m₁ p ∧
        Throws (invoke 9) m₁ p.convert fault m' ∧ p.AtFault (invoke 9) m₁ fault := by
  intro m fault
  have hm : m.Sound := sound_start (by decide)
  have hfault : (m.act 9 (toHost listType (.object 0))).1 =
      .error (.inField "counts" (.inElement 1 fault)) := by decide +kernel
  have hthrows : Throws (invoke 9) m (toHost listType (.object 0))
      (.inField "counts" (.inElement 1 fault)) (m.act 9 (toHost listType (.object 0))).2 :=
    Prod.ext hfault rfl
  exact ⟨hm, _, hthrows, ((fault_leads_to_piece hm 9 listType (.object 0)).1 _ _).mp hthrows⟩

end HostView.Script
