import HostView.Proofs.Exposure.Pieces

/-! # Values taken to pieces

The conversion to a record, table, set or vector makes a blank host value and fills it round by round.
Each round reads a property, converts it and stores the result; a round that does not do this throws,
with a frame around the fault if what it converts is at fault.
-/

namespace HostView

/-- The content of a host value before its parts are stored. -/
def HostType.blank : HostType → Content
  | .record _ _ fields => .record (List.replicate fields.length none)
  | .table _ _ => .table []
  | .atom _ | .real _ | .vector _ => .vector []

/-- What is expected of a value that is converted to a type that has parts. -/
def HostType.bodyForm : HostType → String
  | .table _ none | .vector _ => "array"
  | .atom _ | .real _ | .record _ _ _ | .table _ (some _) => "object"

namespace Script

variable {call : Caller} {m m₁ m₂ m' : Machine} {type yield : HostType} {v : Value} {o : ObjectId}
  {r : Ref} {fault cause : ConversionFault} {key : AtomType} {record : String} {α : Type}

/-! ### The object with the pieces -/

/-- The object of a value that is an array. -/
def Engine.array? (e : Engine) : Value → Option ObjectId
  | .object o => if e.isArray o then some o else none
  | _ => none

/-- The object of a value that is neither an array nor a function. -/
def Engine.plain? (e : Engine) : Value → Option ObjectId
  | .object o => if e.isArray o || (e.callable? o).isSome then none else some o
  | _ => none

/-- The object with the pieces of a value that is converted to a type that has parts. -/
def Engine.body? (e : Engine) : HostType → Value → Option ObjectId
  | .table _ none, v | .vector _, v => e.array? v
  | .atom _, v | .real _, v | .record _ _ _, v | .table _ (some _), v => e.plain? v

/-- What becomes of the search for the object. -/
def Machine.Searches (call : Caller) (m : Machine) (v : Value) (search : Decoding ObjectId)
    (found : Option ObjectId) (expected : String) : Prop :=
  match found with
  | some o => Gives call m search o m
  | none => Throws call m (liftM search : Conversion ObjectId) (.mismatch expected (m.typeName v)) m

theorem arrayOf_searches (call : Caller) (m : Machine) (v : Value) :
    m.Searches call v (arrayOf v) (m.array? v) "array" := by
  cases v with
  | object o =>
      have hrun : ((arrayOf (.object o)).run.run.run call).run m =
          ((if m.isArray o then pure o else mismatch "array" (.object o) :
            Decoding ObjectId).run.run.run call).run m := rfl
      by_cases harray : m.isArray o = true
      · rw [if_pos harray] at hrun
        rw [Engine.array?, if_pos harray]
        exact hrun
      · rw [if_neg harray] at hrun
        rw [Engine.array?, if_neg harray]
        exact hrun
  | _ => exact rfl

theorem plainObject_searches (call : Caller) (m : Machine) (v : Value) :
    m.Searches call v (plainObject "object" v) (m.plain? v) "object" := by
  cases v with
  | object o =>
      have hrun : ((plainObject "object" (.object o)).run.run.run call).run m =
          ((if m.isArray o || (m.callable? o).isSome then mismatch "object" (.object o) else pure o :
            Decoding ObjectId).run.run.run call).run m := rfl
      by_cases hother : (m.isArray o || (m.callable? o).isSome) = true
      · rw [if_pos hother] at hrun
        rw [Engine.plain?, if_pos hother]
        exact hrun
      · rw [if_neg hother] at hrun
        rw [Engine.plain?, if_neg hother]
        exact hrun
  | _ => exact rfl

/-! ### Steps of conversions -/

/-- A change that the host refuses. -/
theorem complete_refused {change : Heap → Except HostFault Heap} {refusal : HostFault}
    (hchange : change m.heap = .error refusal) : Throws call m (complete change) (.host refusal) m := by
  refine Throws.get_bind ?_
  rw [hchange]
  rfl

theorem succeeds_complete_iff {change : Heap → Except HostFault Heap} :
    Succeeds call m (complete change) () m' ↔ ∃ heap, change m.heap = .ok heap ∧ m' = { m with heap } := by
  constructor
  · intro h
    cases hchange : change m.heap with
    | ok heap =>
        obtain ⟨-, rfl⟩ := h.unique (complete_gives hchange)
        exact ⟨heap, rfl, rfl⟩
    | error refusal => exact absurd (complete_refused hchange) h.not_throws
  · rintro ⟨heap, hchange, rfl⟩
    exact complete_gives hchange

/-- A change can only be refused by the host. -/
theorem throws_complete_iff {change : Heap → Except HostFault Heap} :
    Throws call m (complete change) fault m' ↔
      ∃ refusal, change m.heap = .error refusal ∧ fault = .host refusal ∧ m' = m := by
  constructor
  · intro h
    cases hchange : change m.heap with
    | ok heap => exact absurd h (complete_gives hchange).not_throws
    | error refusal =>
        obtain ⟨rfl, rfl⟩ := h.unique (complete_refused hchange)
        exact ⟨refusal, rfl, rfl, rfl⟩
  · rintro ⟨refusal, hchange, rfl, rfl⟩
    exact complete_refused hchange

/-- The last steps of every round: something is converted, and the result is stored. -/
theorem succeeds_store_iff {path : ConversionFault → ConversionFault} {convert : Conversion Ref}
    {change : Ref → Heap → Except HostFault Heap} :
    Succeeds call m (do let s ← inPart path convert; complete (change s)) () m' ↔
      ∃ s m₁ heap, Succeeds call m convert s m₁ ∧ change s m₁.heap = .ok heap ∧
        m' = { m₁ with heap } := by
  rw [succeeds_bind_iff]
  constructor
  · rintro ⟨s, m₁, hconvert, hcomplete⟩
    obtain ⟨heap, hstore, rfl⟩ := succeeds_complete_iff.mp hcomplete
    exact ⟨s, m₁, heap, succeeds_adapt_iff.mp hconvert, hstore, rfl⟩
  · rintro ⟨s, m₁, heap, hconvert, hstore, rfl⟩
    exact ⟨s, m₁, hconvert.adapt path, complete_gives hstore⟩

/-- A property is unread only if the engine threw. -/
theorem throws_readProperty {k : Key}
    (h : Throws call m (liftM (readProperty o k) : Conversion Value) fault m') :
    fault = .engine .exception := by
  have hensures : Ensures (readProperty o k) (fun _ => True) (· = .engine .exception) := by
    refine .bind (.attempt _) fun x _ => ?_
    cases x with
    | ok v => exact .pure trivial
    | error => exact .throw rfl
  exact hensures.throws h

/-! ### Rounds -/

/-- The round for the field at an offset. -/
def fieldRound (o : ObjectId) (record : String) (r : Ref) (x : Field HostType × Nat) :
    Conversion Unit := do
  let v ← readProperty o (.name x.1.name)
  if v.isPresent then
    let s ← inPart (.inField x.1.name) (toHost x.1.type v)
    complete fun h => h.setField r x.2 (some s)
  else if x.1.attributes.isOptional then return ()
  else throw (.missingField record x.1.name)

/-- An item that was read is converted and stored. -/
def convertItem (piece : Value → Piece) (store : Ref → Heap → Except HostFault Heap) (index : Nat)
    (item : Value) : Conversion Unit := do
  let s ← inPart (.inElement index) (piece item).convert
  complete (store s)

/-- The round for the item at an index. -/
def itemRound (o : ObjectId) (convert : Nat → Value → Conversion Unit) (index : Nat) :
    Conversion Unit := do
  convert index (← readProperty o (.name (Decimal.ofNat index)))

/-- The round for a name that is listed. -/
def nameRound (convert : String → Conversion Unit) : ScriptString → Conversion Unit
  | .text name => convert name
  | .illFormed u => throw (.engine (.illFormed u.index))

/-- The fields are filled in rounds. -/
theorem fillFields_eq (o : ObjectId) (record : String) (r : Ref) (fields : List (Field HostType))
    (offset : Nat) :
    fillFields o record r offset fields = (fields.zipIdx offset).forM (fieldRound o record r) := by
  induction fields generalizing offset with
  | nil =>
      rw [fillFields]
      rfl
  | cons f fields ih =>
      -- each branch of the first round goes on with the other fields
      rw [fillFields, List.zipIdx_cons, forM_cons, fieldRound, bind_assoc]
      refine congrArg _ (funext fun v => ?_)
      by_cases hpresent : v.isPresent = true
      · rw [if_pos hpresent, if_pos hpresent, bind_assoc, ih]
      · rw [if_neg hpresent, if_neg hpresent]
        by_cases hoptional : f.attributes.isOptional = true
        · rw [if_pos hoptional, if_pos hoptional, pure_bind, ih]
        · rw [if_neg hoptional, if_neg hoptional]
          rfl

/-- The field is dealt with: its property is unset and need not be set, or it is converted and stored. -/
inductive FieldConverts (call : Caller) (o : ObjectId) (r : Ref) :
    Field HostType × Nat → Machine → Machine → Prop where
  | unset {f : Field HostType} {i : Nat} {m m' : Machine} {v : Value}
      (hread : Gives call m (readProperty o (.name f.name)) v m') (habsent : v.isPresent = false)
      (hoptional : f.attributes.isOptional = true) : FieldConverts call o r (f, i) m m'
  | stored {f : Field HostType} {i : Nat} {m m₁ m₂ : Machine} {v : Value} {s : Ref} {heap : Heap}
      (hread : Gives call m (readProperty o (.name f.name)) v m₁) (hpresent : v.isPresent = true)
      (hconvert : Succeeds call m₁ (Piece.value f.type v).convert s m₂)
      (hstore : m₂.heap.setField r i (some s) = .ok heap) :
      FieldConverts call o r (f, i) m { m₂ with heap }

theorem succeeds_fieldRound_iff (x : Field HostType × Nat) (m m' : Machine) :
    Succeeds call m (fieldRound o record r x) () m' ↔ FieldConverts call o r x m m' := by
  obtain ⟨f, i⟩ := x
  unfold fieldRound
  rw [succeeds_bind_iff]
  constructor
  · rintro ⟨v, m₁, hread, hrest⟩
    split at hrest
    next hpresent =>
      obtain ⟨s, m₂, heap, hconvert, hstore, rfl⟩ := succeeds_store_iff.mp hrest
      exact .stored hread hpresent hconvert hstore
    next habsent =>
      split at hrest
      next hoptional =>
        obtain ⟨-, rfl⟩ := Succeeds.pure.unique hrest
        exact .unset hread (Bool.eq_false_iff.mpr habsent) hoptional
      next => cases hrest
  · intro h
    cases h with
    | unset hread habsent hoptional =>
        refine ⟨_, _, hread, ?_⟩
        rw [if_neg (Bool.eq_false_iff.mp habsent), if_pos hoptional]
        exact .pure
    | stored hread hpresent hconvert hstore =>
        refine ⟨_, _, hread, ?_⟩
        rw [if_pos hpresent]
        exact succeeds_store_iff.mpr ⟨_, _, _, hconvert, hstore, rfl⟩

/-- The field is at fault: its property is unread, or is unset and must be set, or does not convert, or the
host refuses to store what it is converted to. -/
inductive FieldThrows (call : Caller) (o : ObjectId) (record : String) (r : Ref) :
    Field HostType × Nat → Machine → ConversionFault → Machine → Prop where
  | unread {f : Field HostType} {i : Nat} {m m' : Machine} {fault : ConversionFault}
      (hunread : Throws call m (liftM (readProperty o (.name f.name)) : Conversion Value) fault m') :
      FieldThrows call o record r (f, i) m fault m'
  | missing {f : Field HostType} {i : Nat} {m m' : Machine} {v : Value}
      (hread : Gives call m (readProperty o (.name f.name)) v m') (habsent : v.isPresent = false)
      (hrequired : f.attributes.isOptional = false) :
      FieldThrows call o record r (f, i) m (.missingField record f.name) m'
  | within {f : Field HostType} {i : Nat} {m m₁ m' : Machine} {v : Value} {cause : ConversionFault}
      (hread : Gives call m (readProperty o (.name f.name)) v m₁) (hpresent : v.isPresent = true)
      (hthrows : Throws call m₁ (Piece.value f.type v).convert cause m') :
      FieldThrows call o record r (f, i) m (.inField f.name cause) m'
  | refused {f : Field HostType} {i : Nat} {m m₁ m' : Machine} {v : Value} {s : Ref} {cause : HostFault}
      (hread : Gives call m (readProperty o (.name f.name)) v m₁) (hpresent : v.isPresent = true)
      (hconvert : Succeeds call m₁ (Piece.value f.type v).convert s m')
      (hstore : m'.heap.setField r i (some s) = .error cause) :
      FieldThrows call o record r (f, i) m (.host cause) m'

theorem throws_fieldRound_iff {x : Field HostType × Nat} :
    Throws call m (fieldRound o record r x) fault m' ↔ FieldThrows call o record r x m fault m' := by
  obtain ⟨f, i⟩ := x
  unfold fieldRound
  rw [throws_bind_iff]
  constructor
  · rintro (hunread | ⟨v, m₁, hread, hrest⟩)
    · exact .unread hunread
    split at hrest
    next hpresent =>
      obtain hfails | ⟨s, m₂, hconvert, hrefused⟩ := throws_bind_iff.mp hrest
      · obtain ⟨cause, rfl, hthrows⟩ := throws_adapt_iff.mp hfails
        exact .within hread hpresent hthrows
      · obtain ⟨cause, hstore, rfl, rfl⟩ := throws_complete_iff.mp hrefused
        exact .refused hread hpresent (succeeds_adapt_iff.mp hconvert) hstore
    next habsent =>
      split at hrest
      next => exact absurd hrest Succeeds.pure.not_throws
      next hrequired =>
        cases hrest
        exact .missing hread (Bool.eq_false_iff.mpr habsent) (Bool.eq_false_iff.mpr hrequired)
  · intro h
    cases h with
    | unread hunread => exact .inl hunread
    | missing hread habsent hrequired =>
        refine .inr ⟨_, _, hread, ?_⟩
        rw [if_neg (Bool.eq_false_iff.mp habsent), if_neg (Bool.eq_false_iff.mp hrequired)]
        rfl
    | within hread hpresent hthrows =>
        refine .inr ⟨_, _, hread, ?_⟩
        rw [if_pos hpresent]
        exact (hthrows.adapt _).bind
    | refused hread hpresent hconvert hstore =>
        refine .inr ⟨_, _, hread, ?_⟩
        rw [if_pos hpresent]
        exact (hconvert.adapt _).bind_throws (complete_refused hstore)

/-- The entry is dealt with: its name is a key, and its property is converted and stored there. -/
inductive EntryConverts (call : Caller) (key : AtomType) (yield : HostType) (o : ObjectId) (r : Ref) :
    ScriptString → Machine → Machine → Prop where
  | stored {name : String} {m m₁ m₂ m₃ : Machine} {k s : Ref} {v : Value} {heap : Heap}
      (hname : Succeeds call m (Piece.name key name).convert k m₁)
      (hread : Gives call m₁ (readProperty o (.name name)) v m₂)
      (hconvert : Succeeds call m₂ (Piece.value yield v).convert s m₃)
      (hstore : m₃.heap.tableAssign r k (some s) = .ok heap) :
      EntryConverts call key yield o r (.text name) m { m₃ with heap }

/-- The item is dealt with: it is converted and stored. -/
inductive ItemConverts (call : Caller) (piece : Value → Piece)
    (store : Ref → Heap → Except HostFault Heap) (o : ObjectId) : Nat → Machine → Machine → Prop where
  | stored {index : Nat} {m m₁ m₂ : Machine} {v : Value} {s : Ref} {heap : Heap}
      (hread : Gives call m (readProperty o (.name (Decimal.ofNat index))) v m₁)
      (hconvert : Succeeds call m₁ (piece v).convert s m₂) (hstore : store s m₂.heap = .ok heap) :
      ItemConverts call piece store o index m { m₂ with heap }

theorem succeeds_convertEntry_iff (name : String) (m m' : Machine) :
    Succeeds call m (convertEntry o r key yield name) () m' ↔
      EntryConverts call key yield o r (.text name) m m' := by
  unfold convertEntry
  rw [succeeds_bind_iff]
  constructor
  · rintro ⟨a, m₁, hname, hrest⟩
    obtain ⟨k, m₂, hnew, hrest⟩ := succeeds_bind_iff.mp hrest
    obtain ⟨v, m₃, hread, hrest⟩ := succeeds_bind_iff.mp hrest
    obtain ⟨s, m₄, heap, hconvert, hstore, rfl⟩ := succeeds_store_iff.mp hrest
    exact .stored ((succeeds_adapt_iff.mp hname).bind hnew) hread hconvert hstore
  · rintro ⟨hname, hread, hconvert, hstore⟩
    obtain ⟨a, m₁, hname, hnew⟩ := succeeds_bind_iff.mp hname
    refine ⟨a, m₁, hname.adapt _, hnew.bind (.bind hread ?_)⟩
    exact succeeds_store_iff.mpr ⟨_, _, _, hconvert, hstore, rfl⟩

theorem succeeds_itemRound_iff {piece : Value → Piece} {store : Ref → Heap → Except HostFault Heap}
    (index : Nat) (m m' : Machine) :
    Succeeds call m (itemRound o (convertItem piece store) index) () m' ↔
      ItemConverts call piece store o index m m' := by
  unfold itemRound
  rw [succeeds_bind_iff]
  constructor
  · rintro ⟨v, m₁, hread, hrest⟩
    obtain ⟨s, m₂, heap, hconvert, hstore, rfl⟩ := succeeds_store_iff.mp hrest
    exact .stored hread hconvert hstore
  · rintro ⟨hread, hconvert, hstore⟩
    exact ⟨_, _, hread, succeeds_store_iff.mpr ⟨_, _, _, hconvert, hstore, rfl⟩⟩

/-! ### Loops over properties -/

/-- A loop over items throws if the length is unread, or else what the first round throws that does
not succeed. -/
theorem throws_forItems_iff {convert : Nat → Value → Conversion Unit}
    {round : Nat → Machine → Machine → Prop}
    (hround : ∀ index m m', Succeeds call m (itemRound o convert index) () m' ↔ round index m m') :
    Throws call m (forItems o convert) fault m' ↔
      Throws call m (liftM (readProperty o (.name "length")) : Conversion Value) fault m' ∨
      ∃ length m₁ index m₂, Gives call m (readProperty o (.name "length")) (.int length) m₁ ∧
        UpTo round (List.range length.toNatClampNeg) index m₁ m₂ ∧
        Throws call m₂ (itemRound o convert index) fault m' := by
  unfold forItems
  rw [throws_bind_iff]
  refine or_congr_right ⟨?_, ?_⟩
  · rintro ⟨v, m₁, hlength, hloop⟩
    split at hloop
    next length =>
      obtain ⟨index, m₂, hdone, hthrows⟩ := (throws_forM_iff hround).mp hloop
      exact ⟨length, m₁, index, m₂, hlength, hdone, hthrows⟩
    next => exact absurd hloop Succeeds.pure.not_throws
  · rintro ⟨length, m₁, index, m₂, hlength, hdone, hthrows⟩
    exact ⟨.int length, m₁, hlength, (throws_forM_iff hround).mpr ⟨index, m₂, hdone, hthrows⟩⟩

theorem succeeds_nameRound_iff {convert : String → Conversion Unit}
    {round : ScriptString → Machine → Machine → Prop}
    (hround : ∀ name m m', Succeeds call m (convert name) () m' ↔ round (.text name) m m')
    (hillFormed : ∀ u m m', ¬round (.illFormed u) m m') (name : ScriptString) (m m' : Machine) :
    Succeeds call m (nameRound convert name) () m' ↔ round name m m' := by
  cases name with
  | text name => exact hround name m m'
  | illFormed u => exact iff_of_false (fun h => nomatch h) (hillFormed u m m')

/-- A loop over the names of an object succeeds if they can be listed and each round succeeds. -/
theorem succeeds_forNames_iff {convert : String → Conversion Unit}
    {round : ScriptString → Machine → Machine → Prop}
    (hround : ∀ name m m', Succeeds call m (convert name) () m' ↔ round (.text name) m m')
    (hillFormed : ∀ u m m', ¬round (.illFormed u) m m') :
    Succeeds call m (forNames o convert) () m' ↔
      ∃ names m₁, Gives call m (enumerableNames o) names m₁ ∧ Rounds round names m₁ m' := by
  rcases hrun : ((enumerableNames o).run.run.run call).run m with ⟨listed, m₁⟩
  have hlist : Succeeds call m (liftM (enumerableNames o).run : Conversion _) listed m₁ := .effect hrun
  have hrounds (names : List ScriptString) :
      Succeeds call m₁ (names.forM (nameRound convert)) () m' ↔ Rounds round names m₁ m' :=
    succeeds_forM_iff (succeeds_nameRound_iff hround hillFormed)
  unfold forNames
  rw [Succeeds, hlist.bind_run]
  cases listed with
  | error thrown =>
      have hthrows : Throws call m₁ (throw (.engine .exception) : Conversion Unit) (.engine .exception) m₁ :=
        rfl
      constructor
      · intro h
        exact absurd hthrows (Succeeds.not_throws h)
      · rintro ⟨names, m₂, hnames, -⟩
        cases hrun.symm.trans hnames
  | ok names =>
      constructor
      · intro h
        exact ⟨names, m₁, hrun, (hrounds names).mp h⟩
      · rintro ⟨names', m₂, hnames, hdone⟩
        cases hrun.symm.trans hnames
        exact (hrounds names).mpr hdone

/-- A loop over the names of an object throws if they cannot be listed, or else what the first round
throws that does not succeed; there is none for a name that is no text. -/
theorem throws_forNames_iff {convert : String → Conversion Unit}
    {round : ScriptString → Machine → Machine → Prop}
    (hround : ∀ name m m', Succeeds call m (convert name) () m' ↔ round (.text name) m m')
    (hillFormed : ∀ u m m', ¬round (.illFormed u) m m') :
    Throws call m (forNames o convert) fault m' ↔
      (fault = .engine .exception ∧
        ∃ thrown, Throws call m (liftM (enumerableNames o) : Action (List ScriptString)) thrown m') ∨
      ∃ names m₁ name m₂, Gives call m (enumerableNames o) names m₁ ∧ UpTo round names name m₁ m₂ ∧
        Throws call m₂ (nameRound convert name) fault m' := by
  have hrounds : ∀ name m m', Succeeds call m (nameRound convert name) () m' ↔ round name m m' :=
    succeeds_nameRound_iff hround hillFormed
  rcases hrun : ((enumerableNames o).run.run.run call).run m with ⟨listed, m₁⟩
  have hlist : Succeeds call m (liftM (enumerableNames o).run : Conversion _) listed m₁ := .effect hrun
  unfold forNames
  rw [hlist.throws_bind_iff]
  cases listed with
  | error thrown =>
      have hthrown : Throws call m (liftM (enumerableNames o) : Action _) thrown m₁ := hrun
      have hfault : Throws call m₁ (throw (.engine .exception) : Conversion Unit) (.engine .exception) m₁ :=
        rfl
      constructor
      · intro h
        obtain ⟨rfl, rfl⟩ := h.unique hfault
        exact .inl ⟨rfl, thrown, hthrown⟩
      · rintro (⟨rfl, thrown', h⟩ | ⟨names, m₂, name, m₃, hnames, -⟩)
        · obtain ⟨-, rfl⟩ := h.unique hthrown
          exact hfault
        · exact absurd hthrown (Succeeds.routine hnames).not_throws
  | ok names =>
      have hnames : Gives call m (enumerableNames o) names m₁ := hrun
      have hlisted : Succeeds call m (liftM (enumerableNames o) : Action _) names m₁ := .routine hnames
      constructor
      · intro h
        obtain ⟨name, m₂, hdone, hthrows⟩ := (throws_forM_iff hrounds).mp h
        exact .inr ⟨names, m₁, name, m₂, hnames, hdone, hthrows⟩
      · rintro (⟨-, thrown, h⟩ | ⟨names', m₂, name, m₃, hnames', hdone, hthrows⟩)
        · exact absurd h hlisted.not_throws
        · obtain ⟨rfl, rfl⟩ := Succeeds.unique (Succeeds.routine hnames) (Succeeds.routine hnames')
          exact (throws_forM_iff hrounds).mpr ⟨name, m₃, hdone, hthrows⟩

/-! ### Beginning -/

/-- The machine after a blank host value of the type was made. -/
def Machine.opened (m : Machine) (type : HostType) : Machine :=
  { m with heap := (m.heap.alloc ⟨type, type.blank⟩).2 }

/-- The conversion of a value to a type that has parts begins: no host value of the very type is behind
the value, and the object has its pieces. -/
structure Begins (call : Caller) (m : Machine) (type : HostType) (v : Value) (o : ObjectId)
    (m₁ : Machine) : Prop where
  unheld : Succeeds call m (heldOf? type v) none m₁
  object : m₁.body? type v = some o

/-- The host value that was made is filled with what the pieces are converted to. -/
def fill : HostType → ObjectId → Ref → Conversion Unit
  | .record _ record fields, o, r => fields.zipIdx.forM (fieldRound o record r)
  | .table key none, o, r =>
    forItems o (convertItem (.member key) fun s h => h.tableAssign r s none)
  | .table key (some yield), o, r => forNames o (convertEntry o r key yield)
  | .vector element, o, r => forItems o (convertItem (.value element) fun s h => h.vectorPush r s)
  | .atom _, _, _ | .real _, _, _ => return ()

/-- How a host value with parts is built: the object with the pieces is found before the host value is made,
or after that, and the value is filled last. -/
inductive Makes (call : Caller) (type : HostType) (v : Value) : Conversion Ref → Prop where
  | searched {search : Decoding ObjectId} {make : Conversion Ref}
      (hsearch : ∀ m : Machine, m.Searches call v search (m.body? type v) type.bodyForm)
      (hmake : ∀ m : Machine, Succeeds call m make m.heap.cells.size (m.opened type)) :
      Makes call type v (do let o ← search; let r ← make; fill type o r; return r)
  | made {search : Decoding ObjectId} {make : Conversion Ref}
      (hsearch : ∀ m : Machine, m.Searches call v search (m.body? type v) type.bodyForm)
      (hmake : ∀ m : Machine, Succeeds call m make m.heap.cells.size (m.opened type)) :
      Makes call type v (do let r ← make; let o ← search; fill type o r; return r)

/-- Where a type has parts, a host value of the very type is looked for before one is built. -/
theorem exists_makes (call : Caller) (hparts : (Piece.value type v).isSimple = false) :
    ∃ convert, toHost type v = heldOr type v convert ∧ Makes call type v convert := by
  cases type with
  | atom | real => cases hparts
  | record descriptor record fields =>
      have hcheck := Heap.checkContent_record descriptor record fields
      rw [toHost]
      simp only [fillFields_eq]
      exact ⟨_, rfl, .searched (fun m => plainObject_searches call m v) fun m => new_gives hcheck⟩
  | vector element =>
      rw [toHost]
      exact ⟨_, rfl, .made (fun m => arrayOf_searches call m v) fun m => new_gives rfl⟩
  | table key yield =>
      cases yield with
      | none =>
          rw [toHost]
          exact ⟨_, rfl, .made (fun m => arrayOf_searches call m v) fun m => new_gives rfl⟩
      | some yield =>
          rw [toHost]
          exact ⟨_, rfl, .made (fun m => plainObject_searches call m v) fun m => new_gives rfl⟩

/-- With the object of the pieces, a host value is made and filled. -/
theorem Begins.run (hbegins : Begins call m type v o m₁) (hparts : (Piece.value type v).isSimple = false) :
    ((toHost type v).run.run call).run m =
      ((do fill type o m₁.heap.cells.size; return m₁.heap.cells.size : Conversion Ref).run.run call).run
        (m₁.opened type) := by
  obtain ⟨hunheld, hbody⟩ := hbegins
  obtain ⟨convert, hconvert, hmakes⟩ := exists_makes call hparts
  have hfound (m₂ : Machine) (hbody₂ : m₂.body? type v = some o) {search : Decoding ObjectId}
      (hsearch : m₂.Searches call v search (m₂.body? type v) type.bodyForm) : Gives call m₂ search o m₂ := by
    rwa [hbody₂] at hsearch
  rw [hconvert, heldOr, hunheld.bind_run]
  cases hmakes with
  | searched hsearch hmake =>
      have hgives := hfound m₁ hbody (hsearch m₁)
      exact ((Succeeds.routine hgives).bind_run _).trans ((hmake m₁).bind_run _)
  | made hsearch hmake =>
      have hgives := hfound (m₁.opened type) hbody (hsearch (m₁.opened type))
      exact ((hmake m₁).bind_run _).trans ((Succeeds.routine hgives).bind_run _)

/-- A value that is not the object that it should be is at fault itself. -/
theorem throws_unlike (hparts : (Piece.value type v).isSimple = false)
    (hunheld : Succeeds call m (heldOf? type v) none m₁) (hbody : m₁.body? type v = none) :
    ∃ m', Throws call m (toHost type v) (.mismatch type.bodyForm (m₁.typeName v)) m' := by
  obtain ⟨convert, hconvert, hmakes⟩ := exists_makes call hparts
  have hfails (m₂ : Machine) (hbody₂ : m₂.body? type v = none) {search : Decoding ObjectId}
      (hsearch : m₂.Searches call v search (m₂.body? type v) type.bodyForm) :
      Throws call m₂ (liftM search : Conversion ObjectId) (.mismatch type.bodyForm (m₂.typeName v)) m₂ := by
    rwa [hbody₂] at hsearch
  rw [hconvert]
  cases hmakes with
  | searched hsearch hmake =>
      exact ⟨_, hunheld.bind_throws (hfails m₁ hbody (hsearch m₁)).bind⟩
  | made hsearch hmake =>
      have hthrows := hfails (m₁.opened type) hbody (hsearch (m₁.opened type))
      exact ⟨_, hunheld.bind_throws ((hmake m₁).bind_throws hthrows.bind)⟩

/-- With the object of the pieces, the conversion throws what is thrown while the host value is filled. -/
theorem Begins.throws_iff (hbegins : Begins call m type v o m₁)
    (hparts : (Piece.value type v).isSimple = false) :
    Throws call m (toHost type v) fault m' ↔
      Throws call (m₁.opened type) (fill type o m₁.heap.cells.size) fault m' := by
  rw [Throws, hbegins.run hparts]
  exact throws_bind_pure_iff

/-- A value that has parts is converted if it stands for a host value of the very type, or if a host value
can be filled with what its pieces are converted to. -/
theorem succeeds_composite_iff (hparts : (Piece.value type v).isSimple = false) :
    Succeeds call m (toHost type v) r m' ↔ Succeeds call m (heldOf? type v) (some r) m' ∨
      ∃ o m₁, Begins call m type v o m₁ ∧ r = m₁.heap.cells.size ∧
        Succeeds call (m₁.opened type) (fill type o r) () m' := by
  obtain ⟨convert, hconvert, -⟩ := exists_makes call hparts
  constructor
  · intro h
    obtain ⟨x, m₁, hheld⟩ := heldOf?_succeeds call m type v
    cases x with
    | some s =>
        have htaken : Succeeds call m (toHost type v) s m₁ := by
          rw [hconvert]
          exact hheld.bind .pure
        obtain ⟨rfl, rfl⟩ := h.unique htaken
        exact .inl hheld
    | none =>
        cases hbody : m₁.body? type v with
        | none =>
            obtain ⟨m₂, hthrows⟩ := throws_unlike hparts hheld hbody
            exact absurd hthrows h.not_throws
        | some o =>
            have hbegins : Begins call m type v o m₁ := ⟨hheld, hbody⟩
            rw [Succeeds, hbegins.run hparts] at h
            obtain ⟨⟨⟩, m₂, hfill, hpure⟩ := Succeeds.of_bind h
            obtain ⟨rfl, rfl⟩ := Succeeds.pure.unique hpure
            exact .inr ⟨o, m₁, hbegins, rfl, hfill⟩
  · rintro (hheld | ⟨o, m₁, hbegins, rfl, hfill⟩)
    · rw [hconvert]
      exact hheld.bind .pure
    · rw [Succeeds, hbegins.run hparts]
      exact hfill.bind .pure

end Script

end HostView
