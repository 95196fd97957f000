import HostView.Proofs.Exposure.NormalForm
import HostView.Proofs.Exposure.Surfaces
import HostView.Proofs.Exposure.Untouched
import HostView.Proofs.Script.Layers
import HostView.Proofs.SilentReads

/-! # The private symbol

A wrap is recognized by its object, and that of a live record or table also through any stack of layers
over its proxy. What stands over anything else is not recognized, also if it throws when it is asked. All
this holds as long as the private symbol is no key of any object, and no proxy of the script passes the
object of a wrap off as its own answer. The methods of the handler tell nothing of the symbol. Questions and
assignments leave what objects are recognized as, in any number, as long as no function of the script that
is called in passing touches the objects.
-/

namespace HostView.Script

variable {call : Caller} {m m₁ m' : Machine} {o p target : ObjectId} {r : Ref} {mask : Mask} {k : Key}
  {w : WrapId} {type : HostType} {rest arguments : List Value} {limit n : Nat} {t : Trap} {α : Type}

/-! ### Live proxies -/

/-- The object is the proxy of the bridge before the object of a wrap, which holds a record or table. -/
structure Machine.Proxies (m : Machine) (p target : ObjectId) (r : Ref) (mask : Mask) : Prop where
  kind : (m.object p).kind = .proxy target Intrinsic.bridge
  wraps : m.Wraps target r mask

/-- The handler of live values reads by the method of the bridge. -/
structure Machine.Guarded (m : Machine) : Prop where
  handler : (m.object Intrinsic.bridge).isProxy = false
  settled : (m.object Intrinsic.bridge).Settled
  method : m.Method m.objects.size .get

/-- A live proxy answers to the private symbol with the object of its wrap. -/
theorem Machine.Proxies.rests (h : m.Proxies p target r mask) (hguarded : m.Guarded) (n : Nat)
    (receiver : Value) :
    Rests (invoke (n + 1)) m receiver p (.symbol .tag) (.object target) m := by
  intro height fuel hhigh hfuel
  cases hhigh with
  | last hproxy | heir hproxy => cases hproxy.symm.trans (Engine.High.isProxy_eq h.kind)
  | layer hkind hother =>
      cases h.kind.symm.trans hkind
      exact absurd rfl hother
  | front =>
      obtain ⟨fuel, rfl⟩ : ∃ rest, fuel = rest + 2 := ⟨fuel - 2, by omega⟩
      obtain ⟨g, hfound, hanswers⟩ := hguarded.method.answers hguarded.handler
      obtain ⟨w, state, htarget, -⟩ := h.wraps.holds
      exact getFrom_proxy h.kind (hfound _ fuel)
        (hanswers n _ _ _ _ (performTrap_tag [receiver] h.wraps.receiver)) (by rw [htarget]; rfl)
        (by rw [htarget]; rfl)

/-! ### What is recognized -/

theorem Machine.Wraps.wrapOf?_eq (h : m.Wraps target r mask) :
    ∃ w, m.wrapOf? target = some w ∧ (m.wraps.wrap? w).bind (·.value) = some r := by
  obtain ⟨w, state, htarget, hwrap⟩ := h.holds
  refine ⟨w, ?_, by rw [hwrap]; rfl⟩
  rw [Machine.wrapOf?, htarget]

/-- The object of a wrap is the wrap. -/
theorem unwrap_wrap (hw : m.wrapOf? o = some w) : ((unwrap o).run call).run m = (some w, m) := by
  have hread : ((get : Effect Machine).run call).run m = (m, m) := rfl
  unfold unwrap
  rw [run_bind_eq hread, hw]
  rfl

/-- What throws at the question is no wrap, and the throw is caught. -/
theorem unwrap_halts (hnone : m.wrapOf? o = none)
    (htag : Halts call m (getProperty o (.symbol .tag))) :
    ∃ m', ((unwrap o).run call).run m = (none, m') := by
  obtain ⟨fault, m', hrun⟩ := htag
  exact ⟨m', unwrap_asked hnone hrun⟩

/-- A stack of layers over a live proxy is its wrap. -/
theorem unwrap_stack (hguarded : m.Guarded) (h : m.Proxies p target r mask)
    (hstack : m.Stack (.symbol .tag) o p) (hnone : m.wrapOf? o = none) (n : Nat) :
    ((unwrap o).run (invoke (n + 1))).run m = (m.wrapOf? target, m) := by
  obtain ⟨height, hhigh⟩ := hstack.high (.front h.kind)
  exact unwrap_gives hnone ((hstack.rests (h.rests hguarded n _)).getProperty_gives hhigh)

/-- What has nothing at the private symbol is no wrap. -/
theorem unwrap_mute (hmute : m.Mute (.symbol .tag) o) (hnone : m.wrapOf? o = none) :
    ((unwrap o).run call).run m = (none, m) :=
  unwrap_gives hnone hmute.getProperty_gives

/-- The value is not the object of a wrap. -/
def NoWrap (v : Value) (m : Machine) : Prop := v.object?.bind m.wrapOf? = none

/-- What throws, or answers with anything but the object of a wrap, is no wrap. -/
theorem unwrap_evading (hanswers : AnswersOnly NoWrap call m (.symbol .tag) o)
    (hnone : m.wrapOf? o = none) : ∃ m', ((unwrap o).run call).run m = (none, m') := by
  obtain hhalts | ⟨v, m', hgives, hv⟩ := hanswers m.chainLimit (.object o)
  · exact unwrap_halts hnone (Gives.get.bind_halts hhalts)
  · have hunwrap := unwrap_gives hnone (Gives.get.bind hgives)
    rw [NoWrap] at hv
    rw [hv] at hunwrap
    exact ⟨m', hunwrap⟩

/-- The host value is taken that an object is recognized as, if it is of the type. -/
theorem toHost_unwrapped (hunwrap : ((unwrap o).run call).run m = (some w, m))
    (hvalue : (m.wraps.wrap? w).bind (·.value) = some r) (htype : (m.heap.typeOf r).same type = true) :
    Succeeds call m (toHost type (.object o)) r m := by
  have hbehind : ((unwrapValue o).run call).run m = (some r, m) := by
    unfold unwrapValue
    rw [run_bind_eq hunwrap]
    exact congrArg (·, m) hvalue
  cases type with
  | table key yield => cases yield <;> exact heldOr_held rfl hbehind htype
  | _ => exact heldOr_held rfl hbehind htype

/-! ### Machines on which every object is told apart -/

/-- The private symbol is no key of any object, and every proxy is that of a live value, has no method for
reading, or never answers to the symbol with the object of a wrap: it may throw. -/
structure Machine.Civil (m : Machine) (call : Caller) : Prop where
  guarded : m.Guarded
  untagged : ∀ o, (m.object o).own? (.symbol .tag) = none
  proxies : ∀ p target handler, (m.object p).kind = .proxy target handler →
    (∃ target r mask, m.Proxies p target r mask) ∨
      handler ≠ Intrinsic.bridge ∧ m.Mute (.name "get") handler ∨
        AnswersOnly NoWrap call m (.symbol .tag) p

/-- What an object is recognized as. -/
structure Recognizes (call : Caller) (m : Machine) (o : ObjectId) : Prop where
  wrap : ∀ w, m.wrapOf? o = some w → ((unwrap o).run call).run m = (some w, m)
  /-- A stack of layers over a live proxy, or the proxy itself, is its wrap. -/
  live : ∀ p target r mask, m.Proxies p target r mask → m.Stack (.symbol .tag) o p →
    m.wrapOf? o = none → ∃ w, m.wrapOf? target = some w ∧ (m.wraps.wrap? w).bind (·.value) = some r ∧
      ((unwrap o).run call).run m = (some w, m)
  /-- A stack of one layer or more over a bare token is no wrap. -/
  token : ∀ b w, m.wrapOf? b = some w → m.Mute (.symbol .tag) b →
    Relation.TransGen (m.Layer (.symbol .tag)) o b → m.wrapOf? o = none →
      ((unwrap o).run call).run m = (none, m)
  /-- Nothing else is a wrap, and whatever is thrown is caught. -/
  other : m.wrapOf? o = none →
    (∀ p target r mask, m.Proxies p target r mask → ¬ m.Stack (.symbol .tag) o p) →
      ∃ m', ((unwrap o).run call).run m = (none, m')
  /-- What is recognized is converted to the host value itself. -/
  converted : ∀ w r type, ((unwrap o).run call).run m = (some w, m) →
    (m.wraps.wrap? w).bind (·.value) = some r → (m.heap.typeOf r).same type = true →
      Succeeds call m (toHost type (.object o)) r m

/-- Every object is recognized as what it stands over, and nothing else is. -/
theorem Machine.Civil.recognizes (h : m.Civil (invoke (n + 1))) (o : ObjectId) :
    Recognizes (invoke (n + 1)) m o where
  wrap _ hw := unwrap_wrap hw
  live _ _ _ _ hp hstack hnone := by
    obtain ⟨w, hw, hvalue⟩ := hp.wraps.wrapOf?_eq
    exact ⟨w, hw, hvalue, hw ▸ unwrap_stack h.guarded hp hstack hnone n⟩
  token _ _ _ hmute hstack hnone := unwrap_mute (Engine.Stack.mute hstack.to_reflTransGen hmute) hnone
  other hnone hstack := by
    have hundefined : NoWrap .undefined m := rfl
    obtain ⟨p, ⟨target, r, mask, hp⟩, ho⟩ | hanswers :=
      stack_or_answersOnly hundefined h.untagged h.proxies o
    · exact absurd ho (hstack p target r mask hp)
    · exact unwrap_evading hanswers hnone
  converted _ _ _ := toHost_unwrapped

/-! ### At the symbol -/

/-- What the methods answer at the private symbol: it is not there, and there is no way to set it. The keys
are names only. -/
structure Conceals (call : Caller) (m : Machine) (target : ObjectId) (rest : List Value) : Prop where
  has : Succeeds call m (Trap.has.perform (.object target :: (Key.symbol .tag).value :: rest))
    (.bool false) m
  describe : Succeeds call m (Trap.describe.perform (.object target :: (Key.symbol .tag).value :: rest))
    .undefined m
  set : Throws call m (Trap.set.perform (.object target :: (Key.symbol .tag).value :: rest))
    (.refused .symbolKey) m
  list : ∃ names : List String,
    Becomes m (Trap.list.perform (.object target :: rest)) m (liftM (listOfNames names))

theorem Machine.Wraps.conceals (hw : m.Wraps target r mask) (call : Caller) (rest : List Value) :
    Conceals call m target rest := by
  have hreceiver := hw.receiver
  constructor
  case has =>
    refine (Trap.perform_eq .has target (.symbol .tag) rest).succeeds (.bind (v := false) ?_ .pure)
    unfold hostHas
    refine .get_bind ?_
    rw [hreceiver]
    rfl
  case describe =>
    refine (Trap.perform_eq .describe target (.symbol .tag) rest).succeeds (.bind (v := none) ?_ .pure)
    unfold hostProperty
    refine .get_bind ?_
    rw [hreceiver]
    rfl
  case set =>
    refine (Trap.perform_eq .set target (.symbol .tag) rest).throws (.bind ?_)
    unfold hostSet
    refine .get_bind ?_
    rw [hreceiver]
    rfl
  case list => exact ⟨_, Trap.list_becomes m target rest⟩

/-! ### Questions and assignments -/

/-- Whether the action succeeds or throws, settled objects stay as they are. -/
def KeepsObjects (call : Caller) (m : Machine) (a : Action α) : Prop :=
  m.toEngine.Keeps (fun _ => True) ((a.run.run call).run m).2.toEngine

theorem KeepsObjects.of_succeeds {a : Action α} {x : α} (ha : Succeeds call m a x m')
    (hkeeps : m.toEngine.Keeps (fun _ => True) m'.toEngine) : KeepsObjects call m a := by
  rwa [KeepsObjects, ha]

theorem KeepsObjects.of_leaves {a : Action α} (ha : Leaves Machine.toEngine call m a) :
    KeepsObjects call m a := by
  rw [KeepsObjects, show (_ : Machine).toEngine = _ from ha]
  exact .refl _

/-- The array of the keys is new. -/
theorem Trap.list_keeps (hfills : m.Fills limit) (hlimit : limit ≤ m.objects.size) (target : ObjectId)
    (rest : List Value) : KeepsObjects call m (Trap.list.perform (.object target :: rest)) := by
  obtain ⟨e, hlist, hkeeps⟩ := listOfNames_runs hfills hlimit
    (((m.receiver? target).map (shownNames m.heap)).getD [])
  have hsucceeds : Succeeds call m (Trap.list.perform (.object target :: rest))
      (.object m.objects.size) ⟨e, m.toBridge⟩ :=
    (Trap.list_becomes m target rest).succeeds (.routine (hlist call m.toBridge))
  exact .of_succeeds hsucceeds hkeeps

/-- So is the description of a property, and all that is shown in it. -/
theorem Trap.describe_keeps (hh : m.heap.WellTyped) (hclear : m.Clear limit)
    (hlimit : limit ≤ m.objects.size) (hw : m.Wraps target r mask)
    (hlive : WrapKind.of (m.heap.typeOf r) ≠ .bare) (k : Key) (rest : List Value) :
    KeepsObjects call m (Trap.describe.perform (.object target :: k.value :: rest)) := by
  by_cases hk : k.WellFormed
  · have hasked := m.asked_eq (m.front r mask) k
    have hproperty := hostProperty_denoted hw hlive hk
    cases hfound : (m.denoted (m.front r mask) k).sight? with
    | none =>
        refine .of_succeeds (Trap.describe_missing hw hlive hk call rest hfound) ?_
        rw [hasked]
        exact .refl _
    | some s =>
        rw [hfound, hasked] at hproperty
        obtain ⟨v, m₁, hshow, hkeeps, -⟩ := showSight_enrolls
          (m := { m with offsets := (m.asked (m.front r mask) k).offsets }) hh hclear.fills hlimit call
          mask s
        obtain ⟨e, hdescribe, hmade⟩ := describePlain_runs
          (hclear.keeps (hkeeps.mono fun _ _ _ => trivial) hlimit)
          (Nat.le_trans hlimit hkeeps.size_le) v
        have hsucceeds : Succeeds call m (describe.perform (.object target :: k.value :: rest))
            (.object m₁.objects.size) ⟨e, m₁.toBridge⟩ :=
          (perform_eq .describe target k rest).succeeds
            (.bind (hproperty.succeeds (.bind hshow .pure)) (.routine (hdescribe call m₁.toBridge)))
        exact .of_succeeds hsucceeds (hkeeps.trans hmade.keeps)
  · obtain ⟨u, rfl⟩ : ∃ u, k = .string (.illFormed u) := by simpa [Key.WellFormed] using hk
    exact .of_leaves (.of_throws (Trap.perform_illFormed hw.receiver call u rest (by simp)) rfl)

/-- A live value is asked whether it has a property, for its keys or for a description, or a property is
assigned. An assignment of an object may call functions of the script, which leave the objects as they
are. -/
inductive Asks (call : Caller) (m : Machine) : Trap → List Value → Prop
  | has (arguments : List Value) : Asks call m .has arguments
  | list (target : ObjectId) (rest : List Value) : Asks call m .list (.object target :: rest)
  | describe {target : ObjectId} {r : Ref} {mask : Mask} (hw : m.Wraps target r mask)
      (hlive : WrapKind.of (m.heap.typeOf r) ≠ .bare) (k : Key) (rest : List Value) :
      Asks call m .describe (.object target :: k.value :: rest)
  | set {arguments : List Value} (h : (argument arguments 2).object? = none ∨
      KeepsObjects call m (Trap.set.perform arguments)) : Asks call m .set arguments

theorem Asks.keepsObjects (h : Asks call m t arguments) (hh : m.heap.WellTyped) (hclear : m.Clear limit)
    (hlimit : limit ≤ m.objects.size) : KeepsObjects call m (t.perform arguments) := by
  cases h with
  | has => exact .of_leaves (Trap.has_leaves (fun _ _ _ => rfl) _)
  | list target rest => exact Trap.list_keeps hclear.fills hlimit target rest
  | describe hw hlive k rest => exact Trap.describe_keeps hh hclear hlimit hw hlive k rest
  | set h => exact h.elim (fun hv => .of_leaves (Trap.set_leaves hv)) id

/-- One machine becomes the other by a question or an assignment. -/
def Machine.Turns (call : Caller) (m m' : Machine) : Prop :=
  ∃ t arguments, Asks call m t arguments ∧ m' = (((t.perform arguments).run.run call).run m).2

/-- What questions and assignments leave as it is. -/
structure Machine.Upholds (m m' : Machine) : Prop where
  sound : m'.Sound
  engine : m.toEngine.Keeps (fun _ => True) m'.toEngine
  heap : m.heap.Extends m'.heap
  wraps : m.wraps.Gains m'.wraps

theorem Machine.Turns.upholds (h : m.Turns (invoke n) m') (hm : m.Sound) (hclear : m.Clear limit)
    (hlimit : limit ≤ m.objects.size) : m.Upholds m' := by
  obtain ⟨t, arguments, hasks, rfl⟩ := h
  have hcall := invoke_lawful (.ofMasks fun _ => True) 0 n
  have hwrites : Writes (.ofMasks fun _ => True) False 0 (invoke n) m.toEngine m.toBridge m.toBridge
      (t.perform arguments) (t.perform arguments) _ := trap_writes hcall hm.kin t arguments
  exact ⟨hwrites.alike.twins, hasks.keepsObjects hm.heap.left hclear hlimit, hwrites.leads.grows,
    hwrites.leads.wraps⟩

/-- So do any number of them. -/
theorem Machine.Sound.upholds (hm : m.Sound) (hclear : m.Clear limit) (hlimit : limit ≤ m.objects.size)
    (h : Relation.ReflTransGen (Machine.Turns (invoke n)) m m') : m.Upholds m' := by
  induction h with
  | refl => exact ⟨hm, .refl _, .refl _, .refl _⟩
  | tail _ hturn ih =>
      have hstep := hturn.upholds ih.sound
        (hclear.keeps (ih.engine.mono fun _ _ _ => trivial) hlimit)
        (Nat.le_trans hlimit ih.engine.size_le)
      exact ⟨hstep.sound, ih.engine.trans hstep.engine, ih.heap.trans hstep.heap,
        ih.wraps.trans hstep.wraps⟩

/-! ### What lasts -/

namespace Machine.Upholds

variable (h : m.Upholds m')

include h

/-- What is neither plain nor still to be made stays as it is. -/
theorem object_eq {kind : ObjectKind} (hkind : (m.object o).kind = kind) (hplain : kind ≠ .ordinary)
    (hmade : ∀ owner, kind ≠ .unmade owner) : m'.object o = m.object o := by
  have ho : o < m.objects.size := by
    refine Engine.lt_size_of_ne fun hdefault => hplain ?_
    rw [← hkind, hdefault]
    rfl
  exact h.engine.object_eq o ho trivial fun owner => hkind ▸ hmade owner

/-- The object of a wrap is still that. -/
theorem wrapOf?_eq (hw : m.wrapOf? o = some w) : m'.wrapOf? o = some w := by
  have hkind : (m.object o).kind = .wrap w := by
    unfold Machine.wrapOf? at hw
    split at hw
    next => rw [← Option.some.inj hw]; assumption
    next => cases hw
  have heq := h.object_eq hkind (fun hplain => by cases hplain) (fun _ hunmade => by cases hunmade)
  rwa [Machine.wrapOf?, heq]

theorem wraps_of (hm : m.Sound) (hw : m.Wraps target r mask) : m'.Wraps target r mask := by
  obtain ⟨w, state, htarget, hwrap⟩ := hw.holds
  obtain ⟨state', hwrap'⟩ := h.wraps.wrap?_eq hwrap
  have heq := h.engine.object_eq target hw.lt trivial (htarget ▸ nofun)
  have hr : r < m.heap.cells.size := (hm.wraps w _ hwrap).2 r rfl
  refine ⟨Nat.lt_of_lt_of_le hw.lt h.engine.size_le, w, state', heq.trans htarget, ?_⟩
  rw [hwrap', h.heap.typeOf_eq r hr]

theorem proxies_of (hm : m.Sound) (hp : m.Proxies p target r mask) : m'.Proxies p target r mask := by
  have heq := h.object_eq hp.kind (fun hplain => by cases hplain) (fun _ hunmade => by cases hunmade)
  exact ⟨heq ▸ hp.kind, h.wraps_of hm hp.wraps⟩

theorem guarded_of (hguarded : m.Guarded) : m'.Guarded := by
  have hmethod := hguarded.method
  have hthere : Intrinsic.bridge < m.objects.size := by
    refine Engine.lt_size_of_ne fun hdefault => ?_
    obtain ⟨g, c, w, en, d, -, hown, -⟩ := hmethod
    rw [hdefault] at hown
    cases hown
  have heq := h.engine.object_eq _ hthere trivial hguarded.settled
  obtain ⟨g, c, w, en, d, hg, hrest⟩ :=
    hmethod.keeps (h.engine.mono fun _ _ _ => trivial) (Nat.le_refl _) heq
  exact ⟨heq ▸ hguarded.handler, heq ▸ hguarded.settled, g, c, w, en, d,
    Nat.lt_of_lt_of_le hg h.engine.size_le, hrest⟩

end Machine.Upholds

/-- What objects are recognized as on the first machine, they still are on the second one. -/
structure Lasts (call : Caller) (m m' : Machine) : Prop where
  wrap : ∀ o w, m.wrapOf? o = some w → ((unwrap o).run call).run m' = (some w, m')
  proxy : ∀ p target r mask, m.Proxies p target r mask →
    ((unwrap p).run call).run m' = (m.wrapOf? target, m')
  /-- Objects of the script that are only promised may be made on the way. -/
  stack : m.Whole → ∀ o p target r mask, m.Proxies p target r mask → m.Stack (.symbol .tag) o p →
    m.wrapOf? o = none → ((unwrap o).run call).run m' = (m.wrapOf? target, m')
  mute : m.Whole → ∀ o < m.objects.size, m.Mute (.symbol .tag) o → m.wrapOf? o = none →
    ((unwrap o).run call).run m' = (none, m')
  /-- Wraps go on to hold their values. -/
  value : ∀ w r, (m.wraps.wrap? w).bind (·.value) = some r → (m'.wraps.wrap? w).bind (·.value) = some r

theorem Machine.Upholds.lasts (h : m.Upholds m') (hm : m.Sound) (hguarded : m.Guarded) :
    Lasts (invoke (n + 1)) m m' := by
  have hrecognized (o p target : ObjectId) (r : Ref) (mask : Mask) (hp : m.Proxies p target r mask)
      (hstack : m'.Stack (.symbol .tag) o p) (hnone : m'.wrapOf? o = none) :
      ((unwrap o).run (invoke (n + 1))).run m' = (m.wrapOf? target, m') := by
    obtain ⟨w, hw, -⟩ := hp.wraps.wrapOf?_eq
    have hunwrap := unwrap_stack (h.guarded_of hguarded) (h.proxies_of hm hp) hstack hnone n
    rwa [h.wrapOf?_eq hw, ← hw] at hunwrap
  have hunattached (hwhole : m.Whole) {o : ObjectId} (ho : o < m.objects.size)
      (hnone : m.wrapOf? o = none) : m'.wrapOf? o = none := by
    rwa [Machine.wrapOf?, h.engine.object_eq o ho trivial (hwhole.settled o)]
  constructor
  case wrap => exact fun o w hw => unwrap_wrap (h.wrapOf?_eq hw)
  case proxy =>
    intro p target r mask hp
    refine hrecognized p p target r mask hp .refl ?_
    rw [Machine.wrapOf?, (h.proxies_of hm hp).kind]
  case stack =>
    intro hwhole o p target r mask hp hstack hnone
    have ho := hstack.lt_size (Engine.High.front hp.kind).lt_size
    exact hrecognized o p target r mask hp (hstack.keeps hwhole h.engine) (hunattached hwhole ho hnone)
  case mute =>
    exact fun hwhole o ho hmute hnone =>
      unwrap_mute (hmute.keeps hwhole h.engine ho) (hunattached hwhole ho hnone)
  case value =>
    intro w r hvalue
    obtain ⟨wrap, hwrap, hr⟩ := Option.bind_eq_some_iff.mp hvalue
    obtain ⟨state, hwrap'⟩ := h.wraps.wrap?_eq hwrap
    rw [hwrap']
    exact hr

/-! ### Recognition -/

/-- Objects are recognized as what they stand over, the methods do not tell of the symbol, and nothing of
that changes as a script asks and assigns. -/
structure Recognition (call : Caller) (m : Machine) : Prop where
  recognizes : ∀ o, Recognizes call m o
  conceals : ∀ target r mask, m.Wraps target r mask → ∀ rest, Conceals call m target rest
  lasts : ∀ limit ≤ m.objects.size, m.Sound → m.Clear limit → ∀ m',
    Relation.ReflTransGen (Machine.Turns call) m m' → Lasts call m m'

/-- The objects of the bridge, and no others, are recognized, through any layers. -/
theorem objects_recognized (h : m.Civil (invoke (n + 1))) : Recognition (invoke (n + 1)) m where
  recognizes := h.recognizes
  conceals _ _ _ hw := hw.conceals _
  lasts _ hlimit hm hclear _ hturns := (hm.upholds hclear hlimit hturns).lasts hm h.guarded

/-! ### Layers over a memo -/

/-- A script has been shown a memo and handed a token. There are a transparent proxy before the memo, an
object that inherits from that and one that inherits from the token, and a proxy whose handler has no
function for its method. -/
def layersMachine : Machine :=
  let plain : Object := ⟨.ordinary, some Intrinsic.object, true, []⟩
  ⟨{ portEngine [] with
      objects := (portEngine []).objects ++
        #[⟨.wrap 1, some Intrinsic.wrap, true, []⟩, ⟨.proxy 12 Intrinsic.bridge, none, true, []⟩,
          plain, ⟨.proxy 13 14, none, true, []⟩, { plain with proto := some 15 },
          { plain with proto := some 4 }, { plain with properties := [(.name "get", .plain (.bool true))] },
          ⟨.proxy 14 18, none, true, []⟩, { plain with proto := some 19 }] },
    { Bridge.start memoHeap with
      wraps := ⟨#[⟨some 0, .all, .bare, .live⟩, ⟨some 1, .all, .record, .live⟩], true, 2, 0⟩ }⟩

theorem layersMachine_sound : layersMachine.Sound :=
  Machine.sound_iff.mpr ⟨memoHeap_wellTyped, by decide, nofun, IntegerCache.exact_empty⟩

theorem layersMachine_clear : layersMachine.Clear 12 :=
  portEngine_bare.clear.keeps (.append _) (Nat.le_refl _)

theorem layersMachine_proxies : layersMachine.Proxies 13 12 1 .all :=
  ⟨rfl, by decide, 1, .live, rfl, rfl⟩

theorem layersMachine_mute : layersMachine.Mute (.name "get") 14 :=
  .heir rfl rfl rfl (.last rfl rfl rfl)

theorem layersMachine_proxy {o q handler : ObjectId}
    (hkind : (layersMachine.object o).kind = .proxy q handler) : o = 13 ∨ o = 15 ∨ o = 19 := by
  have hlt : o < 21 := Engine.lt_size_of_ne fun hdefault => by rw [hdefault] at hkind; cases hkind
  have hproxies : ∀ o < 21, (layersMachine.object o).isProxy = true → o = 13 ∨ o = 15 ∨ o = 19 := by
    decide
  exact hproxies o hlt (Engine.High.isProxy_eq hkind)

/-- The method is found and cannot be called. -/
theorem layersMachine_hostile (call : Caller) :
    AnswersOnly NoWrap call layersMachine (.symbol .tag) 19 := by
  intro fuel receiver
  cases fuel with
  | zero => exact .inl (getFrom_zero_halts _ _ _)
  | succ fuel =>
      refine .inl ?_
      rw [getFrom]
      refine (getObject_gives 19).bind_halts ?_
      cases fuel with
      | zero => exact (getFrom_zero_halts (.object 18) 18 (.name "get")).bind
      | succ fuel =>
          have hmethod : Gives call layersMachine (getFrom (fuel + 1) (.object 18) 18 (.name "get"))
              (.bool true) layersMachine := getFrom_own rfl rfl (.of_object? rfl)
          exact hmethod.bind_halts ⟨_, _, rfl⟩

theorem layersMachine_civil (call : Caller) : layersMachine.Civil call where
  guarded := ⟨rfl, nofun, 1, false, true, true, true, by decide, rfl, rfl⟩
  untagged := Engine.forall_object (P := fun x => x.own? (.symbol .tag) = none) (by decide) rfl
  proxies p target handler hkind := by
    obtain rfl | rfl | rfl := layersMachine_proxy hkind
    · exact .inl ⟨12, 1, .all, layersMachine_proxies⟩
    · cases hkind
      exact .inr (.inl ⟨nofun, layersMachine_mute⟩)
    · exact .inr (.inr (layersMachine_hostile call))

theorem layersMachine_stack : layersMachine.Stack (.symbol .tag) 16 13 :=
  .head (.heir rfl rfl rfl) (.single (.layer rfl nofun layersMachine_mute))

/-- The proxy that throws stands over nothing. -/
theorem layersMachine_stackless (hp : layersMachine.Proxies p target r mask) :
    ¬ layersMachine.Stack (.symbol .tag) 20 p := by
  intro hstack
  have hkind := hp.kind
  obtain rfl | ⟨q, hlayer, hrest⟩ := hstack.cases_head
  · cases hkind
  cases hlayer with
  | layer hkind' => cases hkind'
  | heir _ _ hproto =>
      obtain rfl : 19 = q := Option.some.inj hproto
      obtain rfl | ⟨q, hlayer', -⟩ := hrest.cases_head
      · cases hkind
      cases hlayer' with
      | heir hproxy => cases hproxy
      | layer hkind' _ hhandler =>
          cases hkind'
          cases hhandler with
          | last _ hown | heir _ hown => cases hown
          | layer hkind' => cases hkind'

theorem layersMachine_whole : layersMachine.Whole where
  settled := Engine.forall_object (P := Object.Settled) (by decide) nofun
  inherits := Engine.forall_object (P := fun x => ∀ q, x.proto = some q → q < 21) (by decide) nofun
  before o q handler hkind := by
    obtain rfl | rfl | rfl := layersMachine_proxy hkind <;> cases hkind <;> decide

/-- Two layers over the memo are the memo, before and after any questions and assignments; a layer over the
token is nothing, and neither is one over what throws. -/
theorem objects_recognized_layers :
    let m := layersMachine
    let call := invoke 9
    m.Civil call ∧ m.Sound ∧ m.Clear 12 ∧
      ((unwrap 16).run call).run m = (some 1, m) ∧
      Succeeds call m (toHost (memoHeap.typeOf 1) (.object 16)) 1 m ∧
      ((unwrap 4).run call).run m = (some 0, m) ∧ ((unwrap 17).run call).run m = (none, m) ∧
      (∃ m', ((unwrap 20).run call).run m = (none, m')) ∧
      Conceals call m 12 [] ∧
      ∀ m', Relation.ReflTransGen (Machine.Turns call) m m' →
        ((unwrap 16).run call).run m' = (some 1, m') ∧ ((unwrap 17).run call).run m' = (none, m') := by
  intro m call
  have hrecognition : Recognition call m := objects_recognized (n := 8) (layersMachine_civil call)
  have hrecognized (o : ObjectId) := hrecognition.recognizes o
  obtain ⟨w, hw, -, hmemo⟩ :=
    (hrecognized 16).live 13 12 1 .all layersMachine_proxies layersMachine_stack rfl
  obtain rfl : 1 = w := Option.some.inj hw
  have htoken : m.Mute (.symbol .tag) 4 := .last rfl rfl rfl
  have hlayer : m.Layer (.symbol .tag) 17 4 := .heir rfl rfl rfl
  refine ⟨layersMachine_civil call, layersMachine_sound, layersMachine_clear, hmemo, ?_, ?_, ?_, ?_, ?_,
    ?_⟩
  · exact (hrecognized 16).converted 1 1 _ hmemo rfl rfl
  · exact (hrecognized 4).wrap 0 rfl
  · exact (hrecognized 17).token 4 0 rfl htoken (.single hlayer) rfl
  · exact (hrecognized 20).other rfl fun _ _ _ _ hp => layersMachine_stackless hp
  · exact hrecognition.conceals 12 1 .all layersMachine_proxies.wraps []
  · intro m' hturns
    have hlasts := hrecognition.lasts 12 (by decide) layersMachine_sound layersMachine_clear m' hturns
    exact ⟨hlasts.stack layersMachine_whole 16 13 12 1 .all layersMachine_proxies layersMachine_stack rfl,
      hlasts.mute layersMachine_whole 17 (by decide) (Engine.Stack.mute (.single hlayer) htoken) rfl⟩

/-- All objects inherit a method for reading, which assigns instead. Another plain object stands behind a
transparent proxy. -/
def assigningMachine : Machine :=
  let engine := portEngine [(.name "get", .plain (.object 12))]
  ⟨{ engine with
      objects := engine.objects ++ #[⟨.function (.builtin (.reflect .write)) false, none, true, []⟩,
        ⟨.ordinary, some Intrinsic.object, true, []⟩, ⟨.proxy 13 5, none, true, []⟩] },
    { Bridge.start memoHeap with wraps := ⟨#[⟨some 0, .all, .bare, .live⟩], true, 1, 0⟩ }⟩

/-- The symbol is handed to that method when the bridge asks whether the proxy is a wrap: then it is a key of
the object behind. With it, a plain object is made to be recognized as a token. -/
theorem symbol_revealed :
    let m := assigningMachine
    let answer (m : Machine) (o : ObjectId) := (((unwrap o).run (invoke 9)).run m).1
    let keys (m : Machine) := (((ownKeys 13).run.run.run (invoke 9)).run m).1.toOption
    let m₁ := (((unwrap 14).run (invoke 9)).run m).2
    let m₂ := (((setProperty 6 (.symbol .tag) (.object 4)).run.run.run (invoke 9)).run m₁).2
    m.Sound ∧ (∀ o, (m.object o).own? (.symbol .tag) = none) ∧ m.wrapOf? 4 = some 0 ∧
      keys m = some [] ∧ answer m 14 = none ∧ keys m₁ = some [.symbol .tag] ∧
      answer m₁ 6 = none ∧ answer m₂ 6 = some 0 := by
  intro m answer keys m₁ m₂
  have hsound : m.Sound :=
    Machine.sound_iff.mpr ⟨memoHeap_wellTyped, by decide, nofun, IntegerCache.exact_empty⟩
  have huntagged : ∀ o, (m.object o).own? (.symbol .tag) = none :=
    Engine.forall_object (P := fun x => x.own? (.symbol .tag) = none) (by decide) rfl
  exact ⟨hsound, huntagged, rfl, by decide +kernel, by decide +kernel, by decide +kernel,
    by decide +kernel, by decide +kernel⟩

end HostView.Script
