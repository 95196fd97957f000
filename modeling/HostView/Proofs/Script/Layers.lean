import HostView.Exposure.Receiver
import HostView.Proofs.Script.Proxies
import Mathlib.Data.Fintype.Card
import Mathlib.Logic.Relation

/-! # Layers of objects

An object that inherits from another one, and a proxy that answers nothing itself, pass a question on. A
stack of such layers asks what stands at its bottom. The engine bounds its steps by the number of objects:
no question that comes to rest takes more, since along its way every object is less high than the one
before.
-/

namespace HostView.Script

variable {call : Caller} {m m' : Machine} {e e' : Engine} {o p q handler : ObjectId} {k : Key}
  {v receiver : Value} {n l fuel : Nat}

/-! ### Heights -/

/-- How high an object stands above where questions to it come to rest: an object without a prototype, or
a proxy of the bridge, whose handler is asked. A proxy is higher than its handler, too. -/
inductive Engine.High (e : Engine) : Nat → ObjectId → Prop
  | last {o : ObjectId} (hproxy : (e.object o).isProxy = false) (hproto : (e.object o).proto = none) :
      e.High 0 o
  | heir {n : Nat} {o q : ObjectId} (hproxy : (e.object o).isProxy = false)
      (hproto : (e.object o).proto = some q) (hrest : e.High n q) : e.High (n + 1) o
  | front {o target : ObjectId} (hkind : (e.object o).kind = .proxy target Intrinsic.bridge) :
      e.High 1 o
  | layer {l n : Nat} {o q handler : ObjectId} (hkind : (e.object o).kind = .proxy q handler)
      (hother : handler ≠ Intrinsic.bridge) (hhandler : e.High l handler) (hrest : e.High n q) :
      e.High (max l n + 1) o

namespace Engine.High

theorem isProxy_eq {target : ObjectId} (hkind : (e.object o).kind = .proxy target handler) :
    (e.object o).isProxy = true := by
  rw [Object.isProxy, hkind]

/-- An object has one height only. -/
theorem unique {n' : Nat} (h : e.High n o) (h' : e.High n' o) : n = n' := by
  induction h generalizing n' with
  | last hproxy hproto =>
      cases h' with
      | last => rfl
      | heir _ hproto' => cases hproto.symm.trans hproto'
      | front hkind | layer hkind => cases hproxy.symm.trans (isProxy_eq hkind)
  | heir hproxy hproto _ ih =>
      cases h' with
      | last _ hproto' => cases hproto.symm.trans hproto'
      | heir _ hproto' hrest =>
          cases hproto.symm.trans hproto'
          rw [ih hrest]
      | front hkind | layer hkind => cases hproxy.symm.trans (isProxy_eq hkind)
  | front hkind =>
      cases h' with
      | last hproxy | heir hproxy => cases hproxy.symm.trans (isProxy_eq hkind)
      | front => rfl
      | layer hkind' hother =>
          cases hkind.symm.trans hkind'
          exact absurd rfl hother
  | layer hkind hother _ _ ihhandler ih =>
      cases h' with
      | last hproxy | heir hproxy => cases hproxy.symm.trans (isProxy_eq hkind)
      | front hkind' =>
          cases hkind.symm.trans hkind'
          exact absurd rfl hother
      | layer hkind' _ hhandler hrest =>
          cases hkind.symm.trans hkind'
          rw [ihhandler hhandler, ih hrest]

/-- What stands above something is an object of the engine. -/
theorem lt_size (h : e.High (n + 1) o) : o < e.objects.size := by
  refine Engine.lt_size_of_ne fun hdefault => ?_
  cases h with
  | heir _ hproto => rw [hdefault] at hproto; cases hproto
  | front hkind | layer hkind => rw [hdefault] at hkind; cases hkind

/-- Below an object there are objects of all heights that are less. -/
theorem exists_high (h : e.High n o) {i : Nat} (hi : i < n) : ∃ p, e.High (i + 1) p := by
  induction h with
  | last => exact absurd hi (Nat.not_lt_zero i)
  | heir hproxy hproto hrest ih =>
      obtain hlt | rfl := Nat.lt_succ_iff_lt_or_eq.mp hi
      · exact ih hlt
      · exact ⟨_, .heir hproxy hproto hrest⟩
  | front hkind =>
      obtain rfl := Nat.lt_one_iff.mp hi
      exact ⟨_, .front hkind⟩
  | @layer l n o q handler hkind hother hhandler hrest ihhandler ih =>
      obtain hlt | rfl := Nat.lt_succ_iff_lt_or_eq.mp hi
      · exact (lt_max_iff.mp hlt).elim ihhandler ih
      · exact ⟨o, .layer hkind hother hhandler hrest⟩

/-- No object is higher than there are objects. -/
theorem le_size (h : e.High n o) : n ≤ e.objects.size := by
  choose p hp using fun i : Fin n => h.exists_high i.isLt
  have hinjective : Function.Injective fun i : Fin n =>
      (⟨p i, (hp i).lt_size⟩ : Fin e.objects.size) := by
    intro i j hij
    have hsame : p i = p j := congrArg Fin.val hij
    have hheight := (hp i).unique (hsame ▸ hp j)
    exact Fin.ext (Nat.succ.inj hheight)
  simpa using Fintype.card_le_of_injective _ hinjective

end Engine.High

/-! ### Objects that are mute -/

/-- Nothing answers at the key: neither the object nor what it passes questions on to has a property there,
down to an object without a prototype. -/
inductive Engine.Mute (e : Engine) : Key → ObjectId → Prop
  | last {k : Key} {o : ObjectId} (hproxy : (e.object o).isProxy = false)
      (hown : (e.object o).own? k = none) (hproto : (e.object o).proto = none) : e.Mute k o
  | heir {k : Key} {o q : ObjectId} (hproxy : (e.object o).isProxy = false)
      (hown : (e.object o).own? k = none) (hproto : (e.object o).proto = some q)
      (hrest : e.Mute k q) : e.Mute k o
  | layer {k : Key} {o q handler : ObjectId} (hkind : (e.object o).kind = .proxy q handler)
      (hother : handler ≠ Intrinsic.bridge) (hhandler : e.Mute (.name "get") handler)
      (hrest : e.Mute k q) : e.Mute k o

theorem Engine.Mute.high (h : e.Mute k o) : ∃ n, e.High n o := by
  induction h with
  | last hproxy _ hproto => exact ⟨0, .last hproxy hproto⟩
  | heir hproxy _ hproto _ ih =>
      obtain ⟨n, hn⟩ := ih
      exact ⟨n + 1, .heir hproxy hproto hn⟩
  | layer hkind hother _ _ ihhandler ih =>
      obtain ⟨l, hl⟩ := ihhandler
      obtain ⟨n, hn⟩ := ih
      exact ⟨max l n + 1, .layer hkind hother hl hn⟩

/-! ### Questions that are passed on -/

/-- Questions come to rest with the answer, if the steps are enough. -/
def Rests (call : Caller) (m : Machine) (receiver : Value) (o : ObjectId) (k : Key) (v : Value)
    (m' : Machine) : Prop :=
  ∀ n fuel, m.High n o → n < fuel → Gives call m (getFrom fuel receiver o k) v m'

/-- What an object lacks is asked of its prototype. -/
theorem Rests.heir (hproxy : (m.object o).isProxy = false) (hown : (m.object o).own? k = none)
    (hproto : (m.object o).proto = some q) (h : Rests call m receiver q k v m') :
    Rests call m receiver o k v m' := by
  intro n fuel hhigh hfuel
  cases hhigh with
  | last _ hproto' => cases hproto.symm.trans hproto'
  | heir _ hproto' hrest =>
      cases hproto.symm.trans hproto'
      obtain ⟨fuel, rfl⟩ := Nat.exists_eq_succ_of_ne_zero (Nat.ne_zero_of_lt hfuel)
      refine getFrom_inherited hproxy hown ?_
      rw [hproto]
      exact h _ _ hrest (Nat.lt_of_succ_lt_succ hfuel)
  | front hkind | layer hkind => cases hproxy.symm.trans (Engine.High.isProxy_eq hkind)

/-- A proxy whose handler has no method for reading asks what it stands before. -/
theorem Rests.layer (hkind : (m.object o).kind = .proxy q handler) (hother : handler ≠ Intrinsic.bridge)
    (hmethod : Rests call m (.object handler) handler (.name "get") .undefined m)
    (h : Rests call m receiver q k v m') : Rests call m receiver o k v m' := by
  intro n fuel hhigh hfuel
  cases hhigh with
  | last hproxy | heir hproxy => cases hproxy.symm.trans (Engine.High.isProxy_eq hkind)
  | front hkind' =>
      cases hkind.symm.trans hkind'
      exact absurd rfl hother
  | layer hkind' _ hhandler hrest =>
      cases hkind.symm.trans hkind'
      obtain ⟨fuel, rfl⟩ := Nat.exists_eq_succ_of_ne_zero (Nat.ne_zero_of_lt hfuel)
      obtain ⟨hl, hn⟩ := max_lt_iff.mp (Nat.lt_of_succ_lt_succ hfuel)
      rw [getFrom]
      refine .bind (getObject_gives o) ?_
      rw [hkind]
      exact .bind (hmethod _ _ hhandler hl) (h _ _ hrest hn)

/-- The steps that the engine takes are enough. -/
theorem Rests.getProperty_gives (h : Rests call m (.object o) o k v m') (hhigh : m.High n o) :
    Gives call m (getProperty o k) v m' :=
  .bind .get (h _ _ hhigh (Nat.lt_succ_of_le hhigh.le_size))

/-- What nothing answers at is undefined. -/
theorem Engine.Mute.rests (h : m.Mute k o) (receiver : Value) :
    Rests call m receiver o k .undefined m := by
  induction h generalizing receiver with
  | last hproxy hown hproto =>
      intro n fuel _ hfuel
      obtain ⟨fuel, rfl⟩ := Nat.exists_eq_succ_of_ne_zero (Nat.ne_zero_of_lt hfuel)
      refine getFrom_inherited hproxy hown ?_
      rw [hproto]
      exact .pure
  | heir hproxy hown hproto _ ih => exact .heir hproxy hown hproto (ih receiver)
  | layer hkind hother _ _ ihhandler ih => exact .layer hkind hother (ihhandler _) (ih receiver)

theorem Engine.Mute.getProperty_gives (h : m.Mute k o) :
    Gives call m (getProperty o k) .undefined m := by
  obtain ⟨n, hn⟩ := h.high
  exact (h.rests _).getProperty_gives hn

/-! ### Stacks -/

/-- One object is a layer over another one at a key: it inherits from it and has no such property itself,
or is a proxy before it whose handler has no method for reading. -/
inductive Engine.Layer (e : Engine) (k : Key) : ObjectId → ObjectId → Prop
  | heir {o q : ObjectId} (hproxy : (e.object o).isProxy = false) (hown : (e.object o).own? k = none)
      (hproto : (e.object o).proto = some q) : e.Layer k o q
  | layer {o q handler : ObjectId} (hkind : (e.object o).kind = .proxy q handler)
      (hother : handler ≠ Intrinsic.bridge) (hhandler : e.Mute (.name "get") handler) : e.Layer k o q

/-- A stack of layers, or none. -/
abbrev Engine.Stack (e : Engine) (k : Key) : ObjectId → ObjectId → Prop :=
  Relation.ReflTransGen (e.Layer k)

theorem Engine.Layer.lt_size (h : e.Layer k o q) : o < e.objects.size := by
  refine Engine.lt_size_of_ne fun hdefault => ?_
  cases h with
  | heir _ _ hproto => rw [hdefault] at hproto; cases hproto
  | layer hkind => rw [hdefault] at hkind; cases hkind

theorem Engine.Stack.lt_size (h : e.Stack k o p) (hp : p < e.objects.size) : o < e.objects.size := by
  obtain rfl | ⟨q, hlayer, -⟩ := h.cases_head
  · exact hp
  · exact hlayer.lt_size

/-- A stack over what is mute at the key is mute there. -/
theorem Engine.Stack.mute (h : e.Stack k o p) (hp : e.Mute k p) : e.Mute k o := by
  induction h using Relation.ReflTransGen.head_induction_on with
  | refl => exact hp
  | head hlayer _ ih =>
      cases hlayer with
      | heir hproxy hown hproto => exact .heir hproxy hown hproto ih
      | layer hkind hother hhandler => exact .layer hkind hother hhandler ih

theorem Engine.Stack.high (h : e.Stack k o p) (hp : e.High n p) : ∃ n, e.High n o := by
  induction h using Relation.ReflTransGen.head_induction_on with
  | refl => exact ⟨n, hp⟩
  | head hlayer _ ih =>
      obtain ⟨n, hn⟩ := ih
      cases hlayer with
      | heir hproxy _ hproto => exact ⟨n + 1, .heir hproxy hproto hn⟩
      | layer hkind hother hhandler =>
          obtain ⟨l, hl⟩ := hhandler.high
          exact ⟨max l n + 1, .layer hkind hother hl hn⟩

/-- A question to a stack is a question to what stands at its bottom. -/
theorem Engine.Stack.rests (h : m.Stack k o p) (hp : Rests call m receiver p k v m') :
    Rests call m receiver o k v m' := by
  induction h using Relation.ReflTransGen.head_induction_on with
  | refl => exact hp
  | head hlayer _ ih =>
      cases hlayer with
      | heir hproxy hown hproto => exact .heir hproxy hown hproto ih
      | layer hkind hother hhandler => exact .layer hkind hother (hhandler.rests _) ih

/-! ### Stacks through time -/

/-- No object is still to be made, and none inherits from a missing one or stands before one. -/
structure Engine.Whole (e : Engine) : Prop where
  settled : ∀ o, (e.object o).Settled
  inherits : ∀ o q, (e.object o).proto = some q → q < e.objects.size
  before : ∀ o q handler, (e.object o).kind = .proxy q handler →
    q < e.objects.size ∧ handler < e.objects.size

section

variable (hwhole : e.Whole) (hkeeps : e.Keeps (fun _ => True) e')

include hwhole hkeeps

theorem Engine.Mute.keeps (h : e.Mute k o) (ho : o < e.objects.size) : e'.Mute k o := by
  induction h with
  | @last k o hproxy hown hproto =>
      have heq := hkeeps.object_eq o ho trivial (hwhole.settled o)
      exact .last (heq ▸ hproxy) (heq ▸ hown) (heq ▸ hproto)
  | @heir k o q hproxy hown hproto _ ih =>
      have heq := hkeeps.object_eq o ho trivial (hwhole.settled o)
      exact .heir (heq ▸ hproxy) (heq ▸ hown) (heq ▸ hproto) (ih (hwhole.inherits o q hproto))
  | @layer k o q handler hkind hother _ _ ihhandler ih =>
      have heq := hkeeps.object_eq o ho trivial (hwhole.settled o)
      obtain ⟨hq, hhandler⟩ := hwhole.before o q handler hkind
      exact .layer (heq ▸ hkind) hother (ihhandler hhandler) (ih hq)

theorem Engine.Layer.keeps (h : e.Layer k o q) : e'.Layer k o q := by
  have heq := hkeeps.object_eq o h.lt_size trivial (hwhole.settled o)
  cases h with
  | heir hproxy hown hproto => exact .heir (heq ▸ hproxy) (heq ▸ hown) (heq ▸ hproto)
  | layer hkind hother hhandler =>
      have hthere := (hwhole.before o _ _ hkind).2
      exact .layer (heq ▸ hkind) hother (hhandler.keeps hwhole hkeeps hthere)

theorem Engine.Stack.keeps (h : e.Stack k o p) : e'.Stack k o p :=
  h.lift id fun _ _ hlayer => hlayer.keeps hwhole hkeeps

end

/-! ### Questions that throw -/

/-- The routine throws. -/
def Halts {ε α : Type} (call : Caller) (m : Machine) (r : ExceptT ε Turn α) : Prop :=
  ∃ fault m', (r.run.run.run call).run m = (.error fault, m')

theorem Gives.bind_halts {ε α β : Type} {r : ExceptT ε Turn α} {f : α → ExceptT ε Turn β} {a : α}
    (hr : Gives call m r a m') (hf : Halts call m' (f a)) : Halts call m (r >>= f) := by
  obtain ⟨fault, m₁, hrun⟩ := hf
  have hbind : ((r >>= f).run.run.run call).run m =
      (((ExceptT.bindCont f ((r.run.run.run call).run m).1).run.run call).run
        ((r.run.run.run call).run m).2) := rfl
  unfold Gives at hr
  rw [hr] at hbind
  exact ⟨fault, m₁, hbind.trans hrun⟩

theorem Halts.bind {ε α β : Type} {r : ExceptT ε Turn α} {f : α → ExceptT ε Turn β}
    (hr : Halts call m r) : Halts call m (r >>= f) := by
  obtain ⟨fault, m₁, hrun⟩ := hr
  have hbind : ((r >>= f).run.run.run call).run m =
      (((ExceptT.bindCont f ((r.run.run.run call).run m).1).run.run call).run
        ((r.run.run.run call).run m).2) := rfl
  rw [hrun] at hbind
  exact ⟨fault, m₁, hbind⟩

/-- The routine throws, or gives something as it is to be. -/
def ThrowsOr (P : Value → Machine → Prop) (call : Caller) (m : Machine) (r : Routine Value) : Prop :=
  Halts call m r ∨ ∃ v m', Gives call m r v m' ∧ P v m'

/-- However many steps are taken, reading the key throws or gives something as it is to be. -/
def AnswersOnly (P : Value → Machine → Prop) (call : Caller) (m : Machine) (k : Key) (o : ObjectId) :
    Prop :=
  ∀ fuel receiver, ThrowsOr P call m (getFrom fuel receiver o k)

theorem getFrom_zero_halts (receiver : Value) (o : ObjectId) (k : Key) :
    Halts call m (getFrom 0 receiver o k) := by
  rw [getFrom]
  exact ⟨_, _, rfl⟩

/-- What an object lacks is answered as its prototype answers it, or is undefined. -/
theorem getFrom_heir_throwsOr {P : Value → Machine → Prop} (hproxy : (m.object o).isProxy = false)
    (hown : (m.object o).own? k = none)
    (h : ThrowsOr P call m
      (match (m.object o).proto with
        | some q => getFrom fuel receiver q k
        | none => return .undefined)) : ThrowsOr P call m (getFrom (fuel + 1) receiver o k) := by
  obtain hhalts | ⟨v, m', hgives, hv⟩ := h
  · refine .inl ?_
    rw [getFrom]
    refine (getObject_gives o).bind_halts ?_
    split
    next target handler hkind => simp [Object.isProxy, hkind] at hproxy
    next => exact (findOwn_none hown).bind_halts ((getObject_gives o).bind_halts hhalts)
  · exact .inr ⟨v, m', getFrom_inherited hproxy hown hgives, hv⟩

/-- A proxy whose handler has no method for reading answers as what it stands before. -/
theorem getFrom_layer_throwsOr {P : Value → Machine → Prop}
    (hkind : (m.object o).kind = .proxy q handler)
    (hmethod : ThrowsOr (fun v m' => v = .undefined ∧ m' = m) call m
      (getFrom fuel (.object handler) handler (.name "get")))
    (h : ThrowsOr P call m (getFrom fuel receiver q k)) :
    ThrowsOr P call m (getFrom (fuel + 1) receiver o k) := by
  rw [getFrom]
  have hread : Gives call m (getObject o) (m.object o) m := getObject_gives o
  obtain hmethod | ⟨_, _, hmethod, rfl, rfl⟩ := hmethod
  · refine .inl (hread.bind_halts ?_)
    rw [hkind]
    exact hmethod.bind
  · obtain hhalts | ⟨v, m', hgives, hv⟩ := h
    · refine .inl (hread.bind_halts ?_)
      rw [hkind]
      exact hmethod.bind_halts hhalts
    · refine .inr ⟨v, m', hread.bind ?_, hv⟩
      rw [hkind]
      exact hmethod.bind hgives

/-- What nothing answers at is undefined, or the steps are not enough. -/
theorem Engine.Mute.answersOnly (h : m.Mute k o) :
    AnswersOnly (fun v m' => v = .undefined ∧ m' = m) call m k o := by
  intro fuel receiver
  induction h generalizing fuel receiver with
  | last hproxy hown hproto =>
      cases fuel with
      | zero => exact .inl (getFrom_zero_halts _ _ _)
      | succ fuel =>
          refine getFrom_heir_throwsOr hproxy hown ?_
          rw [hproto]
          exact .inr ⟨_, _, .pure, rfl, rfl⟩
  | heir hproxy hown hproto _ ih =>
      cases fuel with
      | zero => exact .inl (getFrom_zero_halts _ _ _)
      | succ fuel =>
          refine getFrom_heir_throwsOr hproxy hown ?_
          rw [hproto]
          exact ih fuel receiver
  | layer hkind hother _ _ ihhandler ih =>
      cases fuel with
      | zero => exact .inl (getFrom_zero_halts _ _ _)
      | succ fuel => exact getFrom_layer_throwsOr hkind (ihhandler fuel _) (ih fuel receiver)

/-- If no object has the key itself, and every proxy is a layer, one of the bottoms, or answers as it is to
be, then every object is a stack over a bottom or answers as it is to be. What goes round throws: the steps
do not last. -/
theorem stack_or_answersOnly {bottom : ObjectId → Prop} {P : Value → Machine → Prop}
    (hundefined : P .undefined m) (hown : ∀ o, (m.object o).own? k = none)
    (hproxies : ∀ p target handler, (m.object p).kind = .proxy target handler →
      bottom p ∨ handler ≠ Intrinsic.bridge ∧ m.Mute (.name "get") handler ∨ AnswersOnly P call m k p)
    (o : ObjectId) : (∃ p, bottom p ∧ m.Stack k o p) ∨ AnswersOnly P call m k o := by
  refine or_iff_not_imp_left.mpr fun hbottom fuel receiver => ?_
  induction fuel generalizing o receiver with
  | zero => exact .inl (getFrom_zero_halts _ _ _)
  | succ fuel ih =>
      -- what a layer asks stands over no bottom, since the layer would, too
      have hpassed {q : ObjectId} (hlayer : m.Layer k o q) :
          ThrowsOr P call m (getFrom fuel receiver q k) :=
        ih q (fun ⟨p, hp, hstack⟩ => hbottom ⟨p, hp, .head hlayer hstack⟩) receiver
      cases hproxy : (m.object o).isProxy with
      | false =>
          refine getFrom_heir_throwsOr hproxy (hown o) ?_
          cases hproto : (m.object o).proto with
          | none => exact .inr ⟨_, _, .pure, hundefined⟩
          | some q => exact hpassed (.heir hproxy (hown o) hproto)
      | true =>
          obtain ⟨target, handler, hkind⟩ : ∃ target handler,
              (m.object o).kind = .proxy target handler := by
            unfold Object.isProxy at hproxy
            split at hproxy
            next target handler hkind => exact ⟨target, handler, hkind⟩
            next => cases hproxy
          obtain hfront | ⟨hother, hhandler⟩ | hanswers := hproxies o target handler hkind
          · exact absurd ⟨o, hfront, .refl⟩ hbottom
          · exact getFrom_layer_throwsOr hkind (hhandler.answersOnly fuel _)
              (hpassed (.layer hkind hother hhandler))
          · exact hanswers (fuel + 1) receiver

end HostView.Script
