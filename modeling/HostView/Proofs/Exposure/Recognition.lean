import HostView.Exposure.Inbound
import HostView.Proofs.Script.Proxies
import HostView.Script.Eval

/-! # Live values recognized

The prototypes of plain objects and of arrays are intact as long as they let pass what the bridge
assigns to objects that it builds, and know nothing of its private symbol. Then the object of a live
value is recognized as such, by asking its handler, and no other object that the bridge built is
taken for one.
-/

namespace HostView.Script

variable {call : Caller} {m m' : Machine} {e e' : Engine} {o p target : ObjectId} {k : Key}
  {v : Value} {r : Ref} {w : WrapId} {limit n : Nat} {type : HostType}

/-! ### Intact prototypes -/

/-- The prototypes from which what the bridge builds inherits let it be built, and the handler of
live values answers. All this is among the objects below a bound. -/
structure Engine.Intact (e : Engine) (limit : Nat) : Prop where
  number : e.Passes limit (.name "port") Property.Open limit (some Intrinsic.object)
  protocol : e.Passes limit (.name "proto") Property.Open limit (some Intrinsic.object)
  items : ∀ i, e.Passes limit (.item i) Property.Open limit (some Intrinsic.array)
  untagged : ∀ proto, proto = Intrinsic.object ∨ proto = Intrinsic.array →
    e.Passes limit (.symbol .tag) (· = none) limit (some proto)
  handler : Intrinsic.bridge < limit ∧ (e.object Intrinsic.bridge).Settled ∧
    (e.object Intrinsic.bridge).isProxy = false
  method : ∃ g constructs writable enumerable configurable, g < limit ∧
    (e.object Intrinsic.bridge).own? (.name Trap.get.name) =
      some (.data (.object g) writable enumerable configurable) ∧
    (e.object g).kind = .function (.trap .get) constructs

/-- The prototypes are as the bridge needs them. -/
def Machine.Intact (m : Machine) : Prop := m.toEngine.Intact m.objects.size

/-- The handler has the method, a function below a bound. -/
def Engine.Method (e : Engine) (limit : Nat) (t : Trap) : Prop :=
  ∃ g constructs writable enumerable configurable, g < limit ∧
    (e.object Intrinsic.bridge).own? (.name t.name) =
      some (.data (.object g) writable enumerable configurable) ∧
    (e.object g).kind = .function (.trap t) constructs

section

variable (hkeeps : e.Keeps (· < limit) e') (hlimit : limit ≤ e.objects.size)

include hkeeps hlimit

theorem Engine.Intact.handler_eq (h : e.Intact limit) :
    e'.object Intrinsic.bridge = e.object Intrinsic.bridge := by
  obtain ⟨hbridge, hsettled, -⟩ := h.handler
  exact hkeeps.object_eq _ (Nat.lt_of_lt_of_le hbridge hlimit) hbridge hsettled

theorem Engine.Method.keeps {t : Trap} (h : e.Method limit t)
    (hhandler : e'.object Intrinsic.bridge = e.object Intrinsic.bridge) : e'.Method limit t := by
  obtain ⟨g, c, w, en, d, hg, hown, hkind⟩ := h
  have hmethod := hkeeps.object_eq g (Nat.lt_of_lt_of_le hg hlimit) hg (by
    intro owner
    rw [hkind]
    nofun)
  exact ⟨g, c, w, en, d, hg, hhandler ▸ hown, hmethod ▸ hkind⟩

/-- Prototypes stay intact as long as settled objects stay as they are. -/
theorem Engine.Intact.keeps (h : e.Intact limit) : e'.Intact limit := by
  have hhandler := h.handler_eq hkeeps hlimit
  have hmethod : e.Method limit .get := h.method
  obtain ⟨hbridge, hsettled, hproxy⟩ := h.handler
  exact ⟨h.number.keeps hkeeps hlimit, h.protocol.keeps hkeeps hlimit,
    fun i => (h.items i).keeps hkeeps hlimit, fun q hq => (h.untagged q hq).keeps hkeeps hlimit,
    ⟨hbridge, hhandler ▸ hsettled, hhandler ▸ hproxy⟩, hmethod.keeps hkeeps hlimit hhandler⟩

end

/-! ### Methods of the handler -/

/-- The method is found on the handler, and answers when it is called. -/
theorem Engine.Method.answers {t : Trap} (h : m.Method limit t)
    (hproxy : (m.object Intrinsic.bridge).isProxy = false) :
    ∃ g, (∀ call fuel, Gives call m
        (getFrom (fuel + 1) (.object Intrinsic.bridge) Intrinsic.bridge (.name t.name)) (.object g) m) ∧
      ∀ n this arguments v m', Succeeds (invoke n) m (t.perform arguments) v m' →
        Gives (invoke (n + 1)) m (callValue (.object g) this arguments) v m' := by
  obtain ⟨g, c, w, en, d, -, hown, hkind⟩ := h
  have hsettled : (Value.object g).Settled m.toEngine := by
    rintro o ⟨⟩ owner
    rw [hkind]
    nofun
  exact ⟨g, fun call fuel => getFrom_own hproxy hown hsettled,
    fun n this arguments v m' hperform => callValue_gives hkind hperform⟩

/-- What a live value is read as is what the method gives, of which the object of the wrap knows nothing. -/
theorem getProperty_live (hintact : m.toEngine.Intact limit) (hlimit : limit ≤ m.objects.size)
    (hp : (m.object p).kind = .proxy target Intrinsic.bridge)
    (hperform : Succeeds (invoke n) m (Trap.get.perform [.object target, k.value, .object p]) v m')
    (htarget : (m'.object target).isProxy = false) (hown : (m'.object target).own? k = none) :
    Gives (invoke (n + 1)) m (getProperty p k) v m' := by
  obtain ⟨hbridge, -, hproxy⟩ := hintact.handler
  have hmethod : m.Method limit .get := hintact.method
  obtain ⟨g, hfound, hanswers⟩ := hmethod.answers hproxy
  obtain ⟨size, hsize⟩ : ∃ size, m.objects.size = size + 1 :=
    Nat.exists_eq_succ_of_ne_zero (Nat.ne_zero_of_lt (Nat.lt_of_lt_of_le hbridge hlimit))
  refine .bind .get ?_
  rw [Engine.chainLimit, hsize]
  exact getFrom_proxy hp (hfound _ size) (hanswers n _ _ v m' hperform) htarget hown

/-! ### The answer to the private symbol -/

/-- The method that reads properties answers with the object of the wrap. -/
theorem performTrap_tag {r : Receiver} (rest : List Value) (hr : m.receiver? target = some r) :
    Succeeds call m (Trap.get.perform (.object target :: (Key.symbol .tag).value :: rest))
      (.object target) m := by
  have hanswer : Succeeds call m (hostGet target (.symbol .tag)) (.value (.object target)) m := by
    unfold hostGet
    refine .get_bind ?_
    rw [hr]
    exact .bind (.routine (Gives.pure (v := PropertyName.symbol .tag))) .pure
  exact .bind (.routine (Gives.pure (v := target))) (.bind hanswer .pure)

/-- A live value answers with the object of its wrap. -/
theorem getProperty_tag {r : Receiver} (hintact : m.toEngine.Intact limit)
    (hlimit : limit ≤ m.objects.size) (hp : (m.object p).kind = .proxy target Intrinsic.bridge)
    (htarget : (m.object target).isProxy = false)
    (htag : (m.object target).own? (.symbol .tag) = none) (hr : m.receiver? target = some r) :
    Gives (invoke (n + 1)) m (getProperty p (.symbol .tag)) (.object target) m :=
  getProperty_live hintact hlimit hp (performTrap_tag [.object p] hr) htarget htag

/-! ### The host value behind an object -/

/-- The host value of the wrap that a value is the object of. -/
def Machine.behind (m : Machine) (v : Value) : Option Ref :=
  ((v.object?.bind m.wrapOf?).bind m.wraps.wrap?).bind (·.value)

/-- What is not the object of a wrap is asked for the private symbol. A throw is caught. -/
theorem unwrap_asked {answer : Except Thrown Value} (hnone : m.wrapOf? o = none)
    (htag : ((getProperty o (.symbol .tag)).run.run.run call).run m = (answer, m')) :
    ((unwrap o).run call).run m =
      (answer.toOption.bind fun v => v.object?.bind m'.wrapOf?, m') := by
  have hread : ((get : Effect Machine).run call).run m = (m, m) := rfl
  have hasked : ((liftM (getProperty o (.symbol .tag)).run : Effect _).run call).run m =
      (answer, m') := htag
  unfold unwrap
  rw [run_bind_eq hread, hnone]
  dsimp only
  rw [run_bind_eq hasked]
  cases answer with
  | error fault => rfl
  | ok v => cases v <;> rfl

/-- It is what it answers. -/
theorem unwrap_gives (hnone : m.wrapOf? o = none) (htag : Gives call m (getProperty o (.symbol .tag)) v m') :
    ((unwrap o).run call).run m = (v.object?.bind m'.wrapOf?, m') :=
  unwrap_asked hnone htag

/-- That tells what is behind it. -/
theorem unwrapValue_gives (hwrap : m.wrapOf? o = none)
    (htag : Gives call m (getProperty o (.symbol .tag)) v m) :
    ((unwrapValue o).run call).run m = (m.behind v, m) := by
  unfold unwrapValue
  rw [run_bind_eq (unwrap_gives hwrap htag)]
  rfl

/-- No host value is behind what is no object, or an object that answers nothing. -/
def Unheld (call : Caller) (m : Machine) (v : Value) : Prop :=
  ∀ o, v = .object o → ((unwrapValue o).run call).run m = (none, m)

variable {convert : Conversion Ref}

theorem heldOf?_gives (hv : v = .object o) (h : ((unwrapValue o).run call).run m = (some r, m))
    (htype : (m.heap.typeOf r).same type = true) :
    Succeeds call m (heldOf? type v) (some r) m := by
  subst hv
  unfold heldOf?
  refine .bind (.effect h) ?_
  dsimp only
  refine .get_bind ?_
  rw [if_pos htype]
  exact .pure

/-- A host value of the very type is taken as it is. -/
theorem heldOr_held (hv : v = .object o) (h : ((unwrapValue o).run call).run m = (some r, m))
    (htype : (m.heap.typeOf r).same type = true) :
    Succeeds call m (heldOr type v convert) r m :=
  .bind (heldOf?_gives hv h htype) .pure

theorem Unheld.heldOf? (h : Unheld call m v) : Succeeds call m (heldOf? type v) none m := by
  cases v with
  | object o => exact .bind (.effect (h o rfl)) .pure
  | _ => exact .pure

/-- What no host value is behind is converted. -/
theorem heldOr_unheld (h : Unheld call m v) (hconvert : Succeeds call m convert r m') :
    Succeeds call m (heldOr type v convert) r m' :=
  .bind h.heldOf? hconvert

end HostView.Script
