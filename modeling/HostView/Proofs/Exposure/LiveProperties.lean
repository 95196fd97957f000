import HostView.Proofs.Exposure.CompleteImages
import HostView.Proofs.Exposure.Traps
import HostView.Proofs.Script.Proxies

/-! # Properties of live values

What a script gets that lists the keys of a live value, asks for the property at a key or reads it. The
methods of the handler answer with arrays and descriptions, which are read back as they were built unless
a prototype gets in the way; the object of the wrap has nothing to say against any answer.
-/

namespace HostView.Script

variable {call : Caller} {m m' : Machine} {e e' : Engine} {o p target : ObjectId} {k : Key} {v : Value}
  {limit n : Nat} {r : Ref} {mask : Mask} {t : Trap} {names : List String}

/-! ### Lists of names -/

theorem setNames_gives (call : Caller) {items : List Value} (hclear : m.Clear limit) (hlimit : limit ≤ o)
    (ho : o < m.objects.size) (hobject : m.object o = .arrayWith items)
    (hlength : items.length + names.length < 2 ^ 32) :
    ∃ e, Gives call m
        ((names.zipIdx items.length).forM fun (name, index) =>
          setProperty o (.item index) (.string (.text name))) () ⟨e, m.toBridge⟩ ∧
      m.toEngine.Keeps (· ≠ o) e ∧
      e.object o = .arrayWith (items ++ names.map fun name => .string (.text name)) := by
  induction names generalizing m items with
  | nil => exact ⟨m.toEngine, .pure, .refl _, by simpa using hobject⟩
  | cons name names ih =>
      rw [List.length_cons] at hlength
      obtain ⟨e₁, hset, hkeeps, -, hobject₁⟩ := setItem_runs (v := .string (.text name)) (.refl m.toEngine) ho
        hobject (by omega) (hclear.items items.length) hlimit
      have hclear₁ : e₁.Clear limit := hclear.keeps (hkeeps.mono fun x _ hx => ne_of_limit_le hlimit x hx)
        (Nat.le_trans hlimit (Nat.le_of_lt ho))
      have hlength₁ : (items ++ [Value.string (.text name)]).length = items.length + 1 := by simp
      obtain ⟨e₂, hrest, hkeeps', hobject₂⟩ := ih (m := ⟨e₁, m.toBridge⟩) hclear₁
        (Nat.lt_of_lt_of_le ho hkeeps.size_le) hobject₁ (by omega)
      rw [hlength₁] at hrest
      refine ⟨e₂, ?_, hkeeps.trans hkeeps', by simpa using hobject₂⟩
      rw [List.zipIdx_cons]
      exact .bind (hset call m.toBridge) hrest

/-- An array is built of the names. -/
theorem listOfNames_gives (call : Caller) (hclear : m.Clear limit) (hlimit : limit ≤ m.objects.size)
    (hlength : names.length < 2 ^ 32) :
    ∃ e, Gives call m (listOfNames names) (.object m.objects.size) ⟨e, m.toBridge⟩ ∧
      m.toEngine.Keeps (fun _ => True) e ∧
      e.object m.objects.size = .arrayWith (names.map fun name => .string (.text name)) := by
  let blank : Engine := { m.toEngine with objects := m.objects.push (.arrayWith []) }
  have hblank : m.toEngine.Keeps (fun _ => True) blank := .push _
  obtain ⟨e, hnames, hkeeps, hobject⟩ := setNames_gives (m := ⟨blank, m.toBridge⟩) call
    (hclear.keeps (hblank.mono fun _ _ _ => trivial) hlimit) hlimit (by simp [blank])
    (Engine.object_push_size _) (by simpa using hlength)
  exact ⟨e, .bind (newArray_runs call m.toBridge) (.bind hnames .pure), hblank.andNew hkeeps (Nat.le_refl _), hobject⟩

theorem numberFor_ofInt (i : Int) : Gives call m (numberFor (.ofInt i)) (.ofInt i) m := by
  unfold Value.ofInt
  split <;> exact .bind .pure .pure

/-- The keys are read that an array of names holds from an index on. -/
theorem keysAt_gives (call : Caller) {i : Nat}
    (hobject : m.object o = .arrayWith (names.map fun name => .string (.text name)))
    (hlength : i + n = names.length) :
    Gives call m (keysAt (.object o) i n) ((names.drop i).map .name) m := by
  induction n generalizing i with
  | zero =>
      have hdrop : names.drop i = [] := List.drop_of_length_le (by omega)
      rw [hdrop]
      exact .pure
  | succ n ih =>
      have hi : i < names.length := by omega
      have hitem : (m.object o).own? (.item i) = some (.plain (.string (.text names[i]))) := by
        rw [hobject, Object.own?_arrayWith_item, List.getElem?_map, List.getElem?_eq_getElem hi]
        rfl
      have hread : Gives call m (readFrom (.object o) (.item i)) (.string (.text names[i])) m :=
        getProperty_own (by rw [hobject]; rfl) hitem nofun
      rw [keysAt, List.drop_eq_getElem_cons hi, List.map_cons]
      exact .bind hread (.bind .pure (.bind (ih (by omega)) .pure))

/-! ### Descriptions -/

/-- A field of a description, if there is one, on the object or on its prototypes. -/
def fieldAt (n : Nat) (o : ObjectId) (name : String) : Routine (Option Value) := do
  if ← hasFrom n o (.name name) then
    return some (← getFrom n (.object o) o (.name name))
  else return none

section

variable {members : List (String × Value)} {name : String} (call : Caller)
  (hobject : m.object o = .plainWith members)

include hobject

/-- A field of a description is read that is there. -/
theorem fieldAt_own (hmember : members.lookup name = some v) (hv : v.Settled m.toEngine) :
    Gives call m (fieldAt (n + 1) o name) (some v) m := by
  have hproxy : (m.object o).isProxy = false := by
    rw [hobject]
    rfl
  have hown : (m.object o).own? (.name name) = some (.plain v) := by
    rw [hobject, Object.own?_plainWith, hmember]
    rfl
  exact .bind (hasFrom_own hproxy (by rw [hown]; rfl)) (.bind (getFrom_own hproxy hown hv) .pure)

/-- A field is missing that no object inherits. -/
theorem fieldAt_free (hmember : members.lookup name = none) (hfree : m.Free limit name)
    (hfuel : limit ≤ n) : Gives call m (fieldAt (n + 1) o name) none m := by
  have hown : (m.object o).own? (.name name) = none := by
    rw [hobject, Object.own?_plainWith, hmember]
    rfl
  have hhas : Gives call m (hasFrom (n + 1) o (.name name)) false m := by
    refine hasFrom_inherited (by rw [hobject]; rfl) hown ?_
    rw [hobject]
    exact hasFrom_absent hfree.absent hfuel
  exact .bind hhas .pure

end

theorem functionField_none {read : Routine (Option Value)} {fault : Thrown}
    (hread : Gives call m read none m') : Gives call m (functionField read fault) none m' :=
  .bind hread.tryCatch .pure

/-- The description of an ordinary property is read as the request for it. -/
theorem readDescriptor_plain (call : Caller) (hobject : m.object o = .plainWith (plainDescription v))
    (hv : v.Settled m.toEngine) (hget : m.Free limit "get") (hset : m.Free limit "set")
    (hfuel : limit ≤ n) : Gives call m (readDescriptor (fieldAt (n + 1) o)) (.ordinary v) m := by
  have hflag {name : String} (hname : (plainDescription v).lookup name = some (.bool true)) :
      Gives call m (fieldAt (n + 1) o name) (some (.bool true)) m :=
    fieldAt_own call hobject hname nofun
  have hvalue : Gives call m (fieldAt (n + 1) o "value") (some v) m := fieldAt_own call hobject rfl hv
  have hgetter := fieldAt_free call hobject rfl hget hfuel
  have hsetter := fieldAt_free call hobject rfl hset hfuel
  unfold readDescriptor
  refine .bind (hflag rfl) (.bind (hflag rfl) (.bind hvalue (.bind (hflag rfl) ?_)))
  exact .bind (functionField_none hgetter) (.bind (functionField_none hsetter) .pure)

/-! ### What the handler answers -/

/-- Live values are traversed by a script: the methods of the handler for that are in their places, and
their answers are read back as they were built. -/
structure Engine.Traversable (e : Engine) (limit : Nat) : Prop where
  clear : e.Clear limit
  list : e.Method limit .list
  describe : e.Method limit .describe
  getter : e.Free limit "get"
  setter : e.Free limit "set"

theorem Engine.Traversable.keeps (h : e.Traversable limit) (hintact : e.Intact limit)
    (hkeeps : e.Keeps (· < limit) e') (hlimit : limit ≤ e.objects.size) : e'.Traversable limit where
  clear := h.clear.keeps hkeeps hlimit
  list := h.list.keeps hkeeps hlimit (hintact.handler_eq hkeeps hlimit)
  describe := h.describe.keeps hkeeps hlimit (hintact.handler_eq hkeeps hlimit)
  getter := h.getter.keeps hkeeps hlimit
  setter := h.setter.keeps hkeeps hlimit

/-- The object of a wrap has nothing of its own. -/
theorem Machine.Wraps.yields (hw : m.Wraps target r mask) : m.Yields target := by
  obtain ⟨w, state, htarget, -⟩ := hw.holds
  refine ⟨?_, ?_, fun k => ?_, ?_⟩ <;> rw [htarget]
  case refine_4 => simp [Object.keys]
  all_goals rfl

section

variable (hw : m.Wraps target r mask)
  (hp : (m.object p).kind = .proxy target Intrinsic.bridge) (hready : m.Ready limit)

include hw hp hready

/-- The keys of a live value are the names that it shows. -/
theorem ownKeys_live (htraversable : m.Traversable limit) (hnames : shownNames m.heap (m.front r mask) = names)
    (hdistinct : names.Nodup) (hlength : names.length < 2 ^ 32) (n : Nat) :
    ∃ m', Gives (invoke (n + 1)) m (ownKeys p) (names.map .name) m' ∧ m.Grows (fun _ => True) m' := by
  obtain ⟨g, hfound, hanswers⟩ := htraversable.list.answers hready.intact.handler.2.2
  have hlimit := hready.limit_le
  obtain ⟨e, hlist, hkeeps, hobject⟩ := listOfNames_gives (invoke n) htraversable.clear hlimit hlength
  have hgrows : m.Grows (fun _ => True) ⟨e, m.toBridge⟩ := .ofEngine hkeeps
  have hkeys : Succeeds (invoke n) m (hostKeys target) names m := by
    unfold hostKeys
    apply Succeeds.get_bind
    rw [hw.receiver]
    exact hnames ▸ .pure
  have hperform : Succeeds (invoke n) m (Trap.list.perform [.object target]) (.object m.objects.size)
      ⟨e, m.toBridge⟩ :=
    .bind (.routine (Gives.pure (v := target))) (.bind hkeys (.routine hlist))
  have harray : (e.object m.objects.size).isProxy = false := by
    rw [hobject]
    rfl
  have hown : (e.object m.objects.size).own? .length =
      some (.data (.ofInt names.length) true false false) := by
    rw [hobject, Object.own?_arrayWith_length, List.length_map]
  have hsettled : (Value.ofInt names.length).Settled e := .of_object? (object?_ofInt _)
  have hread := keysAt_gives (m := ⟨e, m.toBridge⟩) (invoke (n + 1)) hobject
    (Nat.zero_add names.length)
  refine ⟨_, ownKeys_proxy hp (.bind .get (hfound _ _)) (hanswers n _ _ _ _ hperform)
    (hw.grows hgrows).yields (getProperty_own harray hown hsettled) (numberFor_ofInt _) ?_ ?_ ?_, hgrows⟩
  · rw [toWord_ofInt hlength]
    exact hread
  · exact hdistinct.map fun a b hname => ScriptString.text.inj (Key.string.inj hname)
  · exact Nat.zero_lt_of_lt (Nat.lt_of_lt_of_le hready.intact.handler.1 hlimit)

/-- The property at a key at which something is found is an ordinary one. -/
theorem getOwnProperty_live (htraversable : m.Traversable limit) (hlimit : limit < m.objects.size)
    (hh : m.heap.WellTyped) (hlive : WrapKind.of (m.heap.typeOf r) ≠ .bare) (hk : k.WellFormed) {s : Sight}
    (hfound : (m.denoted (m.front r mask) k).sight? = some s)
    (hshort : ∀ v, s = .value v → m.heap.Short (2 ^ 32 - 1) v) (n : Nat) :
    ∃ v m', Gives (invoke (n + 1)) m (getOwnProperty p k) (some (.plain v)) m' ∧
      m.Grows (fun _ => True) m' := by
  obtain ⟨g, hmethod, hanswers⟩ := htraversable.describe.answers hready.intact.handler.2.2
  obtain ⟨o, v, m', hperform, hgrows, hobject, hv⟩ := Trap.describe_found hw hlive hk [] hh hready
    htraversable.clear hfound hshort (invoke n)
  have hkeeps : m.toEngine.Keeps (· < limit) m'.toEngine := hgrows.engine.mono fun _ _ _ => trivial
  obtain ⟨size, hsize⟩ : ∃ size, m.objects.size = size + 1 :=
    Nat.exists_eq_succ_of_ne_zero (Nat.ne_zero_of_lt hlimit)
  have hread := readDescriptor_plain (invoke (n + 1)) hobject hv.settled
    (htraversable.getter.keeps hkeeps hready.limit_le) (htraversable.setter.keeps hkeeps hready.limit_le)
    (Nat.le_of_lt_succ (hsize ▸ hlimit))
  refine ⟨v, m', .bind .get ?_, hgrows⟩
  rw [Engine.chainLimit, hsize]
  exact ownFrom_proxy hp (hmethod _ _) (hanswers n _ _ _ _ hperform) (hw.grows hgrows).yields hread

/-- It is read as a value that stands for what is found. -/
theorem getProperty_found (hh : m.heap.WellTyped) (hlive : WrapKind.of (m.heap.typeOf r) ≠ .bare)
    (hk : k.WellFormed) {s : Sight} (hfound : (m.denoted (m.front r mask) k).sight? = some s)
    (hshort : ∀ v, s = .value v → m.heap.Short (2 ^ 32 - 1) v) (n : Nat) :
    ∃ v m', Gives (invoke (n + 1)) m (getProperty p k) v m' ∧ m.Grows (fun _ => True) m' ∧
      RepresentsSight m' m.heap mask m.objects.size v s := by
  obtain ⟨v, m', hperform, hgrows, hv⟩ :=
    Trap.get_found hw hlive hk [.object p] hh hready hfound hshort (invoke n)
  have hyields := (hw.grows hgrows).yields
  exact ⟨v, m', getProperty_live hready.intact hready.limit_le hp hperform hyields.proxy
    (hyields.empty k), hgrows, hv⟩

end

end HostView.Script
