import HostView.Proofs.Script.Listing

/-! # Questions to proxies

A question to a proxy goes to a method of its handler. What the method answers is taken if the target has
nothing to say against it: here it has no properties of its own, and takes new ones.
-/

namespace HostView.Script

variable {call : Caller} {m m₁ m' : Machine} {o p target handler f : ObjectId} {k : Key}
  {v receiver : Value} {limit n fuel : Nat} {proto : Option ObjectId}

/-! ### Objects that are no proxies -/

theorem hasFrom_own (hproxy : (m.object o).isProxy = false) (hown : ((m.object o).own? k).isSome) :
    Gives call m (hasFrom (n + 1) o k) true m := by
  rw [hasFrom]
  refine .bind (getObject_gives o) ?_
  split
  next target handler hkind => simp [Object.isProxy, hkind] at hproxy
  next =>
    rw [if_pos hown]
    exact .pure

/-- A property that an object lacks is looked for on its prototype. -/
theorem hasFrom_inherited {b : Bool} (hproxy : (m.object o).isProxy = false)
    (hown : (m.object o).own? k = none)
    (h : Gives call m
      (match (m.object o).proto with
        | some p => hasFrom n p k
        | none => return false) b m') :
    Gives call m (hasFrom (n + 1) o k) b m' := by
  rw [hasFrom]
  refine .bind (getObject_gives o) ?_
  split
  next target handler hkind => simp [Object.isProxy, hkind] at hproxy
  next =>
    rw [hown, if_neg (by simp)]
    exact h

theorem hasFrom_absent (h : m.Passes limit k (· = none) n proto) (hfuel : n ≤ fuel) :
    Gives call m
      (match proto with
        | some p => hasFrom fuel p k
        | none => return false) false m := by
  induction h generalizing fuel with
  | none => exact .pure
  | some _ _ hproxy hown _ ih =>
      cases fuel with
      | zero => exact absurd hfuel (Nat.not_succ_le_zero _)
      | succ fuel => exact hasFrom_inherited hproxy hown (ih (Nat.le_of_succ_le_succ hfuel))

theorem extensibleFrom_gives (hproxy : (m.object o).isProxy = false) :
    Gives call m (extensibleFrom (n + 1) o) (m.object o).extensible m := by
  rw [extensibleFrom]
  refine .bind (getObject_gives o) ?_
  split
  next target handler hkind => simp [Object.isProxy, hkind] at hproxy
  next => exact .pure

/-! ### What methods of handlers answer -/

/-- The object has nothing of its own and takes new properties, so that a proxy before it may say
anything. -/
structure Engine.Yields (e : Engine) (target : ObjectId) : Prop where
  proxy : (e.object target).isProxy = false
  extensible : (e.object target).extensible = true
  empty : ∀ k, (e.object target).own? k = none
  keys : (e.object target).keys = []

/-- A value is read that the method of the handler gives. -/
theorem getFrom_proxy (hkind : (m.object p).kind = .proxy target handler)
    (hmethod : Gives call m (getFrom (n + 1) (.object handler) handler (.name "get")) (.object f) m)
    (hcall : Gives call m
      (callValue (.object f) (.object handler) [.object target, k.value, receiver]) v m')
    (hproxy : (m'.object target).isProxy = false) (hown : (m'.object target).own? k = none) :
    Gives call m (getFrom (n + 2) receiver p k) v m' := by
  rw [getFrom]
  refine .bind (getObject_gives p) ?_
  rw [hkind]
  dsimp only
  exact .bind hmethod (.bind hcall (.bind (ownFrom_none hproxy hown) .pure))

/-- A property is there that the method of the handler describes as an ordinary one. -/
theorem ownFrom_proxy {description : ObjectId} (hkind : (m.object p).kind = .proxy target handler)
    (hmethod : Gives call m
      (getFrom (n + 1) (.object handler) handler (.name "getOwnPropertyDescriptor")) (.object f) m)
    (hcall : Gives call m (callValue (.object f) (.object handler) [.object target, k.value])
      (.object description) m')
    (hyields : m'.Yields target)
    (hread : Gives call m' (readDescriptor fun name => do
      if ← hasFrom (n + 1) description (.name name) then
        return some (← getFrom (n + 1) (.object description) description (.name name))
      else return none) (.ordinary v) m') :
    Gives call m (ownFrom (n + 2) p k) (some (.plain v)) m' := by
  have hextensible : Gives call m' (extensibleFrom (n + 1) target) true m' := by
    rw [← hyields.extensible]
    exact extensibleFrom_gives hyields.proxy
  rw [ownFrom]
  refine .bind (getObject_gives p) ?_
  rw [hkind]
  dsimp only
  refine .bind hmethod (.bind hcall ?_)
  dsimp only
  refine .bind (ownFrom_none hyields.proxy (hyields.empty k)) (.bind hextensible ?_)
  exact .bind hread .pure

/-- The keys are those that the method of the handler lists. -/
theorem ownKeys_proxy {list : Value} {names : List Key} {length : Value}
    (hkind : (m.object p).kind = .proxy target handler)
    (hmethod : Gives call m (getProperty handler (.name "ownKeys")) (.object f) m)
    (hcall : Gives call m (callValue (.object f) (.object handler) [.object target]) list m')
    (hyields : m'.Yields target) (hlength : Gives call m' (readFrom list .length) length m')
    (hnumber : Gives call m' (numberFor length) length m')
    (hkeys : Gives call m' (keysAt list 0 length.toWord) names m') (hdistinct : names.Nodup)
    (hsize : 0 < m.objects.size) : Gives call m (ownKeys p) names m' := by
  obtain ⟨size, hsize⟩ := Nat.exists_eq_succ_of_ne_zero (Nat.ne_of_gt hsize)
  have hextensible : Gives call m' (isExtensible target) true m' := by
    rw [← hyields.extensible]
    exact .bind .get (extensibleFrom_gives hyields.proxy)
  have htrap : Gives call m (trapOf handler "ownKeys") (some (.object f)) m := .bind hmethod .pure
  have hown : Gives call m' (keysFrom (size + 1) target) [] m' := by
    rw [← hyields.keys]
    exact keysFrom_gives hyields.proxy
  have hcheck : Gives call m' (checkKeys target true names []) () m' := .bind .pure .pure
  unfold ownKeys
  refine .bind .get ?_
  rw [Engine.chainLimit, hsize, keysFrom]
  refine .bind (getObject_gives p) ?_
  rw [hkind]
  dsimp only
  refine .bind htrap ?_
  dsimp only
  refine .bind hcall (.bind hlength (.bind hnumber (.bind hkeys ?_)))
  rw [if_neg (by simpa using hdistinct)]
  exact .bind hextensible (.bind hown (.bind hcheck .pure))

end HostView.Script
