import HostView.Exposure.Ledger
import Mathlib.Data.List.Forall2
import Mathlib.Data.List.Induction
import Mathlib.Logic.Relation

/-! # The lives of wraps

Wraps are constructed, attached, released and dropped in any order, also repeatedly, and the bridge may
go at any time. A run of such events moves every wrap forward only. A wrap holds its host value until it
is released and gives it up once, and the two counts of the bridge tell how many wraps are live.
-/

namespace HostView

/-- What may happen to wraps. -/
inductive WrapEvent where
  | construct (value : Ref) (mask : Mask) (kind : WrapKind)
  | attach (w : WrapId)
  /-- The wrap is finalized, dropped before it was attached, or told again to let go. -/
  | release (w : WrapId)
  /-- The bridge is gone. -/
  | detach
  deriving DecidableEq

namespace WrapEvent

/-- The value for which the event constructs a wrap. -/
def value? : WrapEvent → Option Ref
  | construct value _ _ => some value
  | _ => none

/-- The values for which wraps are constructed, in the order of the wraps. -/
def values (events : List WrapEvent) : List Ref := events.filterMap value?

/-- The event adds a wrap or attaches one. -/
def Adds : WrapEvent → Prop
  | construct .. | attach _ => True
  | _ => False

theorem values_concat (events : List WrapEvent) (event : WrapEvent) :
    values (events ++ [event]) = values events ++ event.value?.toList := by
  cases event <;> simp [values, value?]

end WrapEvent

open WrapEvent

/-- The stages of a wrap that may follow on one another; it has none before it is constructed. -/
inductive WrapState.Next : Option WrapState → Option WrapState → Prop where
  | constructed : Next none (some .constructed)
  | attached : Next (some .constructed) (some .live)
  | finalized : Next (some .live) (some .released)
  | dropped : Next (some .constructed) (some .released)

namespace Ledger

/-- The ledger after the event. -/
def step (l : Ledger) : WrapEvent → Ledger
  | .construct value mask kind => (l.construct value mask kind).2
  | .attach w => l.attach w
  | .release w => (l.release w).2
  | .detach => l.detach

/-- The ledger after the events. -/
def run (l : Ledger) (events : List WrapEvent) : Ledger := events.foldl step l

/-- The value that the wrap holds. -/
def held? (l : Ledger) (w : WrapId) : Option Ref := (l.wrap? w).bind (·.value)

/-- The stage of the wrap. -/
def stage? (l : Ledger) (w : WrapId) : Option WrapState := (l.wrap? w).map (·.state)

/-- How often the wrap gives up its value in the course of the events. -/
def surrenders (w : WrapId) : Ledger → List WrapEvent → Nat
  | _, [] => 0
  | l, event :: events =>
    (if (l.held? w).isSome && ((l.step event).held? w).isNone then 1 else 0) +
      surrenders w (l.step event) events

variable {l l' l'' : Ledger} {event : WrapEvent} {events later : List WrapEvent} {w w' : WrapId}
  {wrap : Wrap} {value : Ref} {mask : Mask} {kind : WrapKind} {made : List Ref}

@[simp]
theorem run_concat : l.run (events ++ [event]) = (l.run events).step event := by
  simp [run]

theorem run_append : l.run (events ++ later) = (l.run events).run later :=
  List.foldl_append

theorem surrenders_concat : surrenders w l (events ++ [event]) =
    surrenders w l events + surrenders w (l.run events) [event] := by
  induction events generalizing l with
  | nil => simp [surrenders, run]
  | cons first events ih =>
      have hrun : l.run (first :: events) = (l.step first).run events := rfl
      rw [List.cons_append, surrenders, surrenders, ih, hrun, Nat.add_assoc]

/-! ### One wrap -/

theorem wrap?_construct (h : (l.construct value mask kind).2.wrap? w = some wrap) :
    wrap = ⟨some value, mask, kind, .constructed⟩ ∨ l.wrap? w = some wrap := by
  simp only [construct, wrap?, Array.getElem?_push] at h ⊢
  split at h
  next => exact .inl (Option.some.inj h).symm
  next => exact .inr h

theorem wrap?_attach (h : (l.attach w').wrap? w = some wrap) :
    ∃ wrap', l.wrap? w = some wrap' ∧ wrap'.value = wrap.value ∧ wrap'.mask = wrap.mask := by
  unfold attach at h
  split at h
  next =>
    simp only [wrap?, Array.getElem?_modify] at h ⊢
    split at h
    next =>
      obtain ⟨wrap', hwrap', rfl⟩ := Option.map_eq_some_iff.mp h
      exact ⟨wrap', hwrap', rfl, rfl⟩
    next => exact ⟨wrap, h, rfl, rfl⟩
  next => exact ⟨wrap, h, rfl, rfl⟩

/-- A new wrap leaves the others as they are. -/
theorem wrap?_of_construct (h : l.wrap? w = some wrap) :
    (l.construct value mask kind).2.wrap? w = some wrap := by
  have hw : w < l.wraps.size := (Array.getElem?_eq_some_iff.mp h).1
  simp only [construct, wrap?, Array.getElem?_push, Nat.ne_of_lt hw, ↓reduceIte]
  exact h

/-- Attaching a wrap changes nothing but its state. -/
theorem wrap?_of_attach (h : l.wrap? w = some wrap) :
    ∃ state, (l.attach w').wrap? w = some { wrap with state } := by
  unfold attach
  split
  next =>
    simp only [wrap?, Array.getElem?_modify] at h ⊢
    split
    next => exact ⟨.live, Option.map_eq_some_iff.mpr ⟨wrap, h, rfl⟩⟩
    next => exact ⟨wrap.state, h⟩
  next => exact ⟨wrap.state, h⟩

/-! ### What an event does -/

/-- What comes of an event: a wrap is added, a wrap goes on to a later stage, the bridge goes, or
nothing happens. -/
inductive Done (l : Ledger) : WrapEvent → Ledger → Prop where
  | construct {value : Ref} {mask : Mask} {kind : WrapKind} :
      Done l (.construct value mask kind)
        { l with wraps := l.wraps.push ⟨some value, mask, kind, .constructed⟩ }
  | attach {w : WrapId} {wrap : Wrap} (hw : l.wraps[w]? = some wrap)
      (hstate : wrap.state = .constructed) :
      Done l (.attach w)
        { l with
          wraps := l.wraps.modify w fun wrap => { wrap with state := .live }
          created := if l.attached then l.created + 1 else l.created }
  | release {w : WrapId} {wrap : Wrap} (hw : l.wraps[w]? = some wrap)
      (hstate : wrap.state ≠ .released) :
      Done l (.release w)
        { l with
          wraps := l.wraps.modify w fun wrap => { wrap with value := none, state := .released }
          released := if l.attached && wrap.state = .live then l.released + 1 else l.released }
  | detach : Done l .detach { l with attached := false }
  | idle {event : WrapEvent} (hvalue : event.value? = none) : Done l event l

theorem done (l : Ledger) (event : WrapEvent) : l.Done event (l.step event) := by
  cases event with
  | construct value mask kind => exact .construct
  | attach w =>
      rw [step, Ledger.attach]
      split
      next hw => exact .attach hw rfl
      next => exact .idle rfl
  | release w =>
      rw [step, Ledger.release]
      split
      next => exact .idle rfl
      next => exact .idle rfl
      next wrap hreleased hw =>
        refine .release hw fun hstate => ?_
        obtain ⟨value, mask, kind, state⟩ := wrap
        cases hstate
        exact hreleased value mask kind rfl
  | detach => exact .detach

/-- A wrap stays in its stage or goes on to a next one. -/
theorem step_stage? (l : Ledger) (event : WrapEvent) (w : WrapId) :
    (l.step event).stage? w = l.stage? w ∨
      WrapState.Next (l.stage? w) ((l.step event).stage? w) := by
  have hdone := l.done event
  generalize l.step event = l' at hdone
  cases hdone with
  | construct =>
      simp only [stage?, wrap?, Array.getElem?_push]
      split
      next hw => exact .inr (by simpa [hw] using .constructed)
      next => exact .inl rfl
  | @attach w' wrap hw hstate =>
      simp only [stage?, wrap?, Array.getElem?_modify]
      split
      next heq => exact .inr (by simpa [← heq, hw, hstate] using .attached)
      next => exact .inl rfl
  | @release w' wrap hw hstate =>
      simp only [stage?, wrap?, Array.getElem?_modify]
      split
      next heq =>
        right
        simp only [← heq, hw, Option.map_some]
        cases hcase : wrap.state with
        | constructed => exact .dropped
        | live => exact .finalized
        | released => exact absurd hcase hstate
      next => exact .inl rfl
  | detach | idle => exact .inl rfl

/-- In a run of events a wrap only moves forward. -/
theorem run_stage? (l : Ledger) (events : List WrapEvent) (w : WrapId) :
    Relation.ReflTransGen WrapState.Next (l.stage? w) ((l.run events).stage? w) := by
  induction events using List.reverseRecOn with
  | nil => exact .refl
  | append_singleton events event ih =>
      rw [run_concat]
      rcases (l.run events).step_stage? event w with hsame | hnext
      · rwa [hsame]
      · exact ih.tail hnext

/-! ### What wraps hold -/

/-- There is a wrap for each of the values, which holds it unless the wrap was released. -/
structure Tracks (l : Ledger) (made : List Ref) : Prop where
  size_eq : l.wraps.size = made.length
  value_eq : ∀ w wrap, l.wrap? w = some wrap →
    wrap.value = if wrap.state = .released then none else made[w]?

/-- One wrap may be changed to another that holds its value or was released. -/
theorem Tracks.modify (h : l.Tracks made) {f : Wrap → Wrap} (hw : l.wraps[w]? = some wrap)
    (hvalue : (f wrap).value = if (f wrap).state = .released then none else made[w]?)
    (hl' : l'.wraps = l.wraps.modify w f) : l'.Tracks made := by
  refine ⟨by simpa [hl'] using h.size_eq, fun w' wrap' hw' => ?_⟩
  rw [wrap?, hl', Array.getElem?_modify] at hw'
  split at hw'
  next heq =>
    rw [← heq, hw, Option.map_some, Option.some.injEq] at hw'
    rw [← hw', ← heq, hvalue]
  next => exact h.value_eq w' wrap' hw'

theorem Tracks.step (h : l.Tracks made) (event : WrapEvent) :
    (l.step event).Tracks (made ++ event.value?.toList) := by
  have hdone := l.done event
  generalize l.step event = l' at hdone
  cases hdone with
  | construct =>
      refine ⟨by simp [value?, h.size_eq], fun w wrap hw => ?_⟩
      simp only [wrap?, Array.getElem?_push] at hw
      split at hw
      next hnew =>
        cases hw
        simp [value?, hnew, h.size_eq]
      next =>
        have hlt : w < made.length := h.size_eq ▸ (Array.getElem?_eq_some_iff.mp hw).1
        rw [List.getElem?_append_left hlt]
        exact h.value_eq w wrap hw
  | @attach w wrap hw hstate =>
      have hvalue := h.value_eq w wrap hw
      rw [hstate] at hvalue
      simp only [value?, Option.toList_none, List.append_nil]
      exact h.modify (f := fun wrap => { wrap with state := .live }) hw hvalue rfl
  | release hw =>
      simp only [value?, Option.toList_none, List.append_nil]
      exact h.modify (f := fun wrap => { wrap with value := none, state := .released }) hw rfl rfl
  | detach => simpa [value?] using ⟨h.size_eq, h.value_eq⟩
  | idle hvalue => simpa [hvalue] using h

theorem tracks_run (events : List WrapEvent) : (empty.run events).Tracks (values events) := by
  induction events using List.reverseRecOn with
  | nil => exact ⟨rfl, nofun⟩
  | append_singleton events event ih =>
      rw [run_concat, values_concat]
      exact ih.step event

/-- A value is held by the wraps that were constructed for it and not released. -/
theorem Tracks.holders_eq (h : l.Tracks made) (value : Ref) :
    l.holders value =
      (made.zip l.wraps.toList).countP fun (v, wrap) => v = value ∧ wrap.state ≠ .released := by
  have hpairs : List.Forall₂ (fun v (wrap : Wrap) =>
      wrap.value = if wrap.state = .released then none else some v) made l.wraps.toList := by
    refine List.forall₂_iff_get.mpr ⟨by simp [h.size_eq], fun w hmade hw => ?_⟩
    have hvalue := h.value_eq w l.wraps.toList[w] (by simp [wrap?])
    rwa [List.getElem?_eq_getElem hmade] at hvalue
  rw [holders, ← Array.countP_toList]
  clear h
  generalize l.wraps.toList = wraps at hpairs
  induction hpairs with
  | nil => rfl
  | @cons v wrap made wraps hvalue _ ih =>
      rw [List.zip_cons_cons, List.countP_cons, List.countP_cons, ih]
      by_cases hstate : wrap.state = .released <;> simp [hvalue, hstate]

/-- A wrap holds a value from its construction to its release. -/
theorem Tracks.isSome_held? (h : l.Tracks made) (w : WrapId) :
    (l.held? w).isSome = (l.stage? w).any (· ≠ .released) := by
  unfold held? stage?
  cases hw : l.wrap? w with
  | none => rfl
  | some wrap =>
      have hlt : w < made.length := h.size_eq ▸ (Array.getElem?_eq_some_iff.mp hw).1
      have hvalue := h.value_eq w wrap hw
      rw [List.getElem?_eq_getElem hlt] at hvalue
      by_cases hstate : wrap.state = .released <;> simp [hvalue, hstate]

/-- A wrap has given up its value once if it was released, and else it has not. -/
theorem surrenders_run (w : WrapId) (events : List WrapEvent) :
    surrenders w empty events = if (empty.run events).stage? w = some .released then 1 else 0 := by
  induction events using List.reverseRecOn with
  | nil => rfl
  | append_singleton events event ih =>
      have hbefore := (tracks_run events).isSome_held? w
      have hafter := ((tracks_run events).step event).isSome_held? w
      have hmoves := (empty.run events).step_stage? event w
      rw [surrenders_concat, ih, run_concat]
      simp only [surrenders, ← Option.not_isSome, hbefore, hafter]
      generalize (empty.run events).stage? w = s, ((empty.run events).step event).stage? w = s'
        at hmoves
      rcases hmoves with rfl | hnext
      · simp
      · cases hnext <;> rfl

/-! ### Counting -/

/-- One element may be exchanged in a count for what it becomes. -/
theorem countP_modify {α : Type} (p : α → Bool) {xs : Array α} {i : Nat} {x : α}
    (hx : xs[i]? = some x) (f : α → α) :
    (xs.modify i f).countP p + (p x).toNat = xs.countP p + (p (f x)).toNat := by
  obtain ⟨hi, rfl⟩ := Array.getElem?_eq_some_iff.mp hx
  obtain ⟨before, y, after, hold, rfl, hnew⟩ := List.exists_of_modify f (l := xs.toList) hi
  have hy : xs[before.length] = y := by simp [← Array.getElem_toList, hold]
  rw [← Array.countP_toList, ← Array.countP_toList, Array.toList_modify, hnew, hold, hy]
  simp only [List.countP_append, List.countP_cons]
  cases p y <;> cases p (f y) <;> simp <;> omega

/-- The bridge is there, and every wrap that became live is live or was released since. -/
structure Balanced (l : Ledger) : Prop where
  attached : l.attached = true
  created_eq : l.created = l.released + l.liveCount

theorem balanced_empty : empty.Balanced := ⟨rfl, rfl⟩

theorem Balanced.step (h : l.Balanced) (hevent : event ≠ .detach) : (l.step event).Balanced := by
  have hdone := l.done event
  generalize l.step event = l' at hdone
  have hcreated := h.created_eq
  cases hdone with
  | construct => exact ⟨h.attached, by simpa [liveCount] using hcreated⟩
  | attach hw hstate =>
      refine ⟨h.attached, ?_⟩
      have hcount := countP_modify (·.state = .live) hw fun wrap => { wrap with state := .live }
      simp [hstate] at hcount
      simp only [h.attached, liveCount, hcount, ↓reduceIte]
      rw [hcreated, liveCount, Nat.add_assoc]
  | @release w wrap hw hstate =>
      refine ⟨h.attached, ?_⟩
      have hcount := countP_modify (·.state = .live) hw
        fun wrap => { wrap with value := none, state := .released }
      simp only [h.attached, liveCount] at hcreated ⊢
      cases hcase : wrap.state with
      | constructed => simp_all
      | live => simp_all; omega
      | released => exact absurd hcase hstate
  | detach => exact absurd rfl hevent
  | idle => exact h

theorem Balanced.run (h : l.Balanced) (hevents : .detach ∉ events) : (l.run events).Balanced := by
  induction events using List.reverseRecOn with
  | nil => exact h
  | append_singleton events event ih =>
      simp only [List.mem_append, List.mem_singleton, not_or] at hevents
      exact run_concat ▸ (ih hevents.1).step (Ne.symm hevents.2)

/-! ### Gaining wraps -/

/-- Wraps were added and attached, and none was released. -/
def Gains (l l' : Ledger) : Prop := ∃ events, (∀ event ∈ events, event.Adds) ∧ l' = l.run events

namespace Gains

theorem refl (l : Ledger) : l.Gains l := ⟨[], nofun, rfl⟩

theorem trans (h : l.Gains l') (h' : l'.Gains l'') : l.Gains l'' := by
  obtain ⟨events, hevents, rfl⟩ := h
  obtain ⟨later, hlater, rfl⟩ := h'
  refine ⟨events ++ later, fun event hevent => ?_, run_append.symm⟩
  exact (List.mem_append.mp hevent).elim (hevents event) (hlater event)

theorem construct (l : Ledger) (value : Ref) (mask : Mask) (kind : WrapKind) :
    l.Gains (l.construct value mask kind).2 :=
  ⟨[.construct value mask kind], by simp [Adds], rfl⟩

theorem attach (l : Ledger) (w : WrapId) : l.Gains (l.attach w) :=
  ⟨[.attach w], by simp [Adds], rfl⟩

/-- A wrap goes on to hold its value. -/
theorem wrap?_eq (h : l.Gains l') (hw : l.wrap? w = some wrap) :
    ∃ state, l'.wrap? w = some { wrap with state } := by
  obtain ⟨events, hevents, rfl⟩ := h
  induction events generalizing l wrap with
  | nil => exact ⟨wrap.state, hw⟩
  | cons event events ih =>
      obtain ⟨hevent, hrest⟩ := List.forall_mem_cons.mp hevents
      cases event with
      | construct => exact ih (wrap?_of_construct hw) hrest
      | attach w' =>
          have hattached : ∃ state, (l.attach w').wrap? w = some { wrap with state } :=
            wrap?_of_attach hw
          obtain ⟨state, hw'⟩ := hattached
          have hrun := ih hw' hrest
          exact hrun
      | release | detach => exact hevent.elim

end Gains

/-! ### Accounts -/

/-- After any events that may happen to wraps, whatever happens later: every wrap has moved forward;
it holds the value for which it was constructed exactly if it is not released, and has then not given it
up, and otherwise has given it up once; a value is held as often as it has such wraps; and while the
bridge is there, the counts of wraps that became live and of live ones that were released differ by the
number of live wraps. -/
theorem run_accounted (events later : List WrapEvent) :
    let l := empty.run events
    (∀ w, Relation.ReflTransGen WrapState.Next (l.stage? w) ((empty.run (events ++ later)).stage? w)) ∧
    l.wraps.size = (values events).length ∧
    (∀ w wrap, l.wrap? w = some wrap →
      wrap.value = (if wrap.state = .released then none else (values events)[w]?) ∧
      surrenders w empty events = if wrap.state = .released then 1 else 0) ∧
    (∀ value, l.holders value = ((values events).zip l.wraps.toList).countP fun (v, wrap) =>
      v = value ∧ wrap.state ≠ .released) ∧
    (.detach ∉ events → l.released ≤ l.created ∧ l.created - l.released = l.liveCount) := by
  intro l
  have htracks : l.Tracks (values events) := tracks_run events
  refine ⟨fun w => ?_, htracks.size_eq, fun w wrap hw => ⟨htracks.value_eq w wrap hw, ?_⟩,
    htracks.holders_eq, fun hevents => ?_⟩
  · rw [run_append]
    exact l.run_stage? later w
  · have hstage : l.stage? w = some wrap.state := congrArg (Option.map _) hw
    rw [surrenders_run w events, hstage]
    simp
  · have hbalanced : l.Balanced := balanced_empty.run hevents
    rw [hbalanced.created_eq]
    exact ⟨Nat.le_add_right .., Nat.add_sub_cancel_left ..⟩

end Ledger

end HostView
