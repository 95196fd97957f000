import HostView.Script.Machine

/-!
# Disciplines

A discipline says what every change of the bridge keeps: a relation between two bridges over which
the same script runs, and a relation between a bridge and what it becomes. An effect keeps a
discipline if, whenever the functions that it calls keep it, two runs from alike bridges end alike,
with the same engine and the same result. What an engine does by itself keeps every discipline.
-/

namespace HostView.Script

variable {α β : Type}

/-- What is kept of two bridges, and of one bridge through time. -/
structure Discipline where
  alike : Bridge → Bridge → Prop
  leads : Bridge → Bridge → Prop
  leads_refl : ∀ b, leads b b
  leads_trans : ∀ {a b c}, leads a b → leads b c → leads a c
  alike_size : ∀ {b c}, alike b c → b.heap.cells.size = c.heap.cells.size

namespace Discipline

variable (D : Discipline)

/-- How two runs end, the first of which began over the bridge `start`. -/
structure Joins (start : Bridge) (post : α → Bridge → Prop) (p q : α × Machine) : Prop where
  result : p.1 = q.1
  engine : p.2.toEngine = q.2.toEngine
  alike : D.alike p.2.toBridge q.2.toBridge
  leads : D.leads start p.2.toBridge
  post : post p.1 p.2.toBridge

/-- Two effects, begun with one engine over two bridges, end alike, and in the way that `post`
tells. -/
def Ends (call : Caller) (e : Engine) (b c : Bridge) (a a' : Effect α) (post : α → Bridge → Prop) :
    Prop :=
  D.Joins b post ((a.run call).run ⟨e, b⟩) ((a'.run call).run ⟨e, c⟩)

/-- Calls keep the discipline. -/
def Lawful (call : Caller) : Prop :=
  ∀ o purpose arguments e b c, D.alike b c →
    D.Ends call e b c (fun call => (call o purpose arguments).run)
      (fun call => (call o purpose arguments).run) fun _ _ => True

/-- An effect keeps the discipline. -/
def Keeps (a : Effect α) : Prop :=
  ∀ call, D.Lawful call → ∀ e b c, D.alike b c → D.Ends call e b c a a fun _ _ => True

variable {D}

/-- What comes first may be told by its run, and not only by what it keeps. -/
theorem Ends.bind_run {call : Caller} {e : Engine} {b c : Bridge} {a a' : Effect α}
    {f f' : α → Effect β} {middle : α → Bridge → Prop} {post : β → Bridge → Prop}
    (ha : D.Ends call e b c a a' middle)
    (hf : ∀ x e' b' c', (a.run call).run ⟨e, b⟩ = (x, ⟨e', b'⟩) → D.alike b' c' → D.leads b b' →
      middle x b' → D.Ends call e' b' c' (f x) (f' x) post) :
    D.Ends call e b c (a >>= f) (a' >>= f') post := by
  have hrest := hf ((a.run call).run ⟨e, b⟩).1 ((a.run call).run ⟨e, b⟩).2.toEngine _ _ rfl
    ha.alike ha.leads ha.post
  change D.Joins b post
    (((f ((a.run call).run ⟨e, b⟩).1).run call).run ((a.run call).run ⟨e, b⟩).2)
    (((f' ((a'.run call).run ⟨e, c⟩).1).run call).run ((a'.run call).run ⟨e, c⟩).2)
  have hmachine : ((a'.run call).run ⟨e, c⟩).2 =
      ⟨((a.run call).run ⟨e, b⟩).2.toEngine, ((a'.run call).run ⟨e, c⟩).2.toBridge⟩ := by
    rw [ha.engine]
  rw [← ha.result, hmachine]
  exact ⟨hrest.result, hrest.engine, hrest.alike, D.leads_trans ha.leads hrest.leads, hrest.post⟩

theorem Ends.bind {call : Caller} {e : Engine} {b c : Bridge} {a a' : Effect α}
    {f f' : α → Effect β} {middle : α → Bridge → Prop} {post : β → Bridge → Prop}
    (ha : D.Ends call e b c a a' middle)
    (hf : ∀ x e' b' c', D.alike b' c' → D.leads b b' → middle x b' →
      D.Ends call e' b' c' (f x) (f' x) post) :
    D.Ends call e b c (a >>= f) (a' >>= f') post :=
  .bind_run ha fun x e' b' c' _ => hf x e' b' c'

theorem Keeps.bind {a : Effect α} {f : α → Effect β} (ha : D.Keeps a) (hf : ∀ x, D.Keeps (f x)) :
    D.Keeps (a >>= f) :=
  fun call hcall e b c halike => (ha call hcall e b c halike).bind
    fun x e' b' c' halike' _ _ => hf x call hcall e' b' c' halike'

theorem Keeps.pure (x : α) : D.Keeps (Pure.pure x) :=
  fun _ _ _ b _ halike => ⟨rfl, rfl, halike, D.leads_refl b, trivial⟩

/-- The engine may be read and changed at will. -/
theorem Keeps.onEngine (f : Engine → α × Engine) :
    D.Keeps (modifyGet fun m : Machine => ((f m.toEngine).1, { m with toEngine := (f m.toEngine).2 }))
    :=
  fun _ _ _ b _ halike => ⟨rfl, rfl, halike, D.leads_refl b, trivial⟩

/-- The number of host values may be read. -/
theorem Keeps.heapSize : D.Keeps (modifyGet fun m : Machine => (m.heap.cells.size, m)) :=
  fun _ _ _ b _ halike => ⟨D.alike_size halike, rfl, halike, D.leads_refl b, trivial⟩

theorem Keeps.call (o : ObjectId) (purpose : Purpose) (arguments : List Value) :
    D.Keeps fun call => (call o purpose arguments).run :=
  fun _ hcall e b c halike => hcall o purpose arguments e b c halike

end Discipline

end HostView.Script
