import HostView.Script.Machine

/-!
# Releasing wraps

A wrap lives as long as something refers to its object: a script can reach it from the objects that
are there from the start, through properties, prototypes and proxies, or objects that no script can
reach any more refer to each other in a circle and to the wrap. An object to which nothing refers is
let go at once; a collection also lets go of the circles. A wrap that is let go is released, and
gives up its host value. The method that takes a snapshot holds a host value but no wrap.
-/

namespace HostView.Script

/-- The object that a value is, as a list. -/
def Value.objects : Value → List ObjectId
  | .object o => [o]
  | _ => []

/-- The objects that a property refers to. -/
def Property.objects : Property → List ObjectId
  | .data v _ _ _ => v.objects
  | .accessor get set _ _ => get.toList ++ set.toList

/-- The objects that an iterator refers to. -/
def Iterator.objects : Iterator → List ObjectId
  | .items object _ _ => object.toList
  | .characters _ => []
  | .finds pattern _ _ _ _ => [pattern]
  | .stage s => s.source :: s.next.objects ++ s.function.objects ++ s.inner.toList
  | .wrapped iterator next => iterator.objects ++ next.objects

/-- The objects that an object refers to by its kind. -/
def ObjectKind.objects : ObjectKind → List ObjectId
  | .proxy target handler => [target, handler]
  | .iterator i => i.objects
  | .function (.bound f this arguments) _ => f :: this.objects ++ arguments.flatMap Value.objects
  | _ => []

/-- The objects that an object refers to. -/
def Object.references (o : Object) : List ObjectId :=
  o.kind.objects ++ o.proto.toList ++ o.properties.flatMap fun e => e.2.objects

namespace Machine

/-! ### What scripts reach -/

/-- Marks an object, and adds it to the others unless it was marked before. -/
def visit (state : List ObjectId × Array Bool) (o : ObjectId) : List ObjectId × Array Bool :=
  if state.2[o]?.getD true then state else (o :: state.1, state.2.setIfInBounds o true)

/-- Marks what can be reached from objects that are marked already, in as many rounds as it takes;
no more are needed than there are objects. -/
def markFrom (m : Machine) : Nat → List ObjectId → Array Bool → Array Bool
  | 0, _, marked => marked
  | n + 1, frontier, marked =>
    let (next, marked) :=
      (frontier.flatMap fun o => (m.object o).references).foldl visit ([], marked)
    if next.isEmpty then marked else m.markFrom n next marked

/-- The marks of all objects that a script can reach. -/
def reached (m : Machine) : Array Bool :=
  let roots := List.range Intrinsic.all.size
  let (frontier, marked) := roots.foldl visit ([], Array.replicate m.objects.size false)
  m.markFrom m.objects.size frontier marked

/-- The objects that have no mark. -/
def unmarked (m : Machine) (marked : Array Bool) : List ObjectId :=
  (List.range m.objects.size).filter fun o => !marked[o]?.getD false

/-- The objects that no script can reach. -/
def unreached (m : Machine) : List ObjectId := m.unmarked m.reached

/-! ### What circles hold -/

/-- How often each object is held: by the objects that refer to it, and by being marked. -/
def holdCounts (m : Machine) (marked : Array Bool) : Array Nat :=
  m.objects.foldl (fun counts o =>
    o.references.foldl (fun counts p => counts.modify p (· + 1)) counts) (marked.map Bool.toNat)

/-- Takes one hold on an object away, and adds the object to the others if that was the last. -/
def lose (state : List ObjectId × Array Nat) (o : ObjectId) : List ObjectId × Array Nat :=
  let count := state.2[o]?.getD 0
  (if count = 1 then o :: state.1 else state.1, state.2.setIfInBounds o (count - 1))

/-- Lets objects go, and after them those to which only they held on; the bound is on how many go.
-/
def letGo (m : Machine) : Nat → List ObjectId → Array Nat → List ObjectId
  | 0, _, _ => []
  | _, [], _ => []
  | n + 1, o :: rest, counts =>
    let (next, counts) := (m.object o).references.foldl lose (rest, counts)
    o :: m.letGo n next counts

/-- The objects that nothing holds, neither what a script can reach nor a circle. -/
def loose (m : Machine) : List ObjectId :=
  let marked := m.reached
  let unreached := m.unmarked marked
  let counts := m.holdCounts marked
  m.letGo unreached.length (unreached.filter fun o => counts[o]?.getD 0 = 0) counts

/-! ### Releasing -/

/-- Releases the wraps of objects that are let go. -/
def releaseWraps (m : Machine) (lost : List ObjectId) : Machine :=
  { m with wraps := (lost.filterMap fun o =>
      match (m.object o).kind with
      | .wrap w => some w
      | _ => none).foldl (fun wraps w => (wraps.release w).2) m.wraps }

/-- Releases the wraps to which nothing holds on. -/
def prune (m : Machine) : Machine := m.releaseWraps m.loose

/-- Releases the wraps that no script can reach. -/
def collect (m : Machine) : Machine := m.releaseWraps m.unreached

end Machine

end HostView.Script
