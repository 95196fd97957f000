import HostView.Exposure.Outbound
import HostView.Proofs.Script.Running
import Mathlib.Data.Finset.Card
import Mathlib.Data.List.Dedup

/-! # Kept integers

Every big integer is handed out with the value that was asked for: only small numbers are kept, and
they are their own slots. A cache that starts empty cannot be told from making every integer anew, but
for the handles: a request for a number that was asked for before and is kept is answered with the
handle from then. What carries this through a run is that a slot is in use exactly if its own number was
asked for, and holds what the first request for it was given.
-/

namespace HostView

namespace IntegerCache

variable {cache : IntegerCache} {log : List (UInt64 × BigInteger)} {n : UInt64} {b : BigInteger}

/-- What is kept in a slot is the number of the slot. -/
def Exact (cache : IntegerCache) : Prop :=
  ∀ slot kept, cache.slots.lookup slot = some kept → kept.value = slot.toNat

theorem exact_empty : empty.Exact := nofun

theorem toNat_toUInt16 {n : UInt64} (hn : ¬ integerCacheRange ≤ n.toNat) :
    n.toUInt16.toNat = n.toNat := by
  rw [UInt64.toNat_toUInt16]
  exact Nat.mod_eq_of_lt (Nat.lt_of_not_le hn)

/-- A big integer has the value that was asked for, and the cache stays exact. -/
theorem Exact.get (h : cache.Exact) (n : UInt64) :
    (cache.get n).1.value = n.toNat ∧ (cache.get n).2.Exact := by
  unfold IntegerCache.get
  split
  next => exact ⟨rfl, h⟩
  next hn =>
    have hslot := toNat_toUInt16 hn
    cases hkept : cache.slots.lookup n.toUInt16 with
    | some kept => exact ⟨(h _ kept hkept).trans (congrArg Nat.cast hslot), h⟩
    | none =>
        refine ⟨rfl, fun slot kept hlookup => ?_⟩
        rw [List.lookup_cons] at hlookup
        split at hlookup
        next heq =>
          cases hlookup
          rw [eq_of_beq heq, hslot]
        next => exact h slot kept hlookup

/-! ### Runs of requests -/

/-- The answers to requests that are made one after the other, and the cache that they leave. -/
def serve (cache : IntegerCache) : List UInt64 → List BigInteger × IntegerCache
  | [] => ([], cache)
  | n :: requests =>
    let made := cache.get n
    let rest := serve made.2 requests
    (made.1 :: rest.1, rest.2)

/-- Whether the integer of a number is kept. -/
def Keeps (n : UInt64) : Prop := n.toNat < integerCacheRange

instance : DecidablePred Keeps := fun n => inferInstanceAs (Decidable (n.toNat < integerCacheRange))

theorem not_keeps_iff : ¬ Keeps n ↔ integerCacheRange ≤ n.toNat :=
  Nat.not_lt

/-- Numbers that are kept have slots of their own. -/
theorem Keeps.eq_of_slot {k n : UInt64} (hk : Keeps k) (hn : Keeps n)
    (hslot : k.toUInt16 = n.toUInt16) : k = n := by
  have h := congrArg UInt16.toNat hslot
  rw [toNat_toUInt16 (Nat.not_le.mpr hk), toNat_toUInt16 (Nat.not_le.mpr hn)] at h
  exact UInt64.toNat_inj.mp h

theorem get_of_not_keeps (hn : ¬ Keeps n) :
    cache.get n = (⟨cache.next, n.toNat⟩, { cache with next := cache.next + 1 }) := by
  rw [get, if_pos (not_keeps_iff.mp hn)]

theorem get_of_kept (hn : Keeps n) (hslot : cache.slots.lookup n.toUInt16 = some b) :
    cache.get n = (b, cache) := by
  rw [get, if_neg (Nat.not_le.mpr hn), hslot]

theorem get_of_missing (hn : Keeps n) (hslot : cache.slots.lookup n.toUInt16 = none) :
    cache.get n = (⟨cache.next, n.toNat⟩,
      ⟨(n.toUInt16, ⟨cache.next, n.toNat⟩) :: cache.slots, cache.next + 1⟩) := by
  rw [get, if_neg (Nat.not_le.mpr hn), hslot]

/-! ### What was handed out -/

/-- The handles that were handed out have the numbers that were asked for, and each is that of one
number. They are numbered in the order in which they are made. -/
structure Issued (next : Nat) (log : List (UInt64 × BigInteger)) : Prop where
  value : ∀ p ∈ log, p.2.value = p.1.toNat
  made : ∀ p ∈ log, p.2.serial < next
  apart : ∀ p ∈ log, ∀ q ∈ log, p.2.serial = q.2.serial → p = q

theorem Issued.new {next : Nat} (h : Issued next log) (n : UInt64) :
    Issued (next + 1) (log ++ [(n, ⟨next, n.toNat⟩)]) := by
  have hother : ∀ p ∈ log, p.2.serial ≠ next := fun p hp => (h.made p hp).ne
  constructor <;> simp only [List.mem_append, List.mem_singleton]
  · rintro p (hp | rfl)
    exacts [h.value p hp, rfl]
  · rintro p (hp | rfl)
    exacts [Nat.lt_succ_of_lt (h.made p hp), Nat.lt_succ_self next]
  · rintro p (hp | rfl) q (hq | rfl) heq
    exacts [h.apart p hp q hq heq, absurd heq (hother p hp), absurd heq.symm (hother q hq), rfl]

/-! ### What a run keeps -/

/-- The cache goes with what was asked for and answered so far: a slot is in use if its number was
asked for, and holds the handle that this was answered with. -/
structure Follows (cache : IntegerCache) (log : List (UInt64 × BigInteger)) : Prop where
  issued : Issued cache.next log
  kept : ∀ slot b, cache.slots.lookup slot = some b ↔
    ∃ n, (n, b) ∈ log ∧ Keeps n ∧ n.toUInt16 = slot
  distinct : (cache.slots.map (·.1)).Nodup

theorem follows_empty : empty.Follows [] where
  issued := ⟨nofun, nofun, nofun⟩
  kept := fun _ _ => ⟨nofun, nofun⟩
  distinct := List.nodup_nil

theorem Follows.lookup (h : cache.Follows log) (hn : Keeps n) (hlog : (n, b) ∈ log) :
    cache.slots.lookup n.toUInt16 = some b :=
  (h.kept _ _).mpr ⟨n, hlog, hn, rfl⟩

/-- A number that was asked for before is answered as it was then. -/
theorem Follows.again (h : cache.Follows log) (hlog : (n, b) ∈ log) :
    cache.Follows (log ++ [(n, b)]) := by
  have hmem : ∀ p, p ∈ log ++ [(n, b)] ↔ p ∈ log := fun p => by
    rw [List.mem_append, List.mem_singleton]
    exact or_iff_left_of_imp fun hp => hp ▸ hlog
  refine ⟨⟨?_, ?_, ?_⟩, ?_, h.distinct⟩ <;> simp only [hmem]
  exacts [h.issued.value, h.issued.made, h.issued.apart, h.kept]

/-- A number that is not kept is answered, and leaves the slots as they are. -/
theorem Follows.pass (h : cache.Follows log) (hn : ¬ Keeps n) :
    Follows { cache with next := cache.next + 1 } (log ++ [(n, ⟨cache.next, n.toNat⟩)]) := by
  refine ⟨h.issued.new n, fun slot b => (h.kept slot b).trans (exists_congr fun k => ?_), h.distinct⟩
  rw [List.mem_append, List.mem_singleton, Prod.mk.injEq]
  refine and_congr_left fun hk => (or_iff_left ?_).symm
  rintro ⟨rfl, -⟩
  exact hn hk.1

/-- A number that is kept and was not asked for before takes its slot. -/
theorem Follows.store (h : cache.Follows log) (hn : Keeps n)
    (hslot : cache.slots.lookup n.toUInt16 = none) :
    Follows ⟨(n.toUInt16, ⟨cache.next, n.toNat⟩) :: cache.slots, cache.next + 1⟩
      (log ++ [(n, ⟨cache.next, n.toNat⟩)]) := by
  refine ⟨h.issued.new n, fun slot b => ?_, ?_⟩
  · simp only [List.mem_append, List.mem_singleton, Prod.mk.injEq]
    by_cases heq : slot = n.toUInt16
    · subst heq
      rw [List.lookup_cons_self, Option.some.injEq]
      refine ⟨fun hb => ⟨n, .inr ⟨rfl, hb.symm⟩, hn, rfl⟩, ?_⟩
      rintro ⟨k, hlog | ⟨-, hb⟩, hk, hsame⟩
      · cases hk.eq_of_slot hn hsame
        cases hslot.symm.trans (h.lookup hn hlog)
      · exact hb.symm
    · rw [List.lookup_cons, beq_eq_false_iff_ne.mpr heq]
      refine (h.kept slot b).trans (exists_congr fun k => and_congr_left fun hk => ?_)
      refine (or_iff_left ?_).symm
      rintro ⟨rfl, -⟩
      exact heq hk.2.symm
  · refine List.nodup_cons.mpr ⟨fun hmem => ?_, h.distinct⟩
    obtain ⟨entry, hentry, heq⟩ := List.mem_map.mp hmem
    exact bne_iff_ne.mp (List.lookup_eq_none_iff.mp hslot entry hentry) heq.symm

/-- A request leaves the cache with its own answer besides those that were given before. -/
theorem Follows.get (h : cache.Follows log) (n : UInt64) :
    (cache.get n).2.Follows (log ++ [(n, (cache.get n).1)]) := by
  by_cases hn : Keeps n
  case neg => rw [get_of_not_keeps hn]; exact h.pass hn
  case pos =>
    cases hslot : cache.slots.lookup n.toUInt16 with
    | some b =>
        rw [get_of_kept hn hslot]
        obtain ⟨k, hlog, hk, hsame⟩ := (h.kept _ _).mp hslot
        exact h.again (hk.eq_of_slot hn hsame ▸ hlog)
    | none => rw [get_of_missing hn hslot]; exact h.store hn hslot

theorem length_serve (requests : List UInt64) :
    (cache.serve requests).1.length = requests.length := by
  induction requests generalizing cache with
  | nil => rfl
  | cons n requests ih => exact congrArg Nat.succ ih

theorem Follows.serve (h : cache.Follows log) (requests : List UInt64) :
    (cache.serve requests).2.Follows (log ++ requests.zip (cache.serve requests).1) := by
  induction requests generalizing cache log with
  | nil => rwa [List.zip_nil_left, List.append_nil]
  | cons n requests ih =>
      have hrest := ih (h.get n)
      rwa [List.append_assoc] at hrest

/-! ### The number of slots in use -/

theorem Follows.mem_slots (h : cache.Follows log) {slot : UInt16} :
    slot ∈ cache.slots.map (·.1) ↔ ∃ n ∈ log.map (·.1), Keeps n ∧ n.toUInt16 = slot := by
  have hsome : slot ∈ cache.slots.map (·.1) ↔ (cache.slots.lookup slot).isSome := by
    simp only [List.lookup_isSome_iff, List.mem_map, beq_iff_eq, eq_comm (a := slot)]
  rw [hsome, Option.isSome_iff_exists]
  simp only [h.kept, List.mem_map, Prod.exists, exists_and_right, exists_eq_right]
  exact exists_comm.trans (exists_congr fun n => exists_and_right)

/-- The slots in use are as many as the numbers that were asked for and are kept. -/
theorem Follows.size_eq (h : cache.Follows log) :
    cache.size = ((log.map (·.1)).filter (Keeps ·)).dedup.length := by
  have hmem : ∀ n, n ∈ ((log.map (·.1)).filter (Keeps ·)).dedup ↔ n ∈ log.map (·.1) ∧ Keeps n := by
    simp only [List.mem_dedup, List.mem_filter, decide_eq_true_eq, implies_true]
  have hperm : (cache.slots.map (·.1)).Perm
      (((log.map (·.1)).filter (Keeps ·)).dedup.map UInt64.toUInt16) := by
    rw [List.perm_ext_iff_of_nodup h.distinct ((List.nodup_dedup _).map_on ?_)]
    · intro slot
      simp only [h.mem_slots, List.mem_map, hmem, and_assoc]
    · intro k hk n hn
      exact ((hmem k).mp hk).2.eq_of_slot ((hmem n).mp hn).2
  calc cache.size = (cache.slots.map (·.1)).length := (List.length_map _).symm
    _ = (((log.map (·.1)).filter (Keeps ·)).dedup.map UInt64.toUInt16).length := hperm.length_eq
    _ = ((log.map (·.1)).filter (Keeps ·)).dedup.length := List.length_map _

theorem Follows.size_le (h : cache.Follows log) : cache.size ≤ integerCacheRange := by
  have hnodup : ((cache.slots.map (·.1)).map UInt16.toNat).Nodup :=
    h.distinct.map fun _ _ => UInt16.toNat_inj.mp
  have hsub : (cache.slots.map (·.1)).map UInt16.toNat ⊆ List.range integerCacheRange := by
    intro i hi
    obtain ⟨slot, -, rfl⟩ := List.mem_map.mp hi
    exact List.mem_range.mpr slot.toNat_lt
  have hle := (hnodup.subperm hsub).length_le
  rwa [List.length_map, List.length_map, List.length_range] at hle

/-! ### The cache against making every integer anew -/

/-- The answers to the requests, and the cache that they leave, are as those of making every integer anew,
but for the handles. -/
structure Transparent (requests : List UInt64) (answers : List BigInteger) (cache : IntegerCache) :
    Prop where
  values : answers.map (·.value) = requests.map (fun n => (n.toNat : Int))
  /-- Two answers share a handle if they are for one number below the bound, and only if they are for one
  number. -/
  handles : ∀ p ∈ requests.zip answers, ∀ q ∈ requests.zip answers,
    (p.1 = q.1 → p.1.toNat < integerCacheRange → p.2 = q.2) ∧ (p.2.serial = q.2.serial → p.1 = q.1)
  size : cache.size = (requests.filter (·.toNat < integerCacheRange)).dedup.length
  size_le : cache.size ≤ integerCacheRange
  /-- The next request for a number that is kept is answered with the handle from the first time. -/
  again : ∀ p ∈ requests.zip answers, p.1.toNat < integerCacheRange → cache.get p.1 = (p.2, cache)
  /-- One from the bound on leaves what is kept as it is. -/
  passed : ∀ n, integerCacheRange ≤ n.toNat → (cache.get n).2.slots = cache.slots
  next : ∀ n, (cache.get n).1.value = n.toNat
  /-- On a machine with the cache a count is shown as its big integer. -/
  shown : ∀ n (call : Script.Caller) (m : Script.Machine), m.integers = cache →
    Script.Succeeds call m (Script.countValue n) (.bigInt n.toNat)
      { m with integers := (cache.get n).2 }

/-- However many integers a script is handed out, and in whatever order, the cache cannot be told. -/
theorem serve_transparent (requests : List UInt64) :
    Transparent requests (empty.serve requests).1 (empty.serve requests).2 := by
  set answers := (empty.serve requests).1
  set cache := (empty.serve requests).2
  have hlength : answers.length = requests.length := length_serve requests
  have hfollows : cache.Follows (requests.zip answers) := follows_empty.serve requests
  have hasked : (requests.zip answers).map (·.1) = requests := List.map_fst_zip hlength.ge
  have hgiven : (requests.zip answers).map (·.2) = answers := List.map_snd_zip hlength.le
  have hagain : ∀ p ∈ requests.zip answers, p.1.toNat < integerCacheRange →
      cache.get p.1 = (p.2, cache) :=
    fun p hp hkeeps => get_of_kept hkeeps (hfollows.lookup hkeeps hp)
  have hget : ∀ n, (cache.get n).1.value = n.toNat := fun n =>
    (hfollows.get n).issued.value _ (List.mem_append_right _ (List.mem_singleton.mpr rfl))
  constructor
  case values =>
    have hvalues : (requests.zip answers).map (·.2.value) =
        (requests.zip answers).map (fun p => (p.1.toNat : Int)) :=
      List.map_congr_left hfollows.issued.value
    calc answers.map (·.value)
        = ((requests.zip answers).map (·.2)).map (·.value) := by rw [hgiven]
      _ = ((requests.zip answers).map (·.1)).map (fun n => (n.toNat : Int)) := by
          rw [List.map_map, List.map_map]; exact hvalues
      _ = requests.map (fun n => (n.toNat : Int)) := by rw [hasked]
  case handles =>
    refine fun p hp q hq => ⟨fun heq hkeeps => ?_, fun heq => ?_⟩
    · have hp' := hagain p hp hkeeps
      rw [heq, hagain q hq (heq ▸ hkeeps)] at hp'
      exact (congrArg Prod.fst hp').symm
    · exact congrArg Prod.fst (hfollows.issued.apart p hp q hq heq)
  case size =>
    rw [hfollows.size_eq, hasked]
    rfl
  case size_le => exact hfollows.size_le
  case again => exact hagain
  case passed =>
    intro n hn
    rw [get_of_not_keeps (not_keeps_iff.mpr hn)]
  case next => exact hget
  case shown =>
    intro n call m hm
    rw [← hget n, ← hm]
    exact .modifyGet _

/-- Numbers with the same low bits. -/
example : (empty.serve [65535, 131071, 65535, 131071]).1 =
    [⟨0, 65535⟩, ⟨1, 131071⟩, ⟨0, 65535⟩, ⟨2, 131071⟩] := by
  decide +kernel

end IntegerCache

end HostView
