import HostView.Net.Address
import HostView.Proofs.Text.Digits

/-! # Addresses read back

Reading is more liberal than writing, but it gives every address back from its own text. Runs of
digits end at a point, at a colon or with the text, so that octets and groups are found again one by
one; the zeros that two colons stand for are as many as the groups that are missing.
-/

namespace HostView.Address

variable {digit? : Char → Option Nat} {b n : Nat} {c : Char} {cs rest : List Char} {gs : List Nat}

/-! ### Runs of digits -/

/-- A run of digits ends here. -/
def Ends (digit? : Char → Option Nat) (rest : List Char) : Prop :=
  ∀ c ∈ rest.head?, digit? c = none

theorem run_ends (count value : Nat) (h : Ends digit? rest) :
    run digit? b count value rest = (count, value, rest) := by
  cases rest with
  | nil => rfl
  | cons c rest =>
      have hc : digit? c = none := h c rfl
      rw [run, hc]

/-- The digits of a number belong to the run that they continue. -/
theorem run_toDigits (hb : 1 < b) (hdigit : ∀ d < b, digit? d.digitChar = some d) (n : Nat)
    (rest : List Char) (count value : Nat) :
    run digit? b count value (Nat.toDigits b n ++ rest) =
      run digit? b (count + (Nat.toDigits b n).length)
        (value * b ^ (Nat.toDigits b n).length + n) rest := by
  induction n using Nat.strongRecOn generalizing rest count value with
  | ind n ih =>
      rw [Nat.toDigits_eq_if hb]
      split
      next hn =>
        simp only [List.cons_append, List.nil_append, run, hdigit n hn, List.length_singleton,
          Nat.pow_one]
      next hn =>
        have hlast := hdigit (n % b) (Nat.mod_lt n (by omega))
        have hvalue : (value * b ^ (Nat.toDigits b (n / b)).length + n / b) * b + n % b =
            value * b ^ ((Nat.toDigits b (n / b)).length + 1) + n := by
          have hn := Nat.div_add_mod n b
          rw [Nat.mul_comm] at hn
          rw [Nat.add_mul, Nat.mul_assoc, ← Nat.pow_succ, Nat.add_assoc, hn]
        rw [List.append_assoc, ih (n / b) (Nat.div_lt_self (by omega) hb), List.singleton_append,
          run, hlast]
        simp only [hvalue, List.length_append, List.length_singleton, Nat.add_assoc]

/-- A run is exactly the digits of a number. -/
theorem run_number (hb : 1 < b) (hdigit : ∀ d < b, digit? d.digitChar = some d) (n : Nat)
    (h : Ends digit? rest) :
    run digit? b 0 0 (Nat.toDigits b n ++ rest) = ((Nat.toDigits b n).length, n, rest) := by
  rw [run_toDigits hb hdigit, run_ends _ _ h, Nat.zero_add, Nat.zero_mul, Nat.zero_add]

/-- What follows a run is part of the text. -/
theorem mem_of_mem_run (count value : Nat) (hc : c ∈ (run digit? b count value cs).2.2) :
    c ∈ cs := by
  induction cs generalizing count value with
  | nil => exact hc
  | cons d cs ih =>
      rw [run] at hc
      split at hc
      · exact List.mem_cons_of_mem d (ih _ _ hc)
      · exact hc

/-! ### Octets -/

theorem octet?_digits (hn : n < 256) (h : Ends Decimal.digit? rest) :
    octet? (Decimal.digits n ++ rest) = some (n, rest) := by
  have hlength : (Decimal.digits n).length ≤ 3 :=
    (Nat.length_toDigits_le_iff (by omega) (by omega)).mpr (by omega)
  have hpos : 0 < (Decimal.digits n).length := Nat.length_toDigits_pos
  have hzero : ¬ (1 < (Decimal.digits n).length ∧
      (Decimal.digits n ++ rest).head? = some '0') := by
    rintro ⟨hlong, hhead⟩
    cases n with
    | zero => simp [Decimal.digits] at hlong
    | succ n =>
        refine Nat.head?_toDigits_ne (b := 10) (by omega) n.succ_pos ?_
        rw [List.head?_append, Option.or_eq_some_iff] at hhead
        rcases hhead with hhead | ⟨hnil, -⟩
        · exact hhead
        · exact absurd (List.head?_eq_none_iff.mp hnil) Nat.toDigits_ne_nil
  unfold octet?
  rw [show run Decimal.digit? 10 0 0 (Decimal.digits n ++ rest) = _ from
    run_number (by omega) (fun _ => Decimal.digit?_digitChar) n h]
  refine if_neg ?_
  change ¬ ((Decimal.digits n).length = 0 ∨ 3 < (Decimal.digits n).length ∨ _)
  rintro (hnone | hlong | hlarge | hlead)
  · omega
  · omega
  · omega
  · exact hzero hlead

theorem ends_of_head (hc : digit? c = none) : Ends digit? (c :: rest) := by
  rintro c' ⟨⟩
  exact hc

theorem ends_nil : Ends digit? [] := by
  rintro c ⟨⟩

/-- Four octets are read back as the number that they write. -/
theorem octets?_octetText (hn : n < 2 ^ 32) (h : Ends Decimal.digit? rest) :
    octets? (octetText n ++ rest) = some (n, rest) := by
  have hpoint : ∀ cs, Ends Decimal.digit? ('.' :: cs) := fun _ => ends_of_head (by decide)
  have hoctet : ∀ m cs, octet? (Decimal.digits (m % 256) ++ '.' :: cs) = some (m % 256, '.' :: cs) :=
    fun m cs => octet?_digits (Nat.mod_lt m (by omega)) (hpoint cs)
  have hlast : octet? (Decimal.digits (n % 256) ++ rest) = some (n % 256, rest) :=
    octet?_digits (Nat.mod_lt n (by omega)) h
  have hvalue : ((n / 2 ^ 24 % 256 * 256 + n / 2 ^ 16 % 256) * 256 + n / 2 ^ 8 % 256) * 256 +
      n % 256 = n := by
    omega
  simp only [octetText, List.append_assoc, List.cons_append, octets?, hoctet, hlast, mark?, bind,
    Option.bind, if_true, hvalue]

/-- Where no point is, no octets are. -/
theorem octets?_eq_none (h : '.' ∉ cs) : octets? cs = none := by
  have hmark : ∀ {rest}, (∀ c ∈ rest, c ∈ cs) → mark? '.' rest = none := by
    intro rest hrest
    cases rest with
    | nil => rfl
    | cons c rest =>
        refine if_neg ?_
        rintro rfl
        exact h (hrest _ List.mem_cons_self)
  unfold octets?
  cases hoctet : octet? cs with
  | none => rfl
  | some p =>
      unfold octet? at hoctet
      split at hoctet
      next count value rest hrun =>
        split at hoctet
        · cases hoctet
        · cases hoctet
          have hnone : mark? '.' rest = none := by
            refine hmark fun c hc => ?_
            exact mem_of_mem_run 0 0 (by rw [hrun]; exact hc)
          simp only [bind, Option.bind, hnone]

/-! ### Groups -/

theorem group?_toDigits {g : Nat} (hg : g < 65536) (h : Ends Hexadecimal.digit? rest) :
    group? (Nat.toDigits 16 g ++ rest) = some (g, rest) := by
  have hlength : (Nat.toDigits 16 g).length ≤ 4 :=
    (Nat.length_toDigits_le_iff (by omega) (by omega)).mpr (by omega)
  have hpos : 0 < (Nat.toDigits 16 g).length := Nat.length_toDigits_pos
  unfold group?
  rw [run_number (by omega) (fun _ => Hexadecimal.digit?_digitChar) g h]
  refine if_neg ?_
  omega

/-- The text of groups that follow another. -/
def laterText (gs : List Nat) : List Char := gs.flatMap fun g => ':' :: Nat.toDigits 16 g

theorem laterText_cons (g : Nat) (gs : List Nat) :
    laterText (g :: gs) = ':' :: (Nat.toDigits 16 g ++ laterText gs) := by
  rw [laterText, List.flatMap_cons, List.cons_append, laterText]

theorem groupText_cons (g : Nat) (gs : List Nat) :
    groupText (g :: gs) = Nat.toDigits 16 g ++ laterText gs := by
  induction gs generalizing g with
  | nil => exact (List.append_nil _).symm
  | cons g' gs ih =>
      rw [groupText, ih g', laterText_cons]
      exact List.cons_ne_nil g' gs

theorem mem_laterText (hc : c ∈ laterText gs) : c = ':' ∨ ∃ d, c = Nat.digitChar d := by
  obtain ⟨g, -, hg⟩ := List.mem_flatMap.mp hc
  rcases List.mem_cons.mp hg with hcolon | hdigit
  · exact .inl hcolon
  · obtain ⟨d, -, hd⟩ := Nat.exists_of_mem_toDigits (by omega) hdigit
    exact .inr ⟨d, hd⟩

theorem mem_groupText (hc : c ∈ groupText gs) : c = ':' ∨ ∃ d, c = Nat.digitChar d := by
  cases gs with
  | nil => cases hc
  | cons g gs =>
      rw [groupText_cons] at hc
      rcases List.mem_append.mp hc with hdigit | hlater
      · obtain ⟨d, -, hd⟩ := Nat.exists_of_mem_toDigits (by omega) hdigit
        exact .inr ⟨d, hd⟩
      · exact mem_laterText hlater

theorem point_notMem_groupText : '.' ∉ groupText gs := by
  intro hc
  rcases mem_groupText hc with hcolon | ⟨d, hd⟩
  · simp at hcolon
  · simp at hd

/-- Groups without a point after them are no octets. -/
theorem octets?_group_none {g : Nat} (hpoint : '.' ∉ rest) :
    octets? (Nat.toDigits 16 g ++ (laterText gs ++ rest)) = none := by
  rw [← List.append_assoc, ← groupText_cons]
  refine octets?_eq_none fun hc => ?_
  rcases List.mem_append.mp hc with hc | hc
  · exact point_notMem_groupText hc
  · exact hpoint hc

/-- After the groups of a text comes its end or a pair of colons. -/
def Stops (rest : List Char) : Prop := rest = [] ∨ ∃ tail, rest = ':' :: ':' :: tail

theorem groups_stops (first : Bool) (room : Nat) (h : Stops rest) :
    groups first room rest = ([], false, rest) := by
  cases room with
  | zero => rfl
  | succ room =>
      rcases h with rfl | ⟨tail, rfl⟩
      · cases first <;> cases room <;> rfl
      · cases first <;> cases room <;> rfl

theorem Stops.ends (h : Stops rest) : Ends Hexadecimal.digit? rest := by
  rcases h with rfl | ⟨tail, rfl⟩
  · exact ends_nil
  · exact ends_of_head (by decide)

theorem ends_laterText (h : Stops rest) : Ends Hexadecimal.digit? (laterText gs ++ rest) := by
  cases gs with
  | nil => exact h.ends
  | cons g gs => exact ends_of_head (by decide)

/-- A group is read where its separator is, and the groups after it follow. -/
theorem groups_cons {first : Bool} {room g : Nat} (hg : g < 65536)
    (hcs : separator? first cs = some (Nat.toDigits 16 g ++ rest))
    (hoctets : octets? (Nat.toDigits 16 g ++ rest) = none) (h : Ends Hexadecimal.digit? rest) :
    groups first (room + 1) cs =
      (g :: (groups false room rest).1, (groups false room rest).2) := by
  have hembedded : (if room = 0 then none else (separator? first cs).bind octets?) = none := by
    split
    · rfl
    · rw [hcs, Option.bind_some, hoctets]
  rw [groups, hembedded, hcs]
  simp only [Option.bind_some, group?_toDigits hg h]

theorem groups_laterText {room : Nat} (hlength : gs.length ≤ room) (hgs : ∀ g ∈ gs, g < 65536)
    (hpoint : '.' ∉ rest) (h : Stops rest) :
    groups false room (laterText gs ++ rest) = (gs, false, rest) := by
  induction gs generalizing room with
  | nil => exact groups_stops false room h
  | cons g gs ih =>
      cases room with
      | zero => simp at hlength
      | succ room =>
          rw [laterText_cons, List.cons_append, List.append_assoc,
            groups_cons (hgs g List.mem_cons_self) rfl (octets?_group_none hpoint)
              (ends_laterText h),
            ih (Nat.le_of_succ_le_succ hlength) fun g' hg' => hgs g' (List.mem_cons_of_mem g hg')]

/-- Groups are read back, up to the end of the text or a pair of colons. -/
theorem groups_groupText {room : Nat} (hlength : gs.length ≤ room) (hgs : ∀ g ∈ gs, g < 65536)
    (hpoint : '.' ∉ rest) (h : Stops rest) :
    groups true room (groupText gs ++ rest) = (gs, false, rest) := by
  cases gs with
  | nil => exact groups_stops true room h
  | cons g gs =>
      cases room with
      | zero => simp at hlength
      | succ room =>
          rw [groupText_cons, List.append_assoc,
            groups_cons (hgs g List.mem_cons_self) rfl (octets?_group_none hpoint)
              (ends_laterText h),
            groups_laterText (Nat.le_of_succ_le_succ hlength)
              (fun g' hg' => hgs g' (List.mem_cons_of_mem g hg')) hpoint h]

/-! ### Zeros left out -/

/-- There are zeros from a start on, as many as a length. -/
def ZerosAt (gs : List Nat) (run : Nat × Nat) : Prop :=
  ∀ i, run.1 ≤ i → i < run.1 + run.2 → gs[i]? = some 0

/-- The run that is found is one of zeros: so is the run that ends where the search has come to, and
the best before it. -/
theorem zerosAt_longestZeros {all before gs : List Nat} {start length : Nat} {best : Nat × Nat}
    (hall : all = before ++ gs) (hrun : ZerosAt all (start, length))
    (hends : 0 < length → start + length = before.length) (hbest : ZerosAt all best) :
    ZerosAt all (longestZeros before.length start length best gs) := by
  induction gs generalizing before start length best with
  | nil => exact hbest
  | cons g gs ih =>
      have hnext : all = (before ++ [g]) ++ gs := by
        rw [hall, List.append_assoc, List.singleton_append]
      have hindex : (before ++ [g]).length = before.length + 1 := by simp
      rw [longestZeros, ← hindex]
      split
      next hg =>
        have hhere : all[before.length]? = some 0 := by
          rw [hall, List.getElem?_append_right (Nat.le_refl _), Nat.sub_self, hg]
          rfl
        -- the run grows by this zero, or starts with it
        have hgrown : ZerosAt all (if length = 0 then before.length else start, length + 1) := by
          intro i hle hlt
          simp only at hle hlt
          split at hle
          next hzero =>
            rw [if_pos hzero] at hlt
            have hi : i = before.length := by omega
            rw [hi, hhere]
          next hzero =>
            rw [if_neg hzero] at hlt
            have hstart := hends (by omega)
            by_cases hi : i = before.length
            · rw [hi, hhere]
            · exact hrun i hle (by simp only; omega)
        refine ih hnext hgrown (fun _ => ?_) ?_
        · split
          · omega
          · have hstart := hends (by omega)
            omega
        · split
          · exact hgrown
          · exact hbest
      next =>
        refine ih hnext (fun i _ hlt => ?_) (fun hlt => absurd hlt (Nat.lt_irrefl 0)) hbest
        exact absurd hlt (by simp only; omega)

/-- Zeros that were left out are put back. -/
theorem ZerosAt.fill {start length : Nat} (h : ZerosAt gs (start, length)) (hpos : 0 < length) :
    start + length ≤ gs.length ∧
      gs.take start ++ List.replicate length 0 ++ gs.drop (start + length) = gs := by
  have hlength : start + length ≤ gs.length := by
    have hlast := h (start + length - 1) (by simp only; omega) (by simp only; omega)
    have hlt := (List.getElem?_eq_some_iff.mp hlast).1
    omega
  have hzeros : (gs.drop start).take length = List.replicate length 0 := by
    refine List.eq_replicate_iff.mpr ⟨by simp; omega, fun g hg => ?_⟩
    obtain ⟨i, hi⟩ := List.mem_iff_getElem?.mp hg
    rw [List.getElem?_take] at hi
    split at hi
    next hlt =>
      rw [List.getElem?_drop, h (start + i) (by simp) (by simp only; omega)] at hi
      exact (Option.some.inj hi).symm
    next => cases hi
  refine ⟨hlength, ?_⟩
  rw [← hzeros, ← List.drop_drop, List.append_assoc, List.take_append_drop, List.take_append_drop]

/-! ### Addresses -/

theorem lt_of_mem_toGroups {g : Nat} (hg : g ∈ toGroups n) : g < 65536 := by
  simp only [toGroups, List.mem_cons, List.not_mem_nil, or_false] at hg
  omega

theorem joinGroups_toGroups (hn : n < 2 ^ 128) : joinGroups (toGroups n) = n := by
  simp only [joinGroups, toGroups, List.foldl_cons, List.foldl_nil]
  omega

/-- An address is written in one of three ways: ending in octets, with zeros left out, or in full. -/
theorem longText_cases (n : Nat) :
    (n / 2 ^ 32 = 0xFFFF ∧ longText n = "::ffff:".toList ++ octetText (n % 2 ^ 32)) ∨
    (∃ start length, 1 < length ∧ ZerosAt (toGroups n) (start, length) ∧
      longText n = groupText ((toGroups n).take start) ++
        ':' :: ':' :: groupText ((toGroups n).drop (start + length))) ∨
    longText n = groupText (toGroups n) := by
  by_cases hembeds : n / 2 ^ 32 = 0xFFFF
  · exact .inl ⟨hembeds, if_pos hembeds⟩
  · right
    have hnone : ZerosAt (toGroups n) (0, 0) := fun i _ hi => absurd hi (Nat.not_lt_zero i)
    have hzeros := @zerosAt_longestZeros (toGroups n) [] (toGroups n) 0 0 (0, 0) rfl hnone
      (fun hlt => absurd hlt (Nat.lt_irrefl 0)) hnone
    have htext : longText n = if 1 < (longestZeros 0 0 0 (0, 0) (toGroups n)).2 then
        groupText ((toGroups n).take (longestZeros 0 0 0 (0, 0) (toGroups n)).1) ++
          ':' :: ':' :: groupText ((toGroups n).drop
            ((longestZeros 0 0 0 (0, 0) (toGroups n)).1 +
              (longestZeros 0 0 0 (0, 0) (toGroups n)).2))
        else groupText (toGroups n) := if_neg hembeds
    by_cases hlong : 1 < (longestZeros 0 0 0 (0, 0) (toGroups n)).2
    · rw [if_pos hlong] at htext
      exact .inl ⟨_, _, hlong, hzeros, htext⟩
    · rw [if_neg hlong] at htext
      exact .inr htext

theorem octets?_longText (n : Nat) : octets? (longText n) = none := by
  rcases longText_cases n with ⟨-, htext⟩ | ⟨start, length, -, -, htext⟩ | htext
  · rw [htext]
    rfl
  · rw [htext]
    refine octets?_eq_none fun hc => ?_
    rcases List.mem_append.mp hc with hc | hc
    · exact point_notMem_groupText hc
    · simp only [List.mem_cons] at hc
      rcases hc with hc | hc | hc
      · simp at hc
      · simp at hc
      · exact point_notMem_groupText hc
  · rw [htext]
    exact octets?_eq_none point_notMem_groupText

/-- Octets take the place of the last two groups. -/
theorem groups_octets {first : Bool} {room : Nat}
    (h : (separator? first cs).bind octets? = some (n, rest)) (hroom : room ≠ 0) :
    groups first (room + 1) cs = ([n / 65536, n % 65536], true, rest) := by
  rw [groups, if_neg hroom, h]

/-- The groups before and after a pair of colons are read one after the other. -/
theorem longForm?_around {head tail : List Nat} {octets : Bool}
    (hhead : groups true 8 cs = (head, false, ':' :: ':' :: rest)) (hshort : head.length ≠ 8)
    (htail : groups true (7 - head.length) rest = (tail, octets, [])) :
    longForm? cs = some
      (joinGroups (head ++ List.replicate (8 - head.length - tail.length) 0 ++ tail), []) := by
  rw [longForm?, hhead]
  simp only [if_neg hshort, mark?, if_true, bind, Option.bind, htail]
  rfl

/-- An address that embeds one of the other family is read back. -/
theorem longForm?_embedding (hembeds : n / 2 ^ 32 = 0xFFFF) :
    longForm? ("::ffff:".toList ++ octetText (n % 2 ^ 32)) = some (n, []) := by
  have hoctets : octets? (octetText (n % 2 ^ 32)) = some (n % 2 ^ 32, []) := by
    rw [← List.append_nil (octetText _)]
    exact octets?_octetText (Nat.mod_lt n (by omega)) ends_nil
  have hembedded : groups false 6 (':' :: octetText (n % 2 ^ 32)) =
      ([n % 2 ^ 32 / 65536, n % 2 ^ 32 % 65536], true, []) :=
    groups_octets hoctets (by decide)
  have htail : groups true 7 ('f' :: 'f' :: 'f' :: 'f' :: ':' :: octetText (n % 2 ^ 32)) =
      ([0xFFFF, n % 2 ^ 32 / 65536, n % 2 ^ 32 % 65536], true, []) := by
    have hread : groups true 7 ('f' :: 'f' :: 'f' :: 'f' :: ':' :: octetText (n % 2 ^ 32)) =
        (0xFFFF :: (groups false 6 (':' :: octetText (n % 2 ^ 32))).1,
          (groups false 6 (':' :: octetText (n % 2 ^ 32))).2) :=
      groups_cons (by decide) rfl rfl (ends_of_head (by decide))
    rw [hembedded] at hread
    exact hread
  have hvalue :
      joinGroups [0, 0, 0, 0, 0, 0xFFFF, n % 2 ^ 32 / 65536, n % 2 ^ 32 % 65536] = n := by
    simp only [joinGroups, List.foldl_cons, List.foldl_nil]
    omega
  have hread := longForm?_around (groups_stops true 8 (.inr ⟨_, rfl⟩)) (by decide) htail
  rw [show "::ffff:".toList ++ octetText (n % 2 ^ 32) =
    ':' :: ':' :: 'f' :: 'f' :: 'f' :: 'f' :: ':' :: octetText (n % 2 ^ 32) from rfl, hread]
  exact congrArg (fun n => some (n, [])) hvalue

/-- Every group of an address is read back, and those that were left out are zeros. -/
theorem longForm?_longText (hn : n < 2 ^ 128) : longForm? (longText n) = some (n, []) := by
  have hgroups : ∀ g ∈ toGroups n, g < 65536 := fun _ => lt_of_mem_toGroups
  rcases longText_cases n with ⟨hembeds, htext⟩ | ⟨start, length, hlong, hzeros, htext⟩ | htext
  · rw [htext]
    exact longForm?_embedding hembeds
  · obtain ⟨hlength, hfill⟩ := hzeros.fill (by omega)
    have hcount : start + length ≤ 8 := hlength
    have hstart : ((toGroups n).take start).length = start := by
      simp [toGroups]
      omega
    have hmissing : 8 - start - ((toGroups n).drop (start + length)).length = length := by
      simp [toGroups]
      omega
    let after := groupText ((toGroups n).drop (start + length))
    have hhead : groups true 8 (groupText ((toGroups n).take start) ++ ':' :: ':' :: after) =
        ((toGroups n).take start, false, ':' :: ':' :: after) := by
      refine groups_groupText (by omega) (fun g hg => hgroups g (List.mem_of_mem_take hg)) ?_
        (.inr ⟨_, rfl⟩)
      simpa using point_notMem_groupText
    have htail : groups true (7 - start) (after ++ []) =
        ((toGroups n).drop (start + length), false, []) :=
      groups_groupText (by omega) (fun g hg => hgroups g (List.mem_of_mem_drop hg)) nofun (.inl rfl)
    rw [List.append_nil] at htail
    rw [htext, longForm?_around hhead (by omega) (by rw [hstart]; exact htail), hstart, hmissing,
      hfill, joinGroups_toGroups hn]
  · have hread : groups true 8 (groupText (toGroups n) ++ []) = (toGroups n, false, []) :=
      groups_groupText (Nat.le_refl _) hgroups nofun (.inl rfl)
    rw [List.append_nil] at hread
    rw [htext, longForm?, hread]
    simp only [joinGroups_toGroups hn]
    rfl

/-- Every address is read back from its text. -/
theorem parse?_render (a : Address) : parse? a.render = some a := by
  cases a with
  | v4 bits =>
      have hoctets : octets? (octetText bits.toNat) = some (bits.toNat, []) := by
        rw [← List.append_nil (octetText _)]
        exact octets?_octetText bits.isLt ends_nil
      simp only [parse?, render, String.toList_ofList, hoctets, if_true, BitVec.ofNat_toNat,
        BitVec.setWidth_eq]
  | v6 bits =>
      simp only [parse?, render, String.toList_ofList, octets?_longText,
        longForm?_longText bits.isLt, BitVec.ofNat_toNat, BitVec.setWidth_eq]

/-- The text of an address has no slash. -/
theorem slash_notMem_render (a : Address) : '/' ∉ a.render.toList := by
  have hdigits : ∀ m, '/' ∉ Decimal.digits m := by
    intro m hc
    obtain ⟨d, -, hd⟩ := Nat.exists_of_mem_toDigits (by omega) hc
    simp at hd
  have hoctets : ∀ m, '/' ∉ octetText m := by
    intro m
    simp [octetText, hdigits]
  have hgroups : ∀ gs, '/' ∉ groupText gs := by
    intro gs hc
    rcases mem_groupText hc with hcolon | ⟨d, hd⟩
    · simp at hcolon
    · simp at hd
  cases a with
  | v4 bits =>
      rw [render, String.toList_ofList]
      exact hoctets _
  | v6 bits =>
      rw [render, String.toList_ofList]
      rcases longText_cases bits.toNat with ⟨-, htext⟩ | ⟨start, length, -, -, htext⟩ | htext
      · rw [htext]
        simp [hoctets]
      · rw [htext]
        simp [hgroups]
      · rw [htext]
        exact hgroups _

end HostView.Address
