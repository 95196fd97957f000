import HostView.Proofs.Net.Literals
import HostView.Proofs.Net.Membership
import HostView.Proofs.Text.Numerals

/-! # The grammar of network literals

Which texts are literals of ports and of subnets, and which fault the others have. A literal is split at
its first slash, and neither a numeral nor the literal of an address has one, so that the parts are
determined. A fault after the slash is told only where there is none before it. Main statement:
`literals_read_exactly`.
-/

namespace HostView

variable {s text x y : String} {cs rest : List Char} {n : Nat} {fault : LiteralFault}

/-! ### Parts of literals -/

/-- A text is split at its first slash. -/
theorem splitSlash?_eq_some_iff :
    splitSlash? s = some (x, y) ↔ s = x ++ "/" ++ y ∧ '/' ∉ x.toList := by
  constructor
  · intro h
    unfold splitSlash? at h
    dsimp only at h
    split at h
    · cases h
    next slash rest hdrop =>
      cases h
      have hslash : slash = '/' := by
        have hhead := List.head?_dropWhile_not (fun c => decide (c ≠ '/')) s.toList
        rw [hdrop] at hhead
        simpa using hhead
      refine ⟨String.toList_inj.mp ?_, fun hmem => ?_⟩
      · have hsplit := List.takeWhile_append_dropWhile (p := fun c => decide (c ≠ '/')) (l := s.toList)
        rw [hdrop, hslash] at hsplit
        simpa using hsplit.symm
      · rw [String.toList_ofList] at hmem
        have hpasses := List.all_eq_true.mp List.all_takeWhile _ hmem
        simp at hpasses
  · rintro ⟨rfl, hx⟩
    exact splitSlash?_append hx y

theorem Decimal.Writes.slash_notMem (h : Decimal.Writes s n) : '/' ∉ s.toList := by
  obtain ⟨sign, ds, hsign, htext, -, hdigits, -⟩ := h
  rw [htext, List.mem_append]
  rintro (hmem | hmem)
  · rcases hsign with rfl | rfl
    · cases hmem
    · simp at hmem
  · obtain ⟨d, hd, hslash⟩ := List.mem_map.mp hmem
    have hdigit := Decimal.digit?_eq_some_iff.mpr ⟨hdigits d hd, hslash.symm⟩
    cases hdigit

/-! ### No slash in addresses -/

namespace Address

/-- No digit is a slash, so a run of digits leaves one that is there. -/
theorem slash_mem_run {digit? : Char → Option Nat} {radix : Nat} (hslash : digit? '/' = none)
    (h : '/' ∈ cs) (count value : Nat) : '/' ∈ (run digit? radix count value cs).2.2 := by
  induction cs generalizing count value with
  | nil => cases h
  | cons c cs ih =>
      rw [run]
      split
      next d hd =>
        rcases List.mem_cons.mp h with rfl | hrest
        · rw [hslash] at hd
          cases hd
        · exact ih hrest _ _
      next => exact h

theorem slash_mem_octet? (h : '/' ∈ cs) (hread : octet? cs = some (n, rest)) : '/' ∈ rest := by
  have hmem : '/' ∈ (run Decimal.digit? 10 0 0 cs).2.2 := slash_mem_run rfl h 0 0
  unfold octet? at hread
  dsimp only at hread
  split at hread
  · cases hread
  · cases hread
    exact hmem

theorem slash_mem_group? (h : '/' ∈ cs) (hread : group? cs = some (n, rest)) : '/' ∈ rest := by
  have hmem : '/' ∈ (run Hexadecimal.digit? 16 0 0 cs).2.2 := slash_mem_run rfl h 0 0
  unfold group? at hread
  dsimp only at hread
  split at hread
  · cases hread
  · cases hread
    exact hmem

theorem slash_mem_mark? {mark : Char} (hmark : mark ≠ '/') (h : '/' ∈ cs)
    (hread : mark? mark cs = some rest) : '/' ∈ rest := by
  cases cs with
  | nil => cases h
  | cons c cs =>
      obtain ⟨rfl, hrest⟩ : c = mark ∧ cs = rest := by simpa [mark?] using hread
      rw [← hrest]
      exact (List.mem_cons.mp h).resolve_left hmark.symm

theorem slash_mem_octets? (h : '/' ∈ cs) (hread : octets? cs = some (n, rest)) : '/' ∈ rest := by
  have hpoint : '.' ≠ '/' := by decide
  simp only [octets?, Option.bind_eq_bind, Option.bind_eq_some_iff, Prod.exists, Option.some.injEq,
    Prod.mk.injEq] at hread
  obtain ⟨a, cs₁, ha, cs₂, hpoint₁, b, cs₃, hb, cs₄, hpoint₂, c, cs₅, hc, cs₆, hpoint₃, d, cs₇, hd, -, rfl⟩ :=
    hread
  have h₁ := slash_mem_octet? (slash_mem_mark? hpoint (slash_mem_octet? h ha) hpoint₁) hb
  have h₂ := slash_mem_octet? (slash_mem_mark? hpoint h₁ hpoint₂) hc
  exact slash_mem_octet? (slash_mem_mark? hpoint h₂ hpoint₃) hd

theorem slash_mem_separator? {first : Bool} (h : '/' ∈ cs)
    (hread : separator? first cs = some rest) : '/' ∈ rest := by
  unfold separator? at hread
  split at hread
  · cases hread
    exact h
  · exact slash_mem_mark? (by decide) h hread

theorem slash_mem_groups (first : Bool) (room : Nat) (h : '/' ∈ cs) :
    '/' ∈ (groups first room cs).2.2 := by
  induction room generalizing first cs with
  | zero => exact h
  | succ room ih =>
      rw [groups]
      dsimp only
      split
      next n rest hembedded =>
        split at hembedded
        · cases hembedded
        · obtain ⟨cs', hseparator, hoctets⟩ := Option.bind_eq_some_iff.mp hembedded
          exact slash_mem_octets? (slash_mem_separator? h hseparator) hoctets
      next =>
        split
        next => exact h
        next g rest hgroup =>
          obtain ⟨cs', hseparator, hgroup⟩ := Option.bind_eq_some_iff.mp hgroup
          exact ih false (slash_mem_group? (slash_mem_separator? h hseparator) hgroup)

theorem slash_mem_longForm? (h : '/' ∈ cs) (hread : longForm? cs = some (n, rest)) : '/' ∈ rest := by
  have hhead := slash_mem_groups true 8 h
  unfold longForm? at hread
  dsimp only at hread
  split at hread
  · cases hread
    exact hhead
  · split at hread
    · cases hread
    · simp only [Option.bind_eq_bind, Option.bind_eq_some_iff, Option.some.injEq] at hread
      obtain ⟨cs₁, hcolon₁, cs₂, hcolon₂, htail⟩ := hread
      cases htail
      have hmark := slash_mem_mark? (by decide) (slash_mem_mark? (by decide) hhead hcolon₁) hcolon₂
      exact slash_mem_groups true _ hmark

/-- No literal of an address has a slash. -/
theorem slash_notMem_of_parse? {a : Address} (h : parse? s = some a) : '/' ∉ s.toList := by
  intro hslash
  unfold parse? at h
  dsimp only at h
  split at h
  next n rest hoctets =>
    split at h
    next hrest =>
      have hmem := slash_mem_octets? hslash hoctets
      rw [hrest] at hmem
      cases hmem
    next => cases h
  next =>
    split at h
    next n hlong => cases slash_mem_longForm? hslash hlong
    next => cases h

end Address

/-! ### Ports -/

theorem Protocol.parse_eq_ok_iff {p : Protocol} : Protocol.parse s = .ok p ↔ s = p.render := by
  constructor
  · intro h
    unfold Protocol.parse at h
    split at h
    next hs => cases h; exact hs
    split at h
    next hs => cases h; exact hs
    split at h
    next hs => cases h; exact hs
    split at h
    next hs => cases h; exact hs
    next => cases h
  · rintro rfl
    exact Protocol.parse_render p

/-- A text that names no protocol is at fault itself. -/
theorem Protocol.parse_eq_error_iff :
    Protocol.parse s = .error fault ↔ (∀ p : Protocol, s ≠ p.render) ∧ fault = .protocol s := by
  constructor
  · intro h
    refine ⟨fun p hp => ?_, ?_⟩
    · rw [Protocol.parse_eq_ok_iff.mpr hp] at h
      cases h
    · unfold Protocol.parse at h
      repeat' split at h
      all_goals cases h
      rfl
  · rintro ⟨hnone, rfl⟩
    unfold Protocol.parse
    exact (if_neg (hnone .tcp)).trans ((if_neg (hnone .udp)).trans
      ((if_neg (hnone .icmp)).trans (if_neg (hnone .unknown))))

namespace Port

/-- A text begins with a number that a port may have, and a slash; then comes the rest. -/
def Numbered (s : String) (n : Nat) (rest : String) : Prop :=
  ∃ numeral, s = numeral ++ "/" ++ rest ∧ Decimal.Writes numeral n ∧ n ≤ 65535

/-- What becomes of a text with a number before its first slash. -/
theorem Numbered.parse_eq (h : Numbered s n text) :
    parse s = (Protocol.parse text).map fun p => ⟨.ofNat n, p⟩ := by
  obtain ⟨numeral, rfl, hwrites, hn⟩ := h
  rw [parse, splitSlash?_append hwrites.slash_notMem]
  simp only [Decimal.natural?_eq_some_iff.mpr ⟨hwrites, hn⟩]

/-- Without a number before a slash a text is no port. -/
theorem parse_unnumbered (h : ¬∃ n text, Numbered s n text) : parse s = .error (.port s) := by
  unfold parse
  split
  next => rfl
  next numeral text hsplit =>
    split
    next => rfl
    next n hn =>
      obtain ⟨hs, -⟩ := splitSlash?_eq_some_iff.mp hsplit
      exact absurd ⟨n, text, numeral, hs, Decimal.natural?_eq_some_iff.mp hn⟩ h

theorem parse_eq_ok_iff {p : Port} : parse s = .ok p ↔
    ∃ n protocol, Numbered s n (Protocol.render protocol) ∧ p = ⟨.ofNat n, protocol⟩ := by
  constructor
  · intro h
    by_cases hnumbered : ∃ n text, Numbered s n text
    · obtain ⟨n, text, hnumbered⟩ := hnumbered
      rw [hnumbered.parse_eq] at h
      cases hprotocol : Protocol.parse text with
      | error fault =>
          rw [hprotocol] at h
          cases h
      | ok protocol =>
          rw [hprotocol] at h
          cases h
          exact ⟨n, protocol, Protocol.parse_eq_ok_iff.mp hprotocol ▸ hnumbered, rfl⟩
    · rw [parse_unnumbered hnumbered] at h
      cases h
  · rintro ⟨n, protocol, hnumbered, rfl⟩
    rw [hnumbered.parse_eq, Protocol.parse_render]
    rfl

theorem parse_eq_error_iff : parse s = .error fault ↔
    (∃ n text, Numbered s n text ∧ (∀ protocol : Protocol, text ≠ protocol.render) ∧
      fault = .protocol text) ∨
    (¬∃ n text, Numbered s n text) ∧ fault = .port s := by
  by_cases hnumbered : ∃ n text, Numbered s n text
  · rw [or_iff_left fun h => h.1 hnumbered]
    constructor
    · intro h
      obtain ⟨n, text, hnumbered⟩ := hnumbered
      rw [hnumbered.parse_eq] at h
      cases hprotocol : Protocol.parse text with
      | ok protocol =>
          rw [hprotocol] at h
          cases h
      | error fault' =>
          rw [hprotocol] at h
          cases h
          exact ⟨n, text, hnumbered, Protocol.parse_eq_error_iff.mp hprotocol⟩
    · rintro ⟨n, text, hnumbered, hfault⟩
      rw [hnumbered.parse_eq, Protocol.parse_eq_error_iff.mpr hfault]
      rfl
  · rw [parse_unnumbered hnumbered, Except.error.injEq]
    constructor
    · rintro rfl
      exact .inr ⟨hnumbered, rfl⟩
    · rintro (⟨n, text, h, -⟩ | ⟨-, rfl⟩)
      · exact absurd ⟨n, text, h⟩ hnumbered
      · rfl

end Port

/-! ### Subnets -/

namespace Subnet

/-- A text is an address, a slash and a length that fits into a byte. -/
def Sized (s : String) (a : Address) (n : Nat) : Prop :=
  ∃ address numeral, s = address ++ "/" ++ numeral ∧ Address.parse? address = some a ∧
    Decimal.Writes numeral n ∧ n ≤ 255

variable {a : Address} {t : Subnet}

theorem Sized.parse_eq (h : Sized s a n) : parse s = make a n := by
  obtain ⟨address, numeral, rfl, haddress, hwrites, hn⟩ := h
  rw [parse, splitSlash?_append (Address.slash_notMem_of_parse? haddress)]
  simp only [haddress, Decimal.natural?_eq_some_iff.mpr ⟨hwrites, hn⟩]

theorem parse_unsized (h : ¬∃ a n, Sized s a n) : parse s = .error (.subnet s) := by
  unfold parse
  split
  next => rfl
  next address numeral hsplit =>
    split
    next => rfl
    next a haddress =>
      split
      next => rfl
      next n hn =>
        obtain ⟨hs, -⟩ := splitSlash?_eq_some_iff.mp hsplit
        exact absurd ⟨a, n, address, numeral, hs, haddress, Decimal.natural?_eq_some_iff.mp hn⟩ h

theorem parse_eq_ok_iff : parse s = .ok t ↔ ∃ a n, Sized s a n ∧ n ≤ a.width ∧ t = ⟨mask a n, n⟩ := by
  by_cases hsized : ∃ a n, Sized s a n
  · constructor
    · intro h
      obtain ⟨a, n, hsized⟩ := hsized
      rw [hsized.parse_eq] at h
      exact ⟨a, n, hsized, make_eq_ok_iff.mp h⟩
    · rintro ⟨a, n, hsized, hmake⟩
      rw [hsized.parse_eq, make_eq_ok_iff.mpr hmake]
  · rw [parse_unsized hsized]
    exact iff_of_false nofun fun ⟨a, n, h, _⟩ => hsized ⟨a, n, h⟩

theorem parse_eq_error_iff : parse s = .error fault ↔
    (∃ a n, Sized s a n ∧ a.width < n ∧ fault = .tooLong n a.width) ∨
    (¬∃ a n, Sized s a n) ∧ fault = .subnet s := by
  by_cases hsized : ∃ a n, Sized s a n
  · rw [or_iff_left fun h => h.1 hsized]
    constructor
    · intro h
      obtain ⟨a, n, hsized⟩ := hsized
      rw [hsized.parse_eq, make] at h
      split at h
      next hlt =>
        cases h
        exact ⟨a, n, hsized, hlt, rfl⟩
      next => cases h
    · rintro ⟨a, n, hsized, hlt, rfl⟩
      rw [hsized.parse_eq, make, if_pos hlt]
  · rw [parse_unsized hsized, Except.error.injEq]
    constructor
    · rintro rfl
      exact .inr ⟨hsized, rfl⟩
    · rintro (⟨a, n, h, -⟩ | ⟨-, rfl⟩)
      · exact absurd ⟨a, n, h⟩ hsized
      · rfl

end Subnet

/-- A text is a port just if it is a numeral up to 65535, a slash and the name of a protocol; the name
alone is at fault if all before it is as it should be, and otherwise the whole text is no port. A text is
a subnet just if it is an address, a slash and a numeral up to the width of the family; one beyond it that
fits into a byte is too long, and any other text is no subnet. Every port, every subnet that was made, and
whatever was read from a literal is read back from its own. -/
theorem literals_read_exactly (s : String) :
    (∀ p, Port.parse s = .ok p ↔
      ∃ n protocol, Port.Numbered s n (Protocol.render protocol) ∧ p = ⟨.ofNat n, protocol⟩) ∧
    (∀ fault, Port.parse s = .error fault ↔
      (∃ n name, Port.Numbered s n name ∧ (∀ protocol : Protocol, name ≠ protocol.render) ∧
        fault = .protocol name) ∨
      (¬∃ n name, Port.Numbered s n name) ∧ fault = .port s) ∧
    (∀ t, Subnet.parse s = .ok t ↔
      ∃ a n, Subnet.Sized s a n ∧ n ≤ a.width ∧ t = ⟨Subnet.mask a n, n⟩) ∧
    (∀ fault, Subnet.parse s = .error fault ↔
      (∃ a n, Subnet.Sized s a n ∧ a.width < n ∧ fault = .tooLong n a.width) ∨
      (¬∃ a n, Subnet.Sized s a n) ∧ fault = .subnet s) ∧
    (∀ p : Port, Port.parse p.render = .ok p) ∧
    (∀ a n t, Subnet.make a n = .ok t → Subnet.parse t.render = .ok t) ∧
    (∀ p, Port.parse s = .ok p → Port.parse p.render = .ok p) ∧
    ∀ t, Subnet.parse s = .ok t → Subnet.parse t.render = .ok t :=
  ⟨fun _ => Port.parse_eq_ok_iff, fun _ => Port.parse_eq_error_iff, fun _ => Subnet.parse_eq_ok_iff,
    fun _ => Subnet.parse_eq_error_iff, Port.parse_render,
    fun _ _ _ h => (Subnet.canonical_of_make h).lawful.read, fun p _ => p.parse_render,
    fun _ h => (Subnet.canonical_of_parse h).lawful.read⟩

/-- Literals with a sign, leading zeros and host bits, one that is too long, and a subnet of one member. -/
theorem literals_read_exactly_samples :
    let s : Subnet := ⟨.v4 0x0A000000#32, 8⟩
    let t : Subnet := ⟨.v6 1#128, 128⟩
    Subnet.make (.v6 1#128) 128 = .ok t ∧ Subnet.parse t.render = .ok t ∧
      Subnet.parse "10.1.2.3/+008" = .ok s ∧ Subnet.parse s.render = .ok s ∧
      Port.parse "+0080/tcp" = .ok ⟨80, .tcp⟩ ∧ Port.parse (Port.render ⟨80, .tcp⟩) = .ok ⟨80, .tcp⟩ ∧
      ∃ a n, Subnet.Sized "10.1.2.3/33" a n ∧ a.width < n ∧
        LiteralFault.tooLong 33 32 = .tooLong n a.width := by
  intro s t
  have hmake : Subnet.make (.v6 1#128) 128 = .ok t := rfl
  have hsubnet : Subnet.parse "10.1.2.3/+008" = .ok s := by decide +kernel
  have hport : Port.parse "+0080/tcp" = .ok ⟨80, .tcp⟩ := by decide +kernel
  have hlong : Subnet.parse "10.1.2.3/33" = .error (.tooLong 33 32) := by decide +kernel
  obtain ⟨-, -, -, hfault, -, hmade, -, -⟩ := literals_read_exactly "10.1.2.3/33"
  obtain ⟨-, -, -, -, -, -, -, hread⟩ := literals_read_exactly "10.1.2.3/+008"
  obtain ⟨-, -, -, -, -, -, hreadPort, -⟩ := literals_read_exactly "+0080/tcp"
  exact ⟨hmake, hmade _ _ _ hmake, hsubnet, hread _ hsubnet, hport, hreadPort _ hport,
    ((hfault _).mp hlong).resolve_right fun h => nomatch h.2⟩

end HostView
