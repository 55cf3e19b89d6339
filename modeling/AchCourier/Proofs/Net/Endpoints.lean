import AchCourier.Proofs.Net.AddressText
import AchCourier.Proofs.Text.Trim

/-!
# The grammar of host names

A host name stands for an endpoint in one of five forms: an IPv6 address, which may be bracketed, a
bracketed one with a port behind it, a host without colons, and such a host with a port.  No text
has two of these forms with different meanings, since an IPv6 address has two colons and a host with
its port only one.  The reader of host names takes exactly these forms, except that it also lets a
plus sign pass in front of the digits of a port.

## Main definitions

* `IsV6`, `IsHost` — the two kinds of hosts.
* `Endpoint.IsPort`, `Endpoint.IsSignedPort` — a port, and one behind a plus sign.
* `Endpoint.Spells` — the forms of a host name.
* `Endpoint.text` — an endpoint written out, with its port.

## Main results

* `Endpoint.portNumber?_eq_some_iff`, `Endpoint.parseBracketed_eq_ok_iff`,
  `Endpoint.parsePlain_eq_ok_iff` — what the parts of the reader take.
* `Endpoint.parse_eq_ok_iff` — what the reader takes as a whole.
* `Endpoint.parse_text` — an endpoint that was read is read again from its text.
* `Endpoint.parse_grammar` — **the reader takes the five forms, and a sign before a port.**
-/

namespace AchCourier.Net

open Text

/-! ### Hosts -/

/-- The characters are those of an IPv6 address. -/
def IsV6 (cs : List Char) : Prop :=
  (Ip.parseV6? (String.ofList cs)).isSome = true

namespace IsV6

variable {cs : List Char}

theorem two_le_count (h : IsV6 cs) : 2 ≤ cs.count ':' := by
  obtain ⟨a, ha⟩ := Option.isSome_iff_exists.mp h
  simpa using two_le_count_of_parseV6? ha

theorem colon_mem (h : IsV6 cs) : ':' ∈ cs :=
  List.count_pos_iff.mp (Nat.lt_of_lt_of_le Nat.zero_lt_two h.two_le_count)

theorem notMem (h : IsV6 cs) {c : Char} (hc : isAddressChar c = false) : c ∉ cs := by
  intro hmem
  obtain ⟨a, ha⟩ := Option.isSome_iff_exists.mp h
  rw [isAddressChar_of_parseV6? ha c (by simpa using hmem)] at hc
  cases hc

end IsV6

/-- The characters are those of a host that is no IPv6 address. -/
structure IsHost (cs : List Char) : Prop where
  ne_nil : cs ≠ []
  colon_notMem : ':' ∉ cs
  unbracketed : cs.head? ≠ some '['

namespace Endpoint

/-! ### Ports -/

/-- The characters are the digits of a port. -/
structure IsPort (ds : List Char) (n : Nat) : Prop where
  ne_nil : ds ≠ []
  isDigit : ∀ c ∈ ds, c.isDigit = true
  value : Nat.ofDigitChars 10 ds 0 = n
  pos : 1 ≤ n
  lt : n < 65536

/-- The digits of a port stand behind a plus sign. -/
def IsSignedPort (cs : List Char) (n : Nat) : Prop :=
  ∃ ds, cs = '+' :: ds ∧ IsPort ds n

theorem isPort_iff {ds : List Char} {n : Nat} :
    IsPort ds n ↔ ¬ (ds.isEmpty ∨ ¬ ds.all Char.isDigit) ∧
      (1 ≤ Nat.ofDigitChars 10 ds 0 ∧ Nat.ofDigitChars 10 ds 0 < 65536) ∧
      Nat.ofDigitChars 10 ds 0 = n := by
  rw [not_or, Bool.not_eq_true, List.isEmpty_eq_false_iff, not_not, List.all_eq_true]
  constructor
  · rintro ⟨hne, hdigits, rfl, hpos, hlt⟩
    exact ⟨⟨hne, hdigits⟩, ⟨hpos, hlt⟩, rfl⟩
  · rintro ⟨⟨hne, hdigits⟩, ⟨hpos, hlt⟩, rfl⟩
    exact ⟨hne, hdigits, rfl, hpos, hlt⟩

/-- What is read as the number of a port. -/
theorem portNumber?_eq_some_iff {cs : List Char} {n : Nat} :
    portNumber? cs = some n ↔ IsPort cs n ∨ IsSignedPort cs n := by
  unfold portNumber?
  split
  · next ds =>
    -- a plus sign is no digit
    have hnot : ¬ IsPort ('+' :: ds) n := fun h => by
      cases h.isDigit '+' List.mem_cons_self
    have hsigned : IsSignedPort ('+' :: ds) n ↔ IsPort ds n := by simp [IsSignedPort]
    rw [hsigned, or_iff_right hnot, isPort_iff]
    simp only [Option.ite_none_left_eq_some, Option.ite_none_right_eq_some, Option.some.injEq]
  · next hcs =>
    have hnot : ¬ IsSignedPort cs n := fun ⟨ds, hds, _⟩ => hcs ds hds
    rw [or_iff_left hnot, isPort_iff]
    simp only [Option.ite_none_left_eq_some, Option.ite_none_right_eq_some, Option.some.injEq]

theorem colon_notMem_of_portNumber? {cs : List Char} {n : Nat} (h : portNumber? cs = some n) :
    ':' ∉ cs := by
  intro hmem
  rcases portNumber?_eq_some_iff.mp h with hport | ⟨ds, rfl, hport⟩
  · cases hport.isDigit ':' hmem
  · rcases List.mem_cons.mp hmem with hplus | hmem
    · cases hplus
    · cases hport.isDigit ':' hmem

/-! ### The parts of the reader -/

/-- A text is cut at the last of the places of a character. -/
theorem splitLast?_append {c : Char} {before after : List Char} (hafter : c ∉ after) :
    splitLast? c (before ++ c :: after) = some (before, after) := by
  -- behind its last occurrence the character does not come again
  have htake : (before ++ c :: after).reverse.takeWhile (· != c) = after.reverse := by
    rw [List.reverse_append, List.reverse_cons, List.append_assoc, List.takeWhile_append_of_pos]
    · simp
    · intro d hd
      have hne : d ≠ c := by rintro rfl; exact hafter (List.mem_reverse.mp hd)
      simpa using hne
  have hmem : (before ++ c :: after).contains c = true := by simp
  have hlength : (before ++ c :: after).length - after.length - 1 = before.length := by
    rw [List.length_append, List.length_cons]
    omega
  rw [splitLast?, if_pos hmem, htake, List.reverse_reverse]
  dsimp only
  rw [hlength, List.take_left]

theorem splitLast?_of_notMem {c : Char} {cs : List Char} (h : c ∉ cs) :
    splitLast? c cs = none := by
  rw [splitLast?, if_neg (by simpa using h)]

/-- A character that occurs in a text has a last place in it. -/
theorem exists_last_of_mem {c : Char} {cs : List Char} (h : c ∈ cs) :
    ∃ before after, cs = before ++ c :: after ∧ c ∉ after := by
  obtain ⟨after, before, heq, hafter⟩ := List.eq_append_cons_of_mem (List.mem_reverse.mpr h)
  refine ⟨before.reverse, after.reverse, ?_, by simpa using hafter⟩
  rw [← List.reverse_reverse cs, heq]
  simp

theorem map_readPort_eq_ok_iff {hostname : String} {cs : List Char} {f : Nat → Endpoint}
    {e : Endpoint} :
    (readPort hostname cs).map f = .ok e ↔ ∃ n, portNumber? cs = some n ∧ e = f n := by
  unfold readPort
  cases portNumber? cs with
  | none => simp [Except.map]
  | some n => simp [Except.map, eq_comm]

/-- What is read as a host without brackets. -/
theorem parsePlain_eq_ok_iff {hostname : String} {default : Nat} {e : Endpoint} :
    parsePlain hostname default = .ok e ↔
      (':' ∉ hostname.toList ∧ e = ⟨hostname, default⟩) ∨
        ∃ host port n, hostname.toList = host ++ ':' :: port ∧ host ≠ [] ∧ ':' ∉ host ∧
          portNumber? port = some n ∧ e = ⟨String.ofList host, n⟩ := by
  constructor
  · intro h
    by_cases hcolon : ':' ∈ hostname.toList
    · -- the text is cut at its last colon, which has to be the only one
      obtain ⟨host, port, heq, hport⟩ := exists_last_of_mem hcolon
      rw [parsePlain, heq, splitLast?_append hport] at h
      dsimp only at h
      split at h
      · cases h
      · next hne =>
        split at h
        · cases h
        · next hnot =>
          obtain ⟨n, hn, rfl⟩ := map_readPort_eq_ok_iff.mp h
          exact Or.inr ⟨host, port, n, heq, by simpa using hne, by simpa using hnot, hn, rfl⟩
    · rw [parsePlain, splitLast?_of_notMem hcolon] at h
      exact Or.inl ⟨hcolon, (Except.ok.inj h).symm⟩
  · rintro (⟨hcolon, rfl⟩ | ⟨host, port, n, heq, hne, hnot, hn, rfl⟩)
    · rw [parsePlain, splitLast?_of_notMem hcolon]
    · rw [parsePlain, heq, splitLast?_append (colon_notMem_of_portNumber? hn)]
      dsimp only
      rw [if_neg (by simpa using hne), if_neg (by simpa using hnot)]
      exact map_readPort_eq_ok_iff.mpr ⟨n, hn, rfl⟩

/-- A text is cut at the first of the places of a character. -/
theorem span_append {c : Char} {before : List Char} (hbefore : c ∉ before) (after : List Char) :
    (before ++ c :: after).takeWhile (· != c) = before ∧
      ((before ++ c :: after).dropWhile (· != c)).drop 1 = after := by
  have hall : ∀ d ∈ before, (d != c) = true := by
    intro d hd
    have hne : d ≠ c := by rintro rfl; exact hbefore hd
    simpa using hne
  rw [List.takeWhile_append_of_pos hall, List.dropWhile_append_of_pos hall]
  simp

/-- What is read behind an opening bracket. -/
theorem parseBracketed_eq_ok_iff {hostname : String} {default : Nat} {cs : List Char}
    {e : Endpoint} :
    parseBracketed hostname default cs = .ok e ↔
      ∃ host, IsV6 host ∧ ((cs = host ++ [']'] ∧ e = ⟨String.ofList host, default⟩) ∨
        ∃ port n, cs = host ++ ']' :: ':' :: port ∧ portNumber? port = some n ∧
          e = ⟨String.ofList host, n⟩) := by
  constructor
  · intro h
    rw [parseBracketed] at h
    split at h
    · cases h
    · next hclosed =>
      have hmem : ']' ∈ cs := by simpa using hclosed
      -- the host ends at the first bracket, which no address holds
      obtain ⟨host, tail, rfl, hhost⟩ := List.eq_append_cons_of_mem hmem
      obtain ⟨htake, hdrop⟩ := span_append hhost tail
      rw [htake, hdrop] at h
      dsimp only at h
      split at h
      · cases h
      · next haddress =>
        refine ⟨host, by simpa [IsV6, Option.isSome_iff_ne_none] using haddress, ?_⟩
        split at h
        · exact Or.inl ⟨rfl, (Except.ok.inj h).symm⟩
        · next port =>
          obtain ⟨n, hn, rfl⟩ := map_readPort_eq_ok_iff.mp h
          exact Or.inr ⟨port, n, rfl, hn, rfl⟩
        · cases h
  · rintro ⟨host, haddress, hforms⟩
    have hhost : ']' ∉ host := haddress.notMem (by decide)
    have hshown : ¬ (Ip.parseV6? (String.ofList host)).isNone = true := by
      simpa [IsV6, Option.isSome_iff_ne_none] using haddress
    rcases hforms with ⟨rfl, rfl⟩ | ⟨port, n, rfl, hn, rfl⟩
    · obtain ⟨htake, hdrop⟩ := span_append hhost []
      rw [parseBracketed, if_neg (by simp), htake, hdrop]
      exact if_neg hshown
    · obtain ⟨htake, hdrop⟩ := span_append hhost (':' :: port)
      rw [parseBracketed, if_neg (by simp), htake, hdrop]
      exact (if_neg hshown).trans (map_readPort_eq_ok_iff.mpr ⟨n, hn, rfl⟩)

/-! ### The forms of a host name -/

/-- The forms of a host name and the endpoints for which they stand, with `port` the texts of ports.
A form without a port stands for the default one. -/
inductive Spells (port : List Char → Nat → Prop) (default : Nat) : List Char → Endpoint → Prop where
  /-- An IPv6 address. -/
  | address {host : List Char} : IsV6 host →
      Spells port default host ⟨String.ofList host, default⟩
  /-- An IPv6 address in brackets. -/
  | bracketed {host : List Char} : IsV6 host →
      Spells port default ('[' :: host ++ [']']) ⟨String.ofList host, default⟩
  /-- An IPv6 address in brackets and a port. -/
  | bracketedPort {host digits : List Char} {n : Nat} : IsV6 host → port digits n →
      Spells port default ('[' :: host ++ ']' :: ':' :: digits) ⟨String.ofList host, n⟩
  /-- A host. -/
  | host {host : List Char} : IsHost host →
      Spells port default host ⟨String.ofList host, default⟩
  /-- A host and a port. -/
  | hostPort {host digits : List Char} {n : Nat} : IsHost host → port digits n →
      Spells port default (host ++ ':' :: digits) ⟨String.ofList host, n⟩

theorem Spells.or_iff {p q : List Char → Nat → Prop} {default : Nat} {cs : List Char}
    {e : Endpoint} :
    Spells (fun digits n => p digits n ∨ q digits n) default cs e ↔
      Spells p default cs e ∨ Spells q default cs e := by
  constructor
  · intro h
    cases h with
    | address hhost => exact Or.inl (.address hhost)
    | bracketed hhost => exact Or.inl (.bracketed hhost)
    | bracketedPort hhost hport => exact hport.imp (.bracketedPort hhost) (.bracketedPort hhost)
    | host hhost => exact Or.inl (.host hhost)
    | hostPort hhost hport => exact hport.imp (.hostPort hhost) (.hostPort hhost)
  · -- in every form the rule for ports can be exchanged for a weaker one
    have hmono : ∀ {r s : List Char → Nat → Prop}, (∀ {digits n}, r digits n → s digits n) →
        Spells r default cs e → Spells s default cs e := by
      intro r s hrs h
      cases h with
      | address hhost => exact .address hhost
      | bracketed hhost => exact .bracketed hhost
      | bracketedPort hhost hport => exact .bracketedPort hhost (hrs hport)
      | host hhost => exact .host hhost
      | hostPort hhost hport => exact .hostPort hhost (hrs hport)
    rintro (h | h)
    · exact hmono Or.inl h
    · exact hmono Or.inr h

/-- A host with a port has one colon and is no IPv6 address. -/
theorem not_isV6_hostPort {host port : List Char} {n : Nat} (hhost : IsHost host)
    (hport : portNumber? port = some n) : ¬ IsV6 (host ++ ':' :: port) := by
  intro h
  have htwo := h.two_le_count
  have hone : (host ++ ':' :: port).count ':' = 1 := by
    rw [List.count_append, List.count_eq_zero.mpr hhost.colon_notMem, List.count_cons_self,
      List.count_eq_zero.mpr (colon_notMem_of_portNumber? hport)]
  omega

/-- Only what stands between the blanks of a host name counts, and its first character decides how
it is read. -/
theorem parse_of_bracketed {hostname : String} {rest : List Char} (default : Nat)
    (h : trim hostname.toList = '[' :: rest) :
    parse hostname default = parseBracketed (trimmed hostname) default rest := by
  have htrimmed : (trimmed hostname).toList = '[' :: rest := by simp [trimmed, h]
  simp only [parse, htrimmed]

theorem parse_of_unbracketed {hostname : String} (default : Nat)
    (hne : trim hostname.toList ≠ []) (hhead : (trim hostname.toList).head? ≠ some '[') :
    parse hostname default =
      if (Ip.parseV6? (trimmed hostname)).isSome then .ok ⟨trimmed hostname, default⟩
      else parsePlain (trimmed hostname) default := by
  have htrimmed : (trimmed hostname).toList = trim hostname.toList := by simp [trimmed]
  unfold parse
  dsimp only
  rw [htrimmed]
  split
  · next hnil => exact absurd hnil hne
  · next heq => exact absurd (by rw [heq]; rfl) hhead
  · rfl

theorem toList_trimmed (hostname : String) : (trimmed hostname).toList = trim hostname.toList :=
  String.toList_ofList

/-- What the reader takes has one of the forms. -/
theorem spells_of_parse {hostname : String} {default : Nat} {e : Endpoint}
    (h : parse hostname default = .ok e) :
    Spells (fun cs n => portNumber? cs = some n) default (trim hostname.toList) e := by
  by_cases hhead : (trim hostname.toList).head? = some '['
  · obtain ⟨rest, hrest⟩ := List.head?_eq_some_iff.mp hhead
    rw [parse_of_bracketed default hrest] at h
    rw [hrest]
    obtain ⟨host, hhost, ⟨rfl, rfl⟩ | ⟨port, n, rfl, hn, rfl⟩⟩ := parseBracketed_eq_ok_iff.mp h
    · exact .bracketed hhost
    · exact .bracketedPort hhost hn
  by_cases hne : trim hostname.toList = []
  · simp only [parse, toList_trimmed, hne] at h
    cases h
  rw [parse_of_unbracketed default hne hhead] at h
  split at h
  · next haddress =>
    obtain rfl := Except.ok.inj h
    exact .address haddress
  · -- what is no address is a host, with a port or without one
    have hforms := parsePlain_eq_ok_iff.mp h
    rw [toList_trimmed] at hforms
    rcases hforms with ⟨hcolon, rfl⟩ | ⟨host, port, n, heq, hhost, hcolon, hn, rfl⟩
    · exact .host ⟨hne, hcolon, hhead⟩
    · rw [heq, List.head?_append_of_ne_nil _ hhost] at hhead
      rw [heq]
      exact .hostPort ⟨hhost, hcolon, hhead⟩ hn

/-- A text that begins with a host is an IPv6 address or is cut at its last colon. -/
theorem parse_of_isHost {hostname : String} {host rest : List Char} (default : Nat)
    (heq : trim hostname.toList = host ++ rest) (hhost : IsHost host)
    (hnot : ¬ IsV6 (host ++ rest)) :
    parse hostname default = parsePlain (trimmed hostname) default := by
  have hhead : (trim hostname.toList).head? ≠ some '[' := by
    rw [heq, List.head?_append_of_ne_nil _ hhost.ne_nil]
    exact hhost.unbracketed
  have hne : trim hostname.toList ≠ [] := by simp [heq, hhost.ne_nil]
  rw [← heq] at hnot
  rw [parse_of_unbracketed default hne hhead]
  exact if_neg hnot

/-- The reader takes a text that has one of the forms. -/
theorem parse_of_spells {hostname : String} {default : Nat} {e : Endpoint}
    (h : Spells (fun cs n => portNumber? cs = some n) default (trim hostname.toList) e) :
    parse hostname default = .ok e := by
  generalize htext : trim hostname.toList = text at h
  have hshown : trimmed hostname = String.ofList text := by rw [trimmed, htext]
  -- each form has its own branch of the parser, and meets the conditions of no other
  cases h with
  | address hhost =>
    have hne : text ≠ [] := List.ne_nil_of_mem hhost.colon_mem
    have hhead : text.head? ≠ some '[' := fun h =>
      hhost.notMem (by decide) (List.mem_of_mem_head? h)
    rw [← htext] at hne hhead
    rw [parse_of_unbracketed default hne hhead, hshown]
    exact if_pos hhost
  | bracketed hhost =>
    rw [parse_of_bracketed default htext]
    exact parseBracketed_eq_ok_iff.mpr ⟨_, hhost, Or.inl ⟨rfl, rfl⟩⟩
  | bracketedPort hhost hn =>
    rw [parse_of_bracketed default htext]
    exact parseBracketed_eq_ok_iff.mpr ⟨_, hhost, Or.inr ⟨_, _, rfl, hn, rfl⟩⟩
  | host hhost =>
    rw [← List.append_nil text] at htext
    have hnot : ¬ IsV6 (text ++ []) := fun h => hhost.colon_notMem (by simpa using h.colon_mem)
    rw [parse_of_isHost default htext hhost hnot, hshown]
    exact parsePlain_eq_ok_iff.mpr (Or.inl ⟨by simpa using hhost.colon_notMem, rfl⟩)
  | hostPort hhost hn =>
    rw [parse_of_isHost default htext hhost (not_isV6_hostPort hhost hn), hshown]
    exact parsePlain_eq_ok_iff.mpr (Or.inr
      ⟨_, _, _, String.toList_ofList, hhost.ne_nil, hhost.colon_notMem, hn, rfl⟩)

/-- **What the reader takes**: the five forms, with or without a sign before a port. -/
theorem parse_eq_ok_iff {hostname : String} {default : Nat} {e : Endpoint} :
    parse hostname default = .ok e ↔
      Spells IsPort default (trim hostname.toList) e ∨
        Spells IsSignedPort default (trim hostname.toList) e := by
  have hports :
      (fun cs n => portNumber? cs = some n) = fun cs n => IsPort cs n ∨ IsSignedPort cs n := by
    funext cs n
    exact propext portNumber?_eq_some_iff
  rw [← Spells.or_iff, ← hports]
  exact ⟨spells_of_parse, parse_of_spells⟩

/-! ### Endpoints written out -/

/-- An endpoint written out with its port; an IPv6 address stands in brackets. -/
def text (e : Endpoint) : String :=
  if ':' ∈ e.host.toList then "[" ++ e.host ++ "]:" ++ e.port.repr
  else e.host ++ ":" ++ e.port.repr

theorem isPort_repr {n : Nat} (hpos : 1 ≤ n) (hlt : n < 65536) : IsPort n.repr.toList n where
  ne_nil := by simp
  isDigit c hc := by
    rw [Nat.toList_repr] at hc
    exact Nat.isDigit_of_mem_toDigits (by decide) (by decide) hc
  value := by rw [Nat.toList_repr, Nat.ofDigitChars_ten_toDigits]
  pos := hpos
  lt := hlt

/-- A text that ends in a port is not trimmed at its end. -/
theorem trim_append_repr {front : List Char} {n : Nat} (hne : front ≠ [])
    (hhead : ∀ c ∈ front.head?, isBlank c = false) :
    trim (front ++ n.repr.toList) = front ++ n.repr.toList := by
  have hrepr : n.repr.toList ≠ [] := by simp
  refine trim_eq_self_iff.mpr ⟨?_, ?_⟩
  · rwa [List.head?_append_of_ne_nil _ hne]
  · intro c hc
    rw [List.getLast?_append_of_ne_nil _ hrepr] at hc
    have hmem := List.mem_of_mem_getLast? hc
    rw [Nat.toList_repr] at hmem
    exact isBlank_of_isDigit (Nat.isDigit_of_mem_toDigits (by decide) (by decide) hmem)

/-- The hosts that the reader returns: IPv6 addresses, and hosts that do not begin with a blank. -/
theorem host_of_parse {hostname : String} {default : Nat} {e : Endpoint}
    (h : parse hostname default = .ok e) :
    ∃ cs, e.host = String.ofList cs ∧
      (IsV6 cs ∨ (IsHost cs ∧ ∀ c ∈ cs.head?, isBlank c = false)) := by
  have hforms := spells_of_parse h
  -- the text is trimmed, so its first character is no blank
  have htrim : ∀ c ∈ (trim hostname.toList).head?, isBlank c = false :=
    (trim_eq_self_iff.mp (trim_trim hostname.toList)).1
  generalize trim hostname.toList = text at hforms htrim
  cases hforms with
  | address hhost => exact ⟨_, rfl, Or.inl hhost⟩
  | bracketed hhost => exact ⟨_, rfl, Or.inl hhost⟩
  | bracketedPort hhost hn => exact ⟨_, rfl, Or.inl hhost⟩
  | host hhost => exact ⟨_, rfl, Or.inr ⟨hhost, htrim⟩⟩
  | hostPort hhost hn =>
    rw [List.head?_append_of_ne_nil _ hhost.ne_nil] at htrim
    exact ⟨_, rfl, Or.inr ⟨hhost, htrim⟩⟩

/-- **A host that was read, with any port, is read again from its text.** -/
theorem parse_text {hostname : String} {default : Nat} {e : Endpoint}
    (h : parse hostname default = .ok e) {port : Nat} (hpos : 1 ≤ port) (hlt : port < 65536)
    (default' : Nat) : parse (text ⟨e.host, port⟩) default' = .ok ⟨e.host, port⟩ := by
  have hport : portNumber? port.repr.toList = some port :=
    portNumber?_eq_some_iff.mpr (Or.inl (isPort_repr hpos hlt))
  obtain ⟨cs, hcs, hforms⟩ := host_of_parse h
  rw [hcs]
  apply parse_of_spells
  -- an address is shown in brackets, and a host as it is
  rcases hforms with hhost | ⟨hhost, hhead⟩
  · have htext : (text ⟨String.ofList cs, port⟩).toList =
        ('[' :: cs ++ [']', ':']) ++ port.repr.toList := by
      rw [text, if_pos (by simpa using hhost.colon_mem)]
      simp
    have hbracket : ∀ c ∈ ('[' :: cs ++ [']', ':']).head?, isBlank c = false := by
      rintro c ⟨⟩
      rfl
    have hne : '[' :: cs ++ [']', ':'] ≠ [] := by simp
    rw [htext, trim_append_repr hne hbracket, List.append_assoc]
    exact .bracketedPort hhost hport
  · have htext : (text ⟨String.ofList cs, port⟩).toList = (cs ++ [':']) ++ port.repr.toList := by
      rw [text, if_neg (by simpa using hhost.colon_notMem)]
      simp
    have hfront : ∀ c ∈ (cs ++ [':']).head?, isBlank c = false := by
      rwa [List.head?_append_of_ne_nil _ hhost.ne_nil]
    have hne : cs ++ [':'] ≠ [] := by simp
    rw [htext, trim_append_repr hne hfront, List.append_assoc]
    exact .hostPort hhost hport

/-- **The grammar of host names.**  The reader takes the five forms and returns the host and the
port for which they stand, but it takes them with a plus sign before the digits of a port as well.
A host that was read, with any port, is read again from its text. -/
theorem parse_grammar (hostname : String) (default : Nat) (e : Endpoint) :
    (parse hostname default = .ok e ↔
      Spells IsPort default (trim hostname.toList) e ∨
        Spells IsSignedPort default (trim hostname.toList) e) ∧
    (parse hostname default = .ok e →
      ∀ port, 1 ≤ port → port < 65536 → ∀ default',
        parse (text ⟨e.host, port⟩) default' = .ok ⟨e.host, port⟩) := by
  constructor
  · exact parse_eq_ok_iff
  · intro h port hpos hlt default'
    exact parse_text h hpos hlt default'

/-- A sign before a port: none of the five forms, and read all the same. -/
theorem parse_grammar_signedPort :
    parse "bank.example:+22" 22 = .ok ⟨"bank.example", 22⟩ ∧
      (∀ e, ¬ Spells IsPort 22 (trim "bank.example:+22".toList) e) ∧
      parse "bank.example:22" 22 = .ok ⟨"bank.example", 22⟩ := by
  have hhost : IsHost "bank.example".toList := ⟨by decide, by decide, by decide⟩
  have hport : IsSignedPort "+22".toList 22 :=
    ⟨(22).repr.toList, by decide +kernel, isPort_repr (by decide) (by decide)⟩
  have htrim : trim "bank.example:+22".toList =
      "bank.example".toList ++ ':' :: "+22".toList := by
    decide +kernel
  have hread : parse "bank.example:+22" 22 = .ok ⟨"bank.example", 22⟩ := by
    rw [(parse_grammar _ _ _).1, htrim]
    exact Or.inr (.hostPort hhost hport)
  have htext : text ⟨"bank.example", 22⟩ = "bank.example:22" := by decide +kernel
  refine ⟨hread, ?_, ?_⟩
  · rw [htrim]
    intro e h
    generalize hcs : "bank.example".toList ++ ':' :: "+22".toList = cs at h
    cases h with
    | address hhost =>
      have htwo := hhost.two_le_count
      rw [← hcs] at htwo
      exact absurd htwo (by decide)
    | bracketed hhost => cases hcs
    | bracketedPort hhost hn => cases hcs
    | host hhost => exact hhost.colon_notMem (by rw [← hcs]; decide)
    | @hostPort host digits n hhost hn =>
      -- the only colon cuts off the port, whose first character is the sign
      have hcolon : ':' ∉ digits :=
        colon_notMem_of_portNumber? (portNumber?_eq_some_iff.mpr (Or.inl hn))
      have hcut : splitLast? ':' (host ++ ':' :: digits) = some (host, digits) :=
        splitLast?_append hcolon
      rw [← hcs, splitLast?_append (by decide)] at hcut
      obtain ⟨-, rfl⟩ := Prod.mk.inj (Option.some.inj hcut)
      exact absurd (hn.isDigit '+' (by decide)) (by decide)
  · rw [← htext]
    exact (parse_grammar _ _ _).2 hread 22 (by decide) (by decide) 22

end Endpoint

end AchCourier.Net
