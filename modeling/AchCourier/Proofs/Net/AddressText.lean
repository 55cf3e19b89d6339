import AchCourier.Net.AllowList

/-!
# The texts of addresses

The readers of addresses stop in front of every character that no address has in it.  One of these
is the slash, so that a text that shows an address is never one that shows a range.

## Main definitions

* `isAddressChar` — the characters of addresses.
* `ReadsTo` — what is left of a text behind such characters.

## Main results

* `isAddressChar_of_parse?` — the text of an address is made of these characters.
* `two_le_count_of_parseV6?` — there are at least two colons in the text of an IPv6 address.
* `ofPrefix?_of_parse?` — **a text that shows an address shows no range.**
-/

namespace AchCourier.Net

open Text

/-- The character is a digit or separates the parts of an address. -/
def isAddressChar (c : Char) : Bool :=
  isDigitIn 16 c || c == '.' || c == ':'

theorem isAddressChar_of_isDigitIn {base : Nat} (hbase : base ≤ 16) {c : Char}
    (h : isDigitIn base c = true) : isAddressChar c = true := by
  have hdigit : isDigitIn 16 c = true := by
    unfold isDigitIn at h ⊢
    split at h
    · exact decide_eq_true (Nat.lt_of_lt_of_le (of_decide_eq_true h) hbase)
    · cases h
  simp [isAddressChar, hdigit]

/-- The text `rest` is left of `cs` behind characters of addresses. -/
def ReadsTo (cs rest : List Char) : Prop :=
  ∃ front, cs = front ++ rest ∧ ∀ c ∈ front, isAddressChar c = true

namespace ReadsTo

variable {cs mid rest : List Char}

theorem refl (cs : List Char) : ReadsTo cs cs :=
  ⟨[], rfl, by simp⟩

theorem trans (h : ReadsTo cs mid) (h' : ReadsTo mid rest) : ReadsTo cs rest := by
  obtain ⟨front, rfl, hfront⟩ := h
  obtain ⟨back, rfl, hback⟩ := h'
  refine ⟨front ++ back, by rw [List.append_assoc], fun c hc => ?_⟩
  exact (List.mem_append.mp hc).elim (hfront c) (hback c)

theorem cons {c : Char} (hc : isAddressChar c = true) (h : ReadsTo cs rest) :
    ReadsTo (c :: cs) rest :=
  trans ⟨[c], rfl, by simpa using hc⟩ h

/-- What is left has no more colons than there were. -/
theorem count_le (h : ReadsTo cs rest) (c : Char) : rest.count c ≤ cs.count c := by
  obtain ⟨front, rfl, -⟩ := h
  rw [List.count_append]
  exact Nat.le_add_left _ _

/-- A text that is read to its end is made of characters of addresses. -/
theorem forall_mem (h : ReadsTo cs []) : ∀ c ∈ cs, isAddressChar c = true := by
  obtain ⟨front, rfl, hfront⟩ := h
  simpa using hfront

end ReadsTo

/-! ### Numbers and IPv4 addresses -/

variable {dialect : Dialect} {cs rest : List Char}

theorem readsTo_readNumber {base most bound n : Nat} (hbase : base ≤ 16)
    (h : readNumber base most bound cs = some (n, rest)) : ReadsTo cs rest := by
  unfold readNumber at h
  dsimp only at h
  split at h
  · obtain ⟨-, rfl⟩ := Prod.mk.inj (Option.some.inj h)
    refine ⟨_, List.takeWhile_append_dropWhile.symm, fun c hc => ?_⟩
    exact isAddressChar_of_isDigitIn hbase (List.all_eq_true.mp List.all_takeWhile c hc)
  · cases h

theorem readsTo_readOctet {o : Nat} (h : readOctet dialect cs = some (o, rest)) :
    ReadsTo cs rest := by
  unfold readOctet at h
  split at h
  · split at h
    · cases h
    · exact readsTo_readNumber (by decide) h
  · exact readsTo_readNumber (by decide) h

theorem readsTo_readOctets {n : Nat} {os : List Nat}
    (h : readOctets dialect n cs = some (os, rest)) : ReadsTo cs rest := by
  -- by induction on the octets that are still to come, each behind a point
  induction n generalizing cs os with
  | zero =>
    obtain ⟨-, rfl⟩ := Prod.mk.inj (Option.some.inj h)
    exact .refl _
  | succ n ih =>
    unfold readOctets at h
    split at h
    · next hzero => exact absurd hzero (Nat.succ_ne_zero n)
    · next hn =>
      cases hn
      split at h
      · cases h
      · next o mid hoctet =>
        obtain ⟨⟨os', rest'⟩, hrest, heq⟩ := Option.map_eq_some_iff.mp h
        obtain ⟨-, rfl⟩ := Prod.mk.inj heq
        exact .cons (by decide) ((readsTo_readOctet hoctet).trans (ih hrest))
    · cases h

theorem readsTo_readV4 {a : BitVec 32} (h : readV4 dialect cs = some (a, rest)) :
    ReadsTo cs rest := by
  unfold readV4 at h
  split at h
  · cases h
  · next o mid hoctet =>
    obtain ⟨⟨os, rest'⟩, hrest, heq⟩ := Option.map_eq_some_iff.mp h
    obtain ⟨-, rfl⟩ := Prod.mk.inj heq
    exact (readsTo_readOctet hoctet).trans (readsTo_readOctets hrest)

/-! ### IPv6 addresses -/

theorem readsTo_afterSeparator {first : Bool} (h : afterSeparator first cs = some rest) :
    ReadsTo cs rest := by
  unfold afterSeparator at h
  split at h
  · obtain rfl := Option.some.inj h
    exact .refl _
  · split at h
    · obtain rfl := Option.some.inj h
      exact .cons (by decide) (.refl _)
    · cases h

theorem readsTo_readGroups (dialect : Dialect) (n : Nat) (first : Bool) (cs : List Char) :
    ReadsTo cs (readGroups dialect n first cs).2.2 := by
  -- by induction on the groups, each of which is read from the front
  induction n generalizing first cs with
  | zero => exact .refl _
  | succ n ih =>
    rw [readGroups]
    split
    · exact .refl _
    · next body hbody =>
      have hseparator := readsTo_afterSeparator hbody
      split
      · next a rest hquad =>
        split at hquad
        · exact hseparator.trans (readsTo_readV4 hquad)
        · cases hquad
      · split
        · exact .refl _
        · next g rest hnumber =>
          exact hseparator.trans ((readsTo_readNumber (by decide) hnumber).trans (ih false rest))

/-- The groups that are read stand behind a colon each, but for the first one and for the second
half of an IPv4 address. -/
theorem length_readGroups_le (dialect : Dialect) (n : Nat) (first : Bool) (cs : List Char) :
    (readGroups dialect n first cs).1.length + (readGroups dialect n first cs).2.2.count ':' ≤
      cs.count ':' + first.toNat + (readGroups dialect n first cs).2.1.toNat := by
  induction n generalizing first cs with
  | zero => simp [readGroups]
  | succ n ih =>
    rw [readGroups]
    split
    · simp
    · next body hbody =>
      -- one colon goes in front of every group but the first
      have hseparator : body.count ':' + 1 ≤ cs.count ':' + first.toNat := by
        unfold afterSeparator at hbody
        cases first with
        | true =>
          obtain rfl := Option.some.inj hbody
          exact Nat.le_refl _
        | false =>
          simp only [Bool.false_eq_true, if_false] at hbody
          split at hbody
          · obtain rfl := Option.some.inj hbody
            simp
          · cases hbody
      split
      · next a rest hquad =>
        split at hquad
        · have hrest := (readsTo_readV4 hquad).count_le ':'
          simp only [List.length_cons, List.length_nil, Bool.toNat_true]
          omega
        · cases hquad
      · split
        · simp
        · next g rest hnumber =>
          have hrest := (readsTo_readNumber (by decide) hnumber).count_le ':'
          have hmore := ih false rest
          rcases hgroups : readGroups dialect n false rest with ⟨gs, quad, last⟩
          rw [hgroups] at hmore
          simp only [List.length_cons, Bool.toNat_false] at hmore ⊢
          omega

theorem readsTo_readV6 {a : BitVec 128} (h : readV6 dialect cs = some (a, rest)) :
    ReadsTo cs rest := by
  have hhead := readsTo_readGroups dialect 8 true cs
  unfold readV6 at h
  rcases hgroups : readGroups dialect 8 true cs with ⟨head, quad, mid⟩
  rw [hgroups] at h hhead
  dsimp only at h hhead
  split at h
  · obtain ⟨-, rfl⟩ := Prod.mk.inj (Option.some.inj h)
    exact hhead
  · split at h
    · cases h
    · split at h
      · next behind =>
        -- the groups behind the double colon are read in the same way
        obtain ⟨-, rfl⟩ := Prod.mk.inj (Option.some.inj h)
        exact hhead.trans (.cons (by decide) (.cons (by decide)
          (readsTo_readGroups dialect _ true behind)))
      · cases h

/-- An IPv6 address has a colon between any two of its groups, or a double one. -/
theorem two_le_count_of_readV6 {a : BitVec 128} (h : readV6 dialect cs = some (a, rest)) :
    2 ≤ cs.count ':' := by
  have hlength := length_readGroups_le dialect 8 true cs
  have hhead := readsTo_readGroups dialect 8 true cs
  unfold readV6 at h
  rcases hgroups : readGroups dialect 8 true cs with ⟨head, quad, mid⟩
  rw [hgroups] at h hlength hhead
  dsimp only at h hlength hhead
  -- eight groups need colons between them, and fewer of them a double one
  split at h
  · next height =>
    have hquad := Bool.toNat_le quad
    rw [Bool.toNat_true] at hlength
    omega
  · split at h
    · cases h
    · split at h
      · refine Nat.le_trans ?_ (hhead.count_le ':')
        simp
      · cases h

/-! ### Whole texts -/

/-- There are at least two colons in the text of an IPv6 address. -/
theorem two_le_count_of_parseV6? {s : String} {a : BitVec 128} (h : Ip.parseV6? s = some a) :
    2 ≤ s.toList.count ':' := by
  unfold Ip.parseV6? at h
  split at h
  · next hread => exact two_le_count_of_readV6 hread
  · cases h

/-- The text of an IPv6 address is made of characters of addresses. -/
theorem isAddressChar_of_parseV6? {s : String} {a : BitVec 128} (h : Ip.parseV6? s = some a) :
    ∀ c ∈ s.toList, isAddressChar c = true := by
  unfold Ip.parseV6? at h
  split at h
  · next hread => exact (readsTo_readV6 hread).forall_mem
  · cases h

/-- The text of an address is made of characters of addresses. -/
theorem isAddressChar_of_parse? {s : String} {ip : Ip} (h : Ip.parse? s = some ip) :
    ∀ c ∈ s.toList, isAddressChar c = true := by
  unfold Ip.parse? at h
  split at h
  · next a hv4 =>
    unfold Ip.parseV4? at hv4
    split at hv4
    · next hread => exact (readsTo_readV4 hread).forall_mem
    · cases hv4
  · obtain ⟨a, hv6, -⟩ := Option.map_eq_some_iff.mp h
    exact isAddressChar_of_parseV6? hv6

/-- A prefix length stands behind a slash. -/
theorem slash_mem_of_readLength {most bound n : Nat} (h : Range.readLength most bound cs = some n) :
    '/' ∈ cs := by
  unfold Range.readLength at h
  split at h
  · exact List.mem_cons_self
  · cases h

/-- **A text that shows an address shows no range.** -/
theorem ofPrefix?_of_parse? {s : String} {ip : Ip} (h : Ip.parse? s = some ip) :
    Range.ofPrefix? s = none := by
  have hslash : '/' ∉ s.toList := fun hmem => by
    cases isAddressChar_of_parse? h _ hmem
  -- behind an address of either family there is no prefix length
  have hnone : ∀ {α : Type} {read : Option (α × List Char)} (most bound : Nat)
      (range : α → Nat → Range), (∀ {a rest}, read = some (a, rest) → ReadsTo s.toList rest) →
      (read.bind fun (a, rest) => (Range.readLength most bound rest).map (range a)) = none := by
    intro α read most bound range hread
    rcases read with _ | ⟨a, rest⟩
    · rfl
    · obtain ⟨front, heq, -⟩ := hread rfl
      have hlength : Range.readLength most bound rest = none :=
        Option.eq_none_iff_forall_ne_some.mpr fun n hn =>
          hslash (heq ▸ List.mem_append_right front (slash_mem_of_readLength hn))
      simp [hlength]
  rw [Range.ofPrefix?, hnone 2 33 Range.v4 readsTo_readV4]
  exact hnone 3 129 Range.v6 readsTo_readV6

end AchCourier.Net
