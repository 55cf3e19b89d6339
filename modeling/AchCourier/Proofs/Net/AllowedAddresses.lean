import AchCourier.Proofs.Net.AddressText

/-!
# What an allow list admits

A list admits an address if one of its entries covers it: a range covers the addresses of its
family that begin with the bits of its prefix, and a single address covers itself.  Only an
IPv4-mapped address is looked for as another one, the IPv4 address behind it.  Entries are taken as
they are, so a mapped address that is listed as such is not admitted on that account.

## Main definitions

* `SharePrefix`, `Range.Covers` — the addresses of a range, bit by bit.
* `Listed` — the addresses that an entry covers.
* `Ip.mapped` — the IPv6 address that maps an IPv4 address.

## Main results

* `Range.contains_eq_true_iff` — a range contains the addresses that it covers.
* `AllowList.contains_eq_true_iff` — a list contains an address if an entry covers what is looked
  for in its place.
* `AllowList.admits_parse` — **the addresses that a list admits.**
-/

namespace AchCourier.Net

/-! ### Ranges -/

/-- The first `length` bits of the addresses are the same. -/
def SharePrefix {w : Nat} (length : Nat) (a b : BitVec w) : Prop :=
  ∀ i < length, a.getMsbD i = b.getMsbD i

/-- Without the bits behind the prefix, addresses are the same if they share it. -/
theorem ushiftRight_eq_iff_sharePrefix {w length : Nat} {a b : BitVec w} :
    a >>> (w - length) = b >>> (w - length) ↔ SharePrefix length a b := by
  constructor
  · intro h i hi
    by_cases hw : i < w
    · -- the bit stands behind as many zeros as bits were dropped
      have hin : w - length + i < w := by omega
      have hbehind : ¬ w - length + i < w - length := by omega
      have hbit := congrArg (fun x => x.getMsbD (w - length + i)) h
      simp only [BitVec.getMsbD_ushiftRight, hin, hbehind, Nat.add_sub_cancel_left, decide_true,
        decide_false, Bool.not_false, Bool.true_and] at hbit
      exact hbit
    · rw [BitVec.getMsbD_of_ge _ _ (by omega), BitVec.getMsbD_of_ge _ _ (by omega)]
  · intro h
    apply BitVec.eq_of_getMsbD_eq
    intro i hi
    rw [BitVec.getMsbD_ushiftRight, BitVec.getMsbD_ushiftRight]
    by_cases hlow : i < w - length
    · simp [hlow]
    · rw [h (i - (w - length)) (by omega)]

/-- The address is one of the addresses of the range: it is of the same family and begins with the
same bits. -/
def Range.Covers : Range → Ip → Prop
  | .v4 address length, .v4 ip => SharePrefix length address ip
  | .v6 address length, .v6 ip => SharePrefix length address ip
  | _, _ => False

theorem Range.contains_eq_true_iff {r : Range} {ip : Ip} : r.contains ip = true ↔ r.Covers ip := by
  rcases r with ⟨a, length⟩ | ⟨a, length⟩ <;> rcases ip with ip | ip
  · exact beq_iff_eq.trans ushiftRight_eq_iff_sharePrefix
  · simp [Range.contains, Range.Covers]
  · simp [Range.contains, Range.Covers]
  · exact beq_iff_eq.trans ushiftRight_eq_iff_sharePrefix

/-- The range of a single address covers no other one. -/
theorem Range.covers_single_iff {ip other : Ip} : (Range.single ip).Covers other ↔ ip = other := by
  rw [← Range.contains_eq_true_iff]
  rcases ip with a | a <;> rcases other with b | b <;> simp [Range.single, Range.contains]

/-! ### Entries -/

/-- The entry covers the address: it is this very address, or a range that covers it. -/
def Listed (entry : String) (ip : Ip) : Prop :=
  Ip.parse? entry = some ip ∨ ∃ r, Range.ofPrefix? entry = some r ∧ r.Covers ip

theorem listed_iff_covers {entry : String} {r : Range} (h : Range.parse? entry = some r)
    {ip : Ip} : Listed entry ip ↔ r.Covers ip := by
  unfold Range.parse? at h
  cases hrange : Range.ofPrefix? entry with
  | some r' =>
    rw [hrange] at h
    obtain rfl := Option.some.inj h
    -- an entry with a prefix length is no address of its own
    have hsingle : Ip.parse? entry ≠ some ip := fun hip => by
      cases hrange.symm.trans (ofPrefix?_of_parse? hip)
    simp [Listed, hrange, hsingle]
  | none =>
    rw [hrange] at h
    obtain ⟨single, hsingle, rfl⟩ := Option.map_eq_some_iff.mp h
    rw [Range.covers_single_iff]
    simp [Listed, hrange, hsingle]

/-! ### Mapped addresses -/

/-- The bits in front of the IPv4 address, also when they are read as the low bits of an address. -/
theorem getLsbD_mark {i : Nat} (hi : i < 128) : (0xffff#128).getLsbD i = (0xffff#96).getLsbD i := by
  rw [show 0xffff#128 = (0xffff#96).setWidth 128 by decide, BitVec.getLsbD_setWidth]
  simp [hi]

theorem mark_append_ushiftRight (a : BitVec 32) : (0xffff#96 ++ a) >>> 32 = 0xffff#128 := by
  apply BitVec.eq_of_getLsbD_eq
  intro i hi
  rw [BitVec.getLsbD_ushiftRight, BitVec.getLsbD_append, if_neg (by omega),
    Nat.add_sub_cancel_left, getLsbD_mark hi]

theorem mark_append_setWidth {a : BitVec 128} (h : a >>> 32 = 0xffff#128) :
    0xffff#96 ++ a.setWidth 32 = a := by
  apply BitVec.eq_of_getLsbD_eq
  intro i hi
  rw [BitVec.getLsbD_append]
  split
  · next hlow => simp [hlow]
  · rw [← getLsbD_mark (by omega), ← h, BitVec.getLsbD_ushiftRight]
    congr 1
    omega

namespace Ip

/-- The IPv6 address that maps an IPv4 address. -/
def mapped (a : BitVec 32) : Ip :=
  .v6 (0xffff#96 ++ a)

/-- The IPv4 address behind the one that maps it. -/
theorem unmapped_mapped (a : BitVec 32) : (mapped a).unmapped = .v4 a := by
  rw [mapped, unmapped, if_pos (mark_append_ushiftRight a), BitVec.setWidth_append,
    dif_pos (Nat.le_refl 32), BitVec.setWidth_eq]

/-- An address that maps no other one is looked for itself. -/
theorem unmapped_eq_self {ip : Ip} (h : ∀ a, ip ≠ mapped a) : ip.unmapped = ip := by
  rcases ip with a | a
  · rfl
  · rw [unmapped, if_neg]
    intro hmark
    exact h (a.setWidth 32) (congrArg Ip.v6 (mark_append_setWidth hmark).symm)

end Ip

/-! ### Lists -/

namespace AllowList

variable {entries : List String} {l : AllowList}

theorem parse_cons_eq_ok {entry : String} (h : parse (entry :: entries) = .ok l) :
    ∃ r others, Range.parse? entry = some r ∧ parse entries = .ok others ∧
      l = ⟨r :: others.ranges⟩ := by
  unfold parse at h
  split at h
  · cases h
  · next r hr =>
    rcases hothers : parse entries with e | others
    · rw [hothers] at h
      cases h
    · rw [hothers] at h
      exact ⟨r, others, hr, rfl, (Except.ok.inj h).symm⟩

/-- The ranges of a list are those of its entries, which all have one. -/
theorem mem_ranges_parse (h : parse entries = .ok l) :
    (∀ entry ∈ entries, ∃ r, Range.parse? entry = some r) ∧
      ∀ r, r ∈ l.ranges ↔ ∃ entry ∈ entries, Range.parse? entry = some r := by
  induction entries generalizing l with
  | nil =>
    obtain rfl := Except.ok.inj h
    simp
  | cons entry entries ih =>
    obtain ⟨r, others, hr, hothers, rfl⟩ := parse_cons_eq_ok h
    obtain ⟨hall, hranges⟩ := ih hothers
    refine ⟨List.forall_mem_cons.mpr ⟨⟨r, hr⟩, hall⟩, fun r' => ?_⟩
    simp [hranges, hr, eq_comm]

/-- A list contains an address if an entry covers what is looked for in its place. -/
theorem contains_eq_true_iff (h : parse entries = .ok l) (ip : Ip) :
    l.contains ip = true ↔ ∃ entry ∈ entries, Listed entry ip.unmapped := by
  obtain ⟨hall, hranges⟩ := mem_ranges_parse h
  rw [contains, List.any_eq_true]
  constructor
  · rintro ⟨r, hr, hcontains⟩
    obtain ⟨entry, hentry, hparse⟩ := (hranges r).mp hr
    exact ⟨entry, hentry, (listed_iff_covers hparse).mpr (Range.contains_eq_true_iff.mp hcontains)⟩
  · rintro ⟨entry, hentry, hlisted⟩
    obtain ⟨r, hparse⟩ := hall entry hentry
    refine ⟨r, (hranges r).mpr ⟨entry, hentry, hparse⟩, ?_⟩
    exact Range.contains_eq_true_iff.mpr ((listed_iff_covers hparse).mp hlisted)

/-- **The addresses that a list admits.**
* An address that maps no other one is admitted just when an entry covers it.
* An address that maps another one is admitted just when this one is.
* So an entry covers every address that is admitted, or the one that it maps.
* An address that an entry covers is admitted as well, unless it maps one that no entry covers. -/
theorem admits_parse (h : parse entries = .ok l) :
    (∀ ip, (∀ a, ip ≠ .mapped a) →
      (l.contains ip = true ↔ ∃ entry ∈ entries, Listed entry ip)) ∧
    (∀ a, l.contains (.mapped a) = l.contains (.v4 a)) ∧
    (∀ ip, l.contains ip = true →
      ∃ entry ∈ entries, Listed entry ip ∨ ∃ a, ip = .mapped a ∧ Listed entry (.v4 a)) ∧
    ∀ ip, (∃ entry ∈ entries, Listed entry ip) →
      (l.contains ip = true ↔
        ∀ a, ip = .mapped a → ∃ entry ∈ entries, Listed entry (.v4 a)) := by
  -- an address is looked up as itself or, if it is mapped, as the one that it stands for
  have hown : ∀ ip, (∀ a, ip ≠ .mapped a) →
      (l.contains ip = true ↔ ∃ entry ∈ entries, Listed entry ip) := by
    intro ip hip
    rw [contains_eq_true_iff h, Ip.unmapped_eq_self hip]
  have hmapped : ∀ a, l.contains (.mapped a) = true ↔ ∃ entry ∈ entries, Listed entry (.v4 a) := by
    intro a
    rw [contains_eq_true_iff h, Ip.unmapped_mapped]
  refine ⟨hown, fun a => ?_, fun ip hip => ?_, fun ip hlisted => ?_⟩
  · exact Bool.eq_iff_iff.mpr ((hmapped a).trans (contains_eq_true_iff h (.v4 a)).symm)
  · by_cases hmaps : ∃ a, ip = .mapped a
    · obtain ⟨a, rfl⟩ := hmaps
      obtain ⟨entry, hentry, hcovers⟩ := (hmapped a).mp hip
      exact ⟨entry, hentry, Or.inr ⟨a, rfl, hcovers⟩⟩
    · obtain ⟨entry, hentry, hcovers⟩ := (hown ip (not_exists.mp hmaps)).mp hip
      exact ⟨entry, hentry, Or.inl hcovers⟩
  · constructor
    · rintro hip a rfl
      exact (hmapped a).mp hip
    · intro hbehind
      by_cases hmaps : ∃ a, ip = .mapped a
      · obtain ⟨a, rfl⟩ := hmaps
        exact (hmapped a).mpr (hbehind a rfl)
      · exact (hown ip (not_exists.mp hmaps)).mpr hlisted

/-- A mapped address that is the only one listed is not admitted. -/
theorem admits_parse_mapped :
    let entries := ["::ffff:10.1.2.3"]
    let ip := Ip.mapped 0x0a010203#32
    ∃ l, parse entries = .ok l ∧ (∃ entry ∈ entries, Listed entry ip) ∧ l.contains ip = false := by
  intro entries ip
  have hip : Ip.parse? "::ffff:10.1.2.3" = some ip := by decide +kernel
  have hrange : Range.parse? "::ffff:10.1.2.3" = some (.single ip) := by decide +kernel
  have hparse : parse entries = .ok ⟨[.single ip]⟩ := by
    simp [entries, parse, hrange, Except.map]
  have hlisted : ∃ entry ∈ entries, Listed entry ip := ⟨_, List.mem_cons_self, Or.inl hip⟩
  refine ⟨_, hparse, hlisted, Bool.eq_false_iff.mpr fun hcontains => ?_⟩
  obtain ⟨-, -, -, hcondition⟩ := admits_parse hparse
  -- the entry lists the mapped address, and not the one that it stands for
  obtain ⟨entry, hentry, hcovers⟩ := (hcondition ip hlisted).mp hcontains _ rfl
  rw [List.mem_singleton.mp hentry, listed_iff_covers hrange] at hcovers
  exact hcovers

end AllowList

end AchCourier.Net
