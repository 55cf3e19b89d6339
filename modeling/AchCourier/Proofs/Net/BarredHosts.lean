import AchCourier.Proofs.Net.AllowedAddresses

/-!
# Hosts that are barred

The name of a host may show an address.  Then nothing has to be looked up, and whether the host is
admitted is settled by its name and the list alone: it is barred if an entry of the list cannot be
read, if the name cannot, or if no entry covers the address.  A host that is barred is refused with
a fault of the configuration, so that nobody tries again; any other host is admitted.

## Main definitions

* `NeedsNoLookup` — a host name for which nothing is looked up.
* `Bars` — a list that bars a host name.

## Main results

* `AllowList.parse_cases` — a list is read, or one of its entries is to blame.
* `AllowList.screen_of_needsNoLookup` — **a host is refused just when it is barred.**
-/

namespace AchCourier.Net

/-- The host name shows an address or stands for no endpoint, so that nothing is looked up. -/
def NeedsNoLookup (hostname : String) : Prop :=
  ∀ endpoint, Endpoint.parse hostname 1 = .ok endpoint → ∃ ip, Ip.parse? endpoint.host = some ip

instance : DecidablePred NeedsNoLookup := fun hostname =>
  match h : Endpoint.parse hostname 1 with
  | .error _ => .isTrue fun _ hendpoint => nomatch h.symm.trans hendpoint
  | .ok endpoint =>
      decidable_of_iff ((Ip.parse? endpoint.host).isSome = true) <| by
        simp [NeedsNoLookup, h, Option.isSome_iff_exists]

/-- Why a list of entries bars a host name. -/
inductive Bars (entries : List String) (hostname : String) : Prop where
  /-- An entry shows neither an address nor a range. -/
  | badEntry {entry : String} : entry ∈ entries → Range.parse? entry = none →
      Bars entries hostname
  /-- The host name stands for no endpoint. -/
  | malformed {cause : Endpoint.Malformed} : Endpoint.parse hostname 1 = .error cause →
      Bars entries hostname
  /-- No entry covers the address in the host name; a mapped address stands for the IPv4 address
  behind it. -/
  | outside {endpoint : Endpoint} {ip : Ip} : Endpoint.parse hostname 1 = .ok endpoint →
      Ip.parse? endpoint.host = some ip → (∀ entry ∈ entries, ¬ Listed entry ip.unmapped) →
      Bars entries hostname

namespace AllowList

variable {entries : List String} {hostname : String}

/-- A list is read as a whole, or the first entry that shows nothing is named. -/
theorem parse_cases (entries : List String) :
    (∃ l, parse entries = .ok l) ∨
      ∃ entry ∈ entries, Range.parse? entry = none ∧ parse entries = .error (.badEntry entry) := by
  induction entries with
  | nil => exact Or.inl ⟨_, rfl⟩
  | cons entry entries ih =>
    cases hentry : Range.parse? entry with
    | none => exact Or.inr ⟨entry, List.mem_cons_self, hentry, by rw [parse, hentry]⟩
    | some r =>
      rcases ih with ⟨l, hl⟩ | ⟨bad, hmem, hbad, hl⟩
      · exact Or.inl ⟨⟨r :: l.ranges⟩, by rw [parse, hentry, hl]; rfl⟩
      · exact Or.inr ⟨bad, List.mem_cons_of_mem _ hmem, hbad, by rw [parse, hentry, hl]; rfl⟩

/-- A list with an entry is not empty. -/
theorem isEmpty_eq_false {l : AllowList} (hl : parse entries = .ok l) (hne : entries ≠ []) :
    l.isEmpty = false := by
  obtain ⟨entry, hentry⟩ := List.exists_mem_of_ne_nil _ hne
  obtain ⟨hall, hranges⟩ := mem_ranges_parse hl
  obtain ⟨r, hr⟩ := hall entry hentry
  have hmem : r ∈ l.ranges := (hranges r).mpr ⟨entry, hentry, hr⟩
  rw [isEmpty, List.isEmpty_eq_false_iff]
  exact List.ne_nil_of_mem hmem

/-- **A host is refused just when it is barred**, and then the configuration is to blame.  What a
lookup would say makes no difference. -/
theorem screen_of_needsNoLookup (hne : entries ≠ []) (hname : NeedsNoLookup hostname)
    (lookup : Lookup) :
    (Bars entries hostname ∧ ∃ refusal, screen lookup entries hostname = .error refusal ∧
        ∀ protocol, (refusal.toError protocol).isConfig = true) ∨
      (¬ Bars entries hostname ∧ screen lookup entries hostname = .ok ()) := by
  rcases parse_cases entries with ⟨l, hl⟩ | ⟨entry, hmem, hbad, hl⟩
  · have hempty := isEmpty_eq_false hl hne
    cases hendpoint : Endpoint.parse hostname 1 with
    | error cause =>
      refine Or.inl ⟨.malformed hendpoint, .malformed cause, ?_, fun _ => rfl⟩
      rw [screen, hl, hendpoint]
      exact if_neg (by simp [hempty])
    | ok endpoint =>
      obtain ⟨ip, hip⟩ := hname endpoint hendpoint
      have hscreen : screen lookup entries hostname = l.check hostname [ip] := by
        have haddresses : addressesOf lookup endpoint.host = .ok [ip] := by rw [addressesOf, hip]
        rw [screen, hl, hendpoint]
        refine (if_neg (by simp [hempty])).trans ?_
        exact congrArg (fun ips => ips >>= l.check hostname) haddresses
      rw [hscreen]
      have hcovered := contains_eq_true_iff hl ip
      cases hcontains : l.contains ip with
      | true =>
        refine Or.inr ⟨fun hbars => ?_, by simp [check, hcontains]⟩
        -- every reason to bar the host is ruled out by what was read
        cases hbars with
        | badEntry hentry hbad =>
          obtain ⟨r, hr⟩ := (mem_ranges_parse hl).1 _ hentry
          cases hbad.symm.trans hr
        | malformed herror => cases hendpoint.symm.trans herror
        | outside hendpoint' hip' hnone =>
          obtain rfl := Except.ok.inj (hendpoint.symm.trans hendpoint')
          obtain rfl := Option.some.inj (hip.symm.trans hip')
          obtain ⟨entry, hentry, hlisted⟩ := hcovered.mp hcontains
          exact hnone entry hentry hlisted
      | false =>
        rw [hcontains] at hcovered
        have hnone : ∀ entry ∈ entries, ¬ Listed entry ip.unmapped := fun entry hentry hlisted =>
          Bool.false_ne_true (hcovered.mpr ⟨entry, hentry, hlisted⟩)
        exact Or.inl ⟨.outside hendpoint hip hnone, .outside hostname ip,
          by simp [check, hcontains], fun _ => rfl⟩
  · refine Or.inl ⟨.badEntry hmem hbad, .badEntry entry, ?_, fun _ => rfl⟩
    simp [screen, hl, bind, Except.bind]

theorem bars_iff (hne : entries ≠ []) (hname : NeedsNoLookup hostname) (lookup : Lookup) :
    Bars entries hostname ↔ (screen lookup entries hostname).isOk = false := by
  rcases screen_of_needsNoLookup hne hname lookup with
    ⟨hbars, refusal, hscreen, -⟩ | ⟨hbars, hscreen⟩
  · simp [hbars, hscreen, Except.isOk, Except.toBool]
  · simp [hbars, hscreen, Except.isOk, Except.toBool]

end AllowList

end AchCourier.Net
