import AchCourier.Config.Summary

/-!
# What messages tell of secrets

The texts of settings are made of everything but the secrets, of what is shown in place of a
password, and of whether there is a private key.  So settings that differ in nothing else have the
same texts, and a reader of the texts cannot tell them apart.

## Main definitions

* `LookAlike` — passwords in place of which the same is shown.
* `Ftp.Alike`, `Sftp.Alike`, `Agent.Alike` — settings that differ at most in secrets which messages
  do not tell apart.

## Main results

* `mask_eq_iff` — what is shown of a password: its two ends, if it is long enough, and no more.
* `Agent.summary_eq_of_alike` — **messages keep secrets.**
-/

namespace AchCourier.Config

/-! ### Passwords -/

/-- Both passwords have fewer than three characters, or both have at least three and the same first
and the same last one. -/
def LookAlike (p q : String) : Prop :=
  (p.length < 3 ∧ q.length < 3) ∨
    (3 ≤ p.length ∧ 3 ≤ q.length ∧ p.toList.head? = q.toList.head? ∧
      p.toList.getLast? = q.toList.getLast?)

/-- A password is hidden altogether, or all of it but its first and its last character. -/
theorem mask_cases (p : String) :
    (p.length < 3 ∧ mask p = "**") ∨
      3 ≤ p.length ∧ ∃ first last, p.toList.head? = some first ∧ p.toList.getLast? = some last ∧
        mask p = String.ofList [first, '*', '*', last] := by
  have hlength : p.length = p.toList.length := String.length_toList.symm
  rw [hlength, mask]
  -- three characters are enough for a first one and a last one that is shown
  split
  · next first second third rest hchars =>
    rw [hchars]
    refine Or.inr ⟨by simp, first, _, rfl, ?_, rfl⟩
    rw [List.getLast?_cons_cons]
    exact List.getLast?_eq_some_getLast _
  · next hshort =>
    refine Or.inl ⟨?_, rfl⟩
    match hchars : p.toList, hshort with
    | [], _ => simp
    | [_], _ => simp
    | [_, _], _ => simp
    | first :: second :: third :: rest, hshort => exact absurd rfl (hshort first second third rest)

/-- **What is shown of a password**: its two ends, if it is long enough, and no more. -/
theorem mask_eq_iff {p q : String} : mask p = mask q ↔ LookAlike p q := by
  unfold LookAlike
  -- a text of two characters is none of four
  have hlength : ∀ first last : Char, "**" ≠ String.ofList [first, '*', '*', last] :=
    fun first last heq => absurd (congrArg String.toList heq) (by simp)
  rcases mask_cases p with ⟨hp, hpm⟩ | ⟨hp, a, b, ha, hb, hpm⟩ <;>
    rcases mask_cases q with ⟨hq, hqm⟩ | ⟨hq, c, d, hc, hd, hqm⟩ <;> rw [hpm, hqm]
  · simp [hp, hq]
  · simp only [hlength, false_iff]
    omega
  · simp only [(hlength a b).symm, false_iff]
    omega
  · rw [ha, hb, hc, hd, String.ofList_inj]
    simp only [List.cons.injEq, and_true, true_and, Option.some.injEq]
    exact ⟨fun hends => Or.inr ⟨hp, hq, hends⟩,
      fun h => h.elim (fun hshort => absurd hshort.1 (Nat.not_lt.mpr hp)) fun h => h.2.2⟩

/-! ### Settings -/

/-- The settings without the password. -/
def Ftp.withoutSecrets (s : Ftp) : Ftp :=
  { s with password := "" }

/-- The settings without the password and the private key. -/
def Sftp.withoutSecrets (s : Sftp) : Sftp :=
  { s with password := "", clientPrivateKey := "" }

/-- The settings without passwords and private keys. -/
def Agent.withoutSecrets (a : Agent) : Agent :=
  { a with ftp := a.ftp.map Ftp.withoutSecrets, sftp := a.sftp.map Sftp.withoutSecrets }

/-- The settings differ at most in passwords that look alike. -/
structure Ftp.Alike (s t : Ftp) : Prop where
  rest : s.withoutSecrets = t.withoutSecrets
  password : LookAlike s.password t.password

/-- The settings differ at most in passwords that look alike and in private keys, and neither of
them or both have a private key. -/
structure Sftp.Alike (s t : Sftp) : Prop where
  rest : s.withoutSecrets = t.withoutSecrets
  password : LookAlike s.password t.password
  clientPrivateKey : s.clientPrivateKey = "" ↔ t.clientPrivateKey = ""

/-- The settings of two agents differ at most in secrets that messages do not tell apart. -/
structure Agent.Alike (a b : Agent) : Prop where
  rest : a.withoutSecrets = b.withoutSecrets
  ftp : ∀ s ∈ a.ftp, ∀ t ∈ b.ftp, LookAlike s.password t.password
  sftp : ∀ s ∈ a.sftp, ∀ t ∈ b.sftp, LookAlike s.password t.password ∧
    (s.clientPrivateKey = "" ↔ t.clientPrivateKey = "")

theorem Ftp.Alike.summary_eq {s t : Ftp} (h : s.Alike t) : s.summary = t.summary := by
  obtain ⟨hrest, hpassword⟩ := h
  simp only [withoutSecrets, mk.injEq, true_and] at hrest
  obtain ⟨hhostname, husername, hcaFile, htimeout, hepsv⟩ := hrest
  unfold summary
  rw [mask_eq_iff.mpr hpassword, hhostname, husername, hcaFile, htimeout, hepsv]

theorem Sftp.Alike.summary_eq {s t : Sftp} (h : s.Alike t) : s.summary = t.summary := by
  obtain ⟨hrest, hpassword, hkey⟩ := h
  simp only [withoutSecrets, mk.injEq, true_and] at hrest
  obtain ⟨hhostname, husername, hhostKey, htimeout, hsize, hmake⟩ := hrest
  have hpacket : s.packetSize = t.packetSize := by rw [packetSize, packetSize, hsize]
  have hgiven : decide (s.clientPrivateKey ≠ "") = decide (t.clientPrivateKey ≠ "") :=
    decide_eq_decide.mpr (not_congr hkey)
  unfold summary
  rw [mask_eq_iff.mpr hpassword, hgiven, hhostname, husername, hhostKey, htimeout, hpacket, hmake]

/-- Optional settings have the same text when they are there alike and, if they are, their texts
are the same. -/
theorem map_text_eq {α β : Type} {rest : α → α} {text : α → β} {o o' : Option α}
    (h : o.map rest = o'.map rest)
    (htext : ∀ s ∈ o, ∀ t ∈ o', rest s = rest t → text s = text t) : o.map text = o'.map text := by
  cases o with
  | none => rw [Option.map_eq_none_iff.mp h.symm]
  | some s =>
    obtain ⟨t, rfl, hrest⟩ := Option.map_eq_some_iff.mp h.symm
    exact congrArg some (htext s rfl t rfl hrest.symm)

theorem optionalSummary_map {α : Type} (f : α → String) (o : Option α) :
    optionalSummary f o = optionalSummary id (o.map f) := by
  cases o <;> rfl

/-- **Messages keep secrets.**  Settings of agents that differ at most in their passwords and
private keys have the same texts, if of each pair of passwords both are shorter than three
characters or both begin and end alike, and of each pair of keys neither is given or both are. -/
theorem Agent.summary_eq_of_alike {a b : Agent} (h : a.Alike b) :
    a.ftp.map Ftp.summary = b.ftp.map Ftp.summary ∧
      a.sftp.map Sftp.summary = b.sftp.map Sftp.summary ∧ a.summary = b.summary := by
  have hrest := h.rest
  simp only [withoutSecrets, mk.injEq] at hrest
  obtain ⟨hid, hftp, hsftp, hpaths, hips⟩ := hrest
  -- alike parts have the same text, and the whole is put together from them
  have hftpText : a.ftp.map Ftp.summary = b.ftp.map Ftp.summary :=
    map_text_eq hftp fun s hs t ht hst => Ftp.Alike.summary_eq ⟨hst, h.ftp s hs t ht⟩
  have hsftpText : a.sftp.map Sftp.summary = b.sftp.map Sftp.summary :=
    map_text_eq hsftp fun s hs t ht hst =>
      Sftp.Alike.summary_eq ⟨hst, (h.sftp s hs t ht).1, (h.sftp s hs t ht).2⟩
  refine ⟨hftpText, hsftpText, ?_⟩
  unfold summary
  rw [optionalSummary_map Ftp.summary a.ftp, optionalSummary_map Sftp.summary a.sftp, hftpText,
    hsftpText, ← optionalSummary_map, ← optionalSummary_map, hid, hpaths, hips]

/-- An agent with the given secrets, some of them outside of ASCII. -/
def sampleAgent (ftpPassword sftpPassword clientPrivateKey : String) : Agent where
  id := "odfi"
  ftp := some { hostname := "ftp.bank.com:21", username := "user", password := ftpPassword }
  sftp := some
    { hostname := "sftp.bank.com:22", username := "user", password := sftpPassword
      clientPrivateKey }

theorem Agent.summary_eq_of_alike_sampleAgent :
    (sampleAgent "élan vital" "ab" "key").Alike (sampleAgent "éternel" "" "other key") ∧
      (sampleAgent "élan vital" "ab" "key").summary =
        (sampleAgent "éternel" "" "other key").summary := by
  have halike : (sampleAgent "élan vital" "ab" "key").Alike
      (sampleAgent "éternel" "" "other key") := by
    refine ⟨rfl, ?_, ?_⟩
    · rintro s ⟨⟩ t ⟨⟩
      exact Or.inr (by decide)
    · rintro s ⟨⟩ t ⟨⟩
      exact ⟨Or.inl (by decide), by decide⟩
  exact ⟨halike, (summary_eq_of_alike halike).2.2⟩

end AchCourier.Config
