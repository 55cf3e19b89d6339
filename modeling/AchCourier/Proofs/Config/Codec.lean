import AchCourier.Config.Codec
import AchCourier.Proofs.Json.Records
import AchCourier.Proofs.Json.Values

/-!
# Settings survive their JSON form

Whatever the settings are, they are decoded from their JSON form.  A value that is left out on
writing is one that reading fills in: every member that may be missing has the default that stands
for its absence.  The numbers are of 32 and 64 bits, so the JSON form is also what a text of it
spells.

## Main results

* `Settings.ofJson?_toJson` — **settings are decoded from their JSON form.**
* `Settings.asRead_toJson` — a text of the JSON form spells that form.
-/

namespace AchCourier.Config

open Json

/-! ### Decoding -/

theorem word64?_nat (w : UInt64) : word64? (nat w.toNat) = some w := by
  rw [word64?, natural?_nat 64 w.toNat_lt, Option.map_some, UInt64.ofNat_toNat]

theorem word32?_nat (w : UInt32) : word32? (nat w.toNat) = some w := by
  rw [word32?, natural?_nat 32 w.toNat_lt, Option.map_some, UInt32.ofNat_toNat]

theorem Ftp.ofJson?_toJson (s : Ftp) : Ftp.ofJson? s.toJson = some s := by
  obtain ⟨hostname, username, password, caFile, dialTimeoutSecs, disabledEpsv⟩ := s
  cases caFile <;>
    simp [Ftp.ofJson?, Ftp.toJson, member, fields?, field?, required, withDefault, string?,
      boolean?, optional?, word64?_nat]

theorem Sftp.ofJson?_toJson (s : Sftp) : Sftp.ofJson? s.toJson = some s := by
  simp [Sftp.ofJson?, Sftp.toJson, fields?, field?, required, withDefault, string?, boolean?,
    word64?_nat]

theorem Paths.ofJson?_toJson (p : Paths) : Paths.ofJson? p.toJson = some p := by
  simp [Paths.ofJson?, Paths.toJson, fields?, field?, withDefault, string?]

theorem Agent.ofJson?_toJson (a : Agent) : Agent.ofJson? a.toJson = some a := by
  have hftp := optional?_eq_some Ftp.ofJson?_toJson fun _ => nofun
  have hsftp := optional?_eq_some Sftp.ofJson?_toJson fun _ => nofun
  obtain ⟨id, ftp, sftp, paths, allowedIps⟩ := a
  cases ftp <;> cases sftp <;>
    simp [Agent.ofJson?, Agent.toJson, member, fields?, field?, required, withDefault, string?,
      hftp, hsftp, Paths.ofJson?_toJson]

theorem Ingestion.ofJson?_toJson (s : Ingestion) : Ingestion.ofJson? s.toJson = some s := by
  obtain ⟨stagingDir, cleanupRemote⟩ := s
  cases stagingDir <;>
    simp [Ingestion.ofJson?, Ingestion.toJson, member, fields?, field?, withDefault, string?,
      boolean?, optional?]

/-- **Settings are decoded from their JSON form.** -/
theorem Settings.ofJson?_toJson (s : Settings) : Settings.ofJson? s.toJson = some s := by
  have hagents := list?_map_self fun a (_ : a ∈ s.agents) => a.ofJson?_toJson
  simp [Settings.ofJson?, Settings.toJson, fields?, field?, withDefault, word32?_nat, hagents,
    Ingestion.ofJson?_toJson]

/-! ### Texts -/

section
variable {α : Type} {name : String} {encode : α → Json}

theorem plainMembers_member (h : ∀ a, (encode a).plain = true) (o : Option α) :
    plainMembers (member name encode o) = true := by
  cases o with
  | none => rfl
  | some a => simp [member, plainMembers, h]

theorem asReadMembers_member (h : ∀ a, asRead (encode a) = encode a) (o : Option α) :
    asReadMembers (member name encode o) = member name encode o := by
  cases o with
  | none => rfl
  | some a => simp [member, asReadMembers, h]

end

theorem plain_str (s : String) : (Json.str s).plain = true := rfl

theorem asRead_str (s : String) : asRead (.str s) = .str s := rfl

theorem asRead_word64 (w : UInt64) : asRead (nat w.toNat) = nat w.toNat :=
  asRead_nat w.toNat_lt_size

theorem asRead_word32 (w : UInt32) : asRead (nat w.toNat) = nat w.toNat :=
  asRead_nat (Nat.lt_trans w.toNat_lt_size (by decide))

theorem Ftp.plain_toJson (s : Ftp) : s.toJson.plain = true := by
  simp [toJson, plain, plainMembers, plainMembers_append, plainMembers_member plain_str, nat]

theorem Ftp.asRead_toJson (s : Ftp) : asRead s.toJson = s.toJson := by
  simp [toJson, asRead, asReadMembers, asReadMembers_append, asReadMembers_member asRead_str,
    asRead_word64]

theorem Sftp.plain_toJson (s : Sftp) : s.toJson.plain = true := rfl

theorem Sftp.asRead_toJson (s : Sftp) : asRead s.toJson = s.toJson := by
  simp [toJson, asRead, asReadMembers, asRead_word64]

theorem Agent.plain_toJson (a : Agent) : a.toJson.plain = true := by
  simp [toJson, plain, plainMembers, plainMembers_append, plainMembers_member Ftp.plain_toJson,
    plainMembers_member Sftp.plain_toJson, Paths.toJson]

theorem Agent.asRead_toJson (a : Agent) : asRead a.toJson = a.toJson := by
  simp [toJson, asRead, asReadMembers, asReadMembers_append,
    asReadMembers_member Ftp.asRead_toJson, asReadMembers_member Sftp.asRead_toJson, Paths.toJson]

theorem Ingestion.plain_toJson (s : Ingestion) : s.toJson.plain = true := by
  simp [toJson, plain, plainMembers, plainMembers_append, plainMembers_member plain_str]

theorem Ingestion.asRead_toJson (s : Ingestion) : asRead s.toJson = s.toJson := by
  simp [toJson, asRead, asReadMembers, asReadMembers_append, asReadMembers_member asRead_str]

theorem Settings.plain_toJson (s : Settings) : s.toJson.plain = true := by
  simp [toJson, plain, plainMembers, plainItems_map Agent.plain_toJson, Ingestion.plain_toJson,
    nat]

/-- **A text of the JSON form of settings spells that form.** -/
theorem Settings.asRead_toJson (s : Settings) : asRead s.toJson = s.toJson := by
  simp [toJson, asRead, asReadMembers, asReadItems_map fun a _ => Agent.asRead_toJson a,
    Ingestion.asRead_toJson, asRead_word32]

end AchCourier.Config
