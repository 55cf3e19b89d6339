import AchCourier.Ach.Identity
import AchCourier.Proofs.Ach.RoundTrip
import AchCourier.Proofs.Digest.Fingerprint
import AchCourier.Proofs.Json.Values

/-!
# Content identities identify content

The JSON form of a record tells all its fields but the identity, and a compact text spells one value
only.  So, as long as the hash function has no collision among the texts that are hashed, entries
have the same identity exactly if they say the same; batches, exactly if their headers and controls
and what their entries say are the same; and files likewise.

## Main definitions

* `Entry.serialized`, `Batch.serialized`, `File.serialized` — the texts that are hashed.
* `NoCollision` — entries, batches and files are told apart by the digests of these texts.

## Main results

* `toJson_injective` in the namespace of each record — JSON forms tell records apart.
* `Entry.toJson_eq_iff` — and entries, up to their identities.
* `Entry.identity_eq_iff`, `Batch.identity_eq_iff`, `File.identity?_eq_iff` — what identities say.
* `identities_identify_content` — **content identities identify content.**
-/

namespace AchCourier.Ach

open Digest (CollisionFree)

/-! ### JSON forms tell records apart -/

theorem FileHeader.toJson_injective : Function.Injective toJson := by
  rintro ⟨⟩ ⟨⟩ h
  simpa [toJson] using h

theorem BatchHeader.toJson_injective : Function.Injective toJson := by
  rintro ⟨⟩ ⟨⟩ h
  simpa [toJson] using h

theorem BatchControl.toJson_injective : Function.Injective toJson := by
  rintro ⟨⟩ ⟨⟩ h
  simpa [toJson] using h

theorem FileControl.toJson_injective : Function.Injective toJson := by
  rintro ⟨⟩ ⟨⟩ h
  simpa [toJson] using h

theorem Remittance.toJson_injective : Function.Injective toJson := by
  rintro ⟨⟩ ⟨⟩ h
  simpa [toJson] using h

theorem ChangeNotice.toJson_injective : Function.Injective toJson := by
  rintro ⟨⟩ ⟨⟩ h
  simpa [toJson] using h

theorem ReturnNotice.toJson_injective : Function.Injective toJson := by
  rintro ⟨⟩ ⟨⟩ h
  simpa [toJson] using h

/-- A member that is left out is told from one that is not, whatever other members follow. -/
theorem optionalMember_append_inj {α : Type} {name : String} {f : α → Json}
    (hf : Function.Injective f) {a a' : Option α} {rest rest' : List (String × Json)}
    (hrest : ∀ m ∈ rest, m.1 ≠ name) (hrest' : ∀ m ∈ rest', m.1 ≠ name)
    (h : optionalMember name f a ++ rest = optionalMember name f a' ++ rest') :
    a = a' ∧ rest = rest' := by
  -- a member that only one side has would stand among the rest of the other
  cases a with
  | none =>
    cases a' with
    | none => exact ⟨rfl, h⟩
    | some a' =>
      replace h : rest = (name, f a') :: rest' := h
      exact absurd rfl (hrest (name, f a') (h ▸ List.mem_cons_self))
  | some a =>
    cases a' with
    | none =>
      replace h : (name, f a) :: rest = rest' := h
      exact absurd rfl (hrest' (name, f a) (h ▸ List.mem_cons_self))
    | some a' =>
      obtain ⟨hhead, hrest⟩ := List.cons.inj h
      exact ⟨congrArg some (hf (Prod.mk.inj hhead).2), hrest⟩

theorem fst_of_mem_optionalMember {α : Type} {name : String} {f : α → Json} {a : Option α}
    {m : String × Json} (h : m ∈ optionalMember name f a) : m.1 = name := by
  cases a with
  | none => cases h
  | some a => rw [List.mem_singleton.mp h]

/-- The members with the addenda of an entry. -/
def Entry.addendaMembers (e : Entry) : List (String × Json) :=
  optionalMember "addenda05" (fun as => .arr (as.map Remittance.toJson))
      (if e.remittances.isEmpty then none else some e.remittances) ++
    (optionalMember "addenda98" ChangeNotice.toJson e.changeNotice ++
      optionalMember "addenda99" ReturnNotice.toJson e.returnNotice)

theorem Entry.toJson_eq (e : Entry) :
    e.toJson = .obj ([
      ("transaction_code", Json.nat e.transactionCode),
      ("rdfi_identification", .str e.rdfiIdentification),
      ("check_digit", .str e.checkDigit),
      ("dfi_account_number", .str e.dfiAccountNumber),
      ("amount", Json.nat e.amount),
      ("identification_number", .str e.identificationNumber),
      ("individual_name", .str e.individualName),
      ("discretionary_data", .str e.discretionaryData),
      ("addenda_record_indicator", Json.nat e.addendaRecordIndicator),
      ("trace_number", .str e.traceNumber)] ++ e.addendaMembers) := by
  rw [toJson, addendaMembers, List.append_assoc, List.append_assoc]
  cases e.remittances.isEmpty <;> rfl

/-- The members with addenda tell the addenda. -/
theorem Entry.addendaMembers_inj {e e' : Entry} (h : e.addendaMembers = e'.addendaMembers) :
    e.remittances = e'.remittances ∧ e.changeNotice = e'.changeNotice ∧
      e.returnNotice = e'.returnNotice := by
  have hremittances : Function.Injective fun as : List Remittance =>
      Json.arr (as.map Remittance.toJson) :=
    fun as as' heq => Remittance.toJson_injective.list_map (Json.arr.inj heq)
  -- the names of the members behind tell which of them were left out
  have hbehind : ∀ x : Entry, ∀ m ∈ optionalMember "addenda98" ChangeNotice.toJson x.changeNotice ++
      optionalMember "addenda99" ReturnNotice.toJson x.returnNotice, m.1 ≠ "addenda05" := by
    intro x m hm
    rcases List.mem_append.mp hm with hm | hm <;> rw [fst_of_mem_optionalMember hm] <;> decide
  have hlast : ∀ x : Entry, ∀ m ∈ optionalMember "addenda99" ReturnNotice.toJson x.returnNotice,
      m.1 ≠ "addenda98" := by
    intro x m hm
    rw [fst_of_mem_optionalMember hm]
    decide
  obtain ⟨h05, h⟩ := optionalMember_append_inj hremittances (hbehind e) (hbehind e') h
  obtain ⟨h98, h⟩ :=
    optionalMember_append_inj ChangeNotice.toJson_injective (hlast e) (hlast e') h
  rw [← List.append_nil (optionalMember _ _ e.returnNotice),
    ← List.append_nil (optionalMember _ _ e'.returnNotice)] at h
  obtain ⟨h99, -⟩ := optionalMember_append_inj ReturnNotice.toJson_injective
    (List.forall_mem_nil _) (List.forall_mem_nil _) h
  refine ⟨?_, h98, h99⟩
  -- the member is left out just where there are no remittances
  cases hr : e.remittances <;> cases hr' : e'.remittances <;> simp_all

/-- **The JSON form of an entry tells all of it but its identity.** -/
theorem Entry.toJson_eq_iff {e e' : Entry} :
    e.toJson = e'.toJson ↔ e.withoutId = e'.withoutId := by
  constructor
  · intro h
    rw [toJson_eq, toJson_eq, Json.obj.injEq] at h
    obtain ⟨hfields, hmembers⟩ := List.append_inj h rfl
    obtain ⟨h05, h98, h99⟩ := addendaMembers_inj hmembers
    simp only [List.cons.injEq, Prod.mk.injEq, Json.str.injEq, Json.nat_inj, true_and,
      and_true] at hfields
    cases e
    cases e'
    simp_all [withoutId]
  · intro h
    have hid : ∀ x : Entry, x.withoutId.toJson = x.toJson := fun x => rfl
    rw [← hid e, h, hid]

/-! ### Texts that are hashed -/

/-- The value that stands for a batch: its entries are named by their identities. -/
def Batch.identityJson (b : Batch) : Json :=
  .obj [
    ("header", b.header.toJson),
    ("entries", .strs (b.entries.map Entry.identity)),
    ("control", b.control.toJson)]

/-- The value that stands for a file: its batches are named by their identities. -/
def File.identityJson (f : File) : Json :=
  .obj [
    ("header", f.header.toJson),
    ("batches", .strs (f.batches.map Batch.identity)),
    ("control", f.control.toJson)]

/-- The text of a value that is hashed. -/
def serializedJson (v : Json) : Bytes :=
  Utf8.encode v.compact

/-- The text that the identity of an entry is the digest of. -/
def Entry.serialized (e : Entry) : Bytes :=
  serializedJson e.toJson

/-- The text that the identity of a batch is the digest of. -/
def Batch.serialized (b : Batch) : Bytes :=
  serializedJson b.identityJson

/-- The text that the identity of a file is the digest of, if its header is valid. -/
def File.serialized (f : File) : Bytes :=
  serializedJson f.identityJson

theorem Entry.identity_eq (e : Entry) : e.identity = Digest.fingerprint e.serialized := rfl

theorem Batch.identity_eq (b : Batch) : b.identity = Digest.fingerprint b.serialized := rfl

theorem File.identity?_eq (f : File) :
    f.identity? = if f.hasValidHeader then some (Digest.fingerprint f.serialized) else none := rfl

theorem serializedJson_eq_iff {v w : Json} (hv : v.plain = true) (hw : w.plain = true) :
    serializedJson v = serializedJson w ↔ v = w :=
  ⟨fun h => Json.compact_injective hv hw (Utf8.encode_injective h), fun h => by rw [h]⟩

theorem plainMembers_optionalMember {α : Type} {name : String} {f : α → Json}
    (hf : ∀ a, (f a).plain = true) (a : Option α) :
    Json.plainMembers (optionalMember name f a) = true := by
  cases a with
  | none => rfl
  | some a => rw [optionalMember, Json.plainMembers, hf]; rfl

theorem Entry.plain_toJson (e : Entry) : e.toJson.plain = true := by
  have hmembers : Json.plainMembers e.addendaMembers = true := by
    have hremittances : ∀ as : List Remittance,
        (Json.arr (as.map Remittance.toJson)).plain = true :=
      fun as => Json.plainItems_map (fun _ => rfl) as
    have hchange : ∀ a : ChangeNotice, a.toJson.plain = true := fun _ => rfl
    have hreturn : ∀ a : ReturnNotice, a.toJson.plain = true := fun _ => rfl
    rw [addendaMembers, Json.plainMembers_append, Json.plainMembers_append,
      plainMembers_optionalMember hremittances, plainMembers_optionalMember hchange,
      plainMembers_optionalMember hreturn]
    rfl
  rw [toJson_eq, Json.plain, Json.plainMembers_append, hmembers]
  rfl

theorem Batch.plain_identityJson (b : Batch) : b.identityJson.plain = true := by
  have hentries := Json.plain_strs (b.entries.map Entry.identity)
  simp [identityJson, Json.plain, Json.plainMembers, hentries, BatchHeader.toJson,
    BatchControl.toJson, Json.nat]

theorem File.plain_identityJson (f : File) : f.identityJson.plain = true := by
  have hbatches := Json.plain_strs (f.batches.map Batch.identity)
  simp [identityJson, Json.plain, Json.plainMembers, hbatches, FileHeader.toJson,
    FileControl.toJson, Json.nat]

theorem Batch.identityJson_eq_iff {b b' : Batch} :
    b.identityJson = b'.identityJson ↔ b.header = b'.header ∧
      b.entries.map Entry.identity = b'.entries.map Entry.identity ∧ b.control = b'.control := by
  simp [identityJson, BatchHeader.toJson_injective.eq_iff, Json.strs_injective.eq_iff,
    BatchControl.toJson_injective.eq_iff]

theorem File.identityJson_eq_iff {f f' : File} :
    f.identityJson = f'.identityJson ↔ f.header = f'.header ∧
      f.batches.map Batch.identity = f'.batches.map Batch.identity ∧ f.control = f'.control := by
  simp [identityJson, FileHeader.toJson_injective.eq_iff, Json.strs_injective.eq_iff,
    FileControl.toJson_injective.eq_iff]

/-! ### What identities say -/

/-- Lists are told apart by one map as they are by another when their members are. -/
theorem map_eq_map_iff_of_iff {α β γ : Type} {f : α → β} {g : α → γ} {as as' : List α}
    (h : ∀ a ∈ as, ∀ a' ∈ as', f a = f a' ↔ g a = g a') :
    as.map f = as'.map f ↔ as.map g = as'.map g := by
  induction as generalizing as' with
  | nil => cases as' <;> simp
  | cons a as ih =>
    cases as' with
    | nil => simp
    | cons a' as' =>
      have hhead : f a = f a' ↔ g a = g a' := h a List.mem_cons_self a' List.mem_cons_self
      have htail : as.map f = as'.map f ↔ as.map g = as'.map g :=
        ih fun x hx y hy => h x (List.mem_cons_of_mem a hx) y (List.mem_cons_of_mem a' hy)
      rw [List.map_cons, List.map_cons, List.cons.injEq, List.map_cons, List.map_cons,
        List.cons.injEq, hhead, htail]

theorem Batch.withoutIds_eq_iff {b b' : Batch} :
    b.withoutIds = b'.withoutIds ↔ b.header = b'.header ∧ b.control = b'.control ∧
      b.entries.map Entry.withoutId = b'.entries.map Entry.withoutId := by
  cases b
  cases b'
  simp only [withoutIds, Batch.mk.injEq, true_and]
  tauto

/-- The identity of an entry says what the entry says. -/
theorem Entry.identity_eq_iff {entries : List Entry}
    (h : CollisionFree (entries.map Entry.serialized)) {e e' : Entry} (he : e ∈ entries)
    (he' : e' ∈ entries) : e.identity = e'.identity ↔ e.withoutId = e'.withoutId := by
  rw [identity_eq, identity_eq,
    h.fingerprint_eq_iff (List.mem_map_of_mem he) (List.mem_map_of_mem he'), serialized,
    serialized, serializedJson_eq_iff e.plain_toJson e'.plain_toJson, toJson_eq_iff]

/-- The identity of a batch says what its header, its control and its entries say. -/
theorem Batch.identity_eq_iff {batches : List Batch}
    (hentries : CollisionFree ((batches.flatMap Batch.entries).map Entry.serialized))
    (hbatches : CollisionFree (batches.map Batch.serialized)) {b b' : Batch} (hb : b ∈ batches)
    (hb' : b' ∈ batches) : b.identity = b'.identity ↔ b.withoutIds = b'.withoutIds := by
  have hsame : b.entries.map Entry.identity = b'.entries.map Entry.identity ↔
      b.entries.map Entry.withoutId = b'.entries.map Entry.withoutId :=
    map_eq_map_iff_of_iff fun e he e' he' => Entry.identity_eq_iff hentries
      (List.mem_flatMap.mpr ⟨b, hb, he⟩) (List.mem_flatMap.mpr ⟨b', hb', he'⟩)
  rw [identity_eq, identity_eq,
    hbatches.fingerprint_eq_iff (List.mem_map_of_mem hb) (List.mem_map_of_mem hb'), serialized,
    serialized, serializedJson_eq_iff b.plain_identityJson b'.plain_identityJson,
    identityJson_eq_iff, hsame, withoutIds_eq_iff]
  tauto

/-- No two of the texts that are hashed for the entries of two files have the same digest, nor do
two of those for their batches, nor those for the files themselves if their headers are valid. -/
structure NoCollision (f g : File) : Prop where
  entries : CollisionFree ((f.entries ++ g.entries).map Entry.serialized)
  batches : CollisionFree ((f.batches ++ g.batches).map Batch.serialized)
  files : CollisionFree (([f, g].filter File.hasValidHeader).map File.serialized)

/-- The identity of a file says what its header, its control and its batches say. -/
theorem File.identity?_eq_iff {f g : File} (h : NoCollision f g) (hf : f.hasValidHeader = true)
    (hg : g.hasValidHeader = true) :
    f.identity? = g.identity? ↔ f.header = g.header ∧ f.control = g.control ∧
      f.batches.map Batch.withoutIds = g.batches.map Batch.withoutIds := by
  have hfiles := h.files
  rw [List.filter_eq_self.mpr (by simp [hf, hg])] at hfiles
  have hentries := h.entries
  rw [entries, entries, ← List.flatMap_append] at hentries
  -- the identities of the batches stand for their contents
  have hsame : f.batches.map Batch.identity = g.batches.map Batch.identity ↔
      f.batches.map Batch.withoutIds = g.batches.map Batch.withoutIds :=
    map_eq_map_iff_of_iff fun b hb b' hb' => Batch.identity_eq_iff hentries h.batches
      (List.mem_append_left _ hb) (List.mem_append_right _ hb')
  rw [identity?_eq, identity?_eq, if_pos hf, if_pos hg, Option.some.injEq,
    hfiles.fingerprint_eq_iff (by simp) (by simp), serialized, serialized,
    serializedJson_eq_iff f.plain_identityJson g.plain_identityJson, identityJson_eq_iff, hsame]
  tauto

/-! ### Identities that are filled in -/

theorem Batch.entries_identify (b : Batch) : b.identify.entries = b.entries.map Entry.identify :=
  rfl

theorem File.entries_identify (f : File) : f.identify.entries = f.entries.map Entry.identify := by
  rw [entries, entries, identify, List.flatMap_map, List.map_flatMap]
  rfl

theorem Batch.map_withoutId_identify (b : Batch) :
    b.identify.entries.map Entry.withoutId = b.entries.map Entry.withoutId := by
  rw [entries_identify, List.map_map]
  rfl

/-- Filling in identities changes nothing but identities. -/
theorem Batch.withoutIds_identify (b : Batch) : b.identify.withoutIds = b.withoutIds := by
  rw [withoutIds, map_withoutId_identify]
  rfl

theorem File.withoutIds_identify (f : File) : f.identify.withoutIds = f.withoutIds := by
  rw [withoutIds, withoutIds, identify, List.map_map]
  simp only [Function.comp_def, Batch.withoutIds_identify]

/-- Identities that are filled in already do not count. -/
theorem Batch.identity_identify (b : Batch) : b.identify.identity = b.identity := by
  have hentries : b.identify.entries.map Entry.identity = b.entries.map Entry.identity := by
    rw [entries_identify, List.map_map]
    rfl
  rw [identity, hentries]
  rfl

theorem File.identity?_identify (f : File) : f.identify.identity? = f.identity? := by
  have hbatches : f.identify.batches.map Batch.identity = f.batches.map Batch.identity := by
    rw [identify, List.map_map]
    exact List.map_congr_left fun b _ => b.identity_identify
  rw [identity?, hbatches]
  rfl

theorem Batch.identify_identify (b : Batch) : b.identify.identify = b.identify := by
  have hentries : b.identify.entries.map Entry.identify = b.identify.entries := by
    rw [entries_identify, List.map_map]
    rfl
  rw [identify, identity_identify, hentries]
  rfl

theorem File.identify_identify (f : File) : f.identify.identify = f.identify := by
  have hbatches : f.identify.batches.map Batch.identify = f.identify.batches := by
    rw [identify, List.map_map]
    exact List.map_congr_left fun b _ => b.identify_identify
  rw [identify, identity?_identify, hbatches]
  rfl

/-- **Content identities identify content.**  With the identities of two files filled in, entries
have the same identity exactly if they agree in all else; batches, exactly if their headers, their
controls and their entries do; and files have an identity exactly if their headers are valid, the
same one exactly if their headers, their controls and their batches agree.  Nothing else is changed,
and filling in identities again changes nothing. -/
theorem identities_identify_content (f g : File) (h : NoCollision f g) :
    (∀ e ∈ f.identify.entries ++ g.identify.entries,
      ∀ e' ∈ f.identify.entries ++ g.identify.entries,
        e.id = e'.id ↔ e.withoutId = e'.withoutId) ∧
    (∀ b ∈ f.identify.batches ++ g.identify.batches,
      ∀ b' ∈ f.identify.batches ++ g.identify.batches,
        b.id = b'.id ↔ b.header = b'.header ∧ b.control = b'.control ∧
          b.entries.map Entry.withoutId = b'.entries.map Entry.withoutId) ∧
    f.identify.id.isSome = f.hasValidHeader ∧
    (f.identify.id.isSome = true → g.identify.id.isSome = true →
      (f.identify.id = g.identify.id ↔ f.header = g.header ∧ f.control = g.control ∧
        f.batches.map Batch.withoutIds = g.batches.map Batch.withoutIds)) ∧
    f.identify.withoutIds = f.withoutIds ∧
    f.identify.identify = f.identify := by
  have hpresent : ∀ x : File, x.identify.id.isSome = x.hasValidHeader := by
    intro x
    rw [File.identify, File.identity?_eq]
    cases x.hasValidHeader <;> rfl
  refine ⟨?_, ?_, hpresent f, fun hf hg => ?_, f.withoutIds_identify, f.identify_identify⟩
  · rw [File.entries_identify, File.entries_identify, ← List.map_append]
    -- an identified entry has the identity of the entry that it was
    intro e he e' he'
    obtain ⟨x, hx, rfl⟩ := List.mem_map.mp he
    obtain ⟨y, hy, rfl⟩ := List.mem_map.mp he'
    exact Option.some_inj.trans (Entry.identity_eq_iff h.entries hx hy)
  · rw [File.identify, File.identify, ← List.map_append]
    intro b hb b' hb'
    obtain ⟨x, hx, rfl⟩ := List.mem_map.mp hb
    obtain ⟨y, hy, rfl⟩ := List.mem_map.mp hb'
    have hentries := h.entries
    rw [File.entries, File.entries, ← List.flatMap_append] at hentries
    rw [← Batch.withoutIds_eq_iff, x.withoutIds_identify, y.withoutIds_identify]
    exact Option.some_inj.trans (Batch.identity_eq_iff hentries h.batches hx hy)
  · rw [hpresent] at hf hg
    exact File.identity?_eq_iff h hf hg

/-- A file with two payments of different amounts. -/
def twoPayments : File :=
  File.rebuildControls { File.new sampleFileHeader with
    batches := [{
      header := sampleBatchHeader
      entries := [sampleEntry, { sampleEntry with amount := 99999 }] }] }

/-- The same file, in which an identity was filled in before. -/
def twoPaymentsBefore : File :=
  { twoPayments with id := some "before" }

/-- The identity that was there does not count, and the payments are told apart. -/
theorem identities_identify_content_twoPayments :
    NoCollision twoPayments twoPaymentsBefore ∧
      twoPayments.identify.id = twoPaymentsBefore.identify.id ∧
      ∃ e ∈ twoPayments.identify.entries, ∃ e' ∈ twoPayments.identify.entries, e.id ≠ e'.id := by
  have hdigests : ((twoPayments.entries.map Entry.serialized).map Digest.sha256).Nodup := by
    decide +kernel
  have h : NoCollision twoPayments twoPaymentsBefore := by
    constructor
    · -- both files hold the same records, so no others are compared
      refine (Digest.collisionFree_of_nodup hdigests).mono fun m hm => ?_
      rw [List.map_append, List.mem_append] at hm
      exact hm.elim id id
    · have hbatch : CollisionFree (twoPayments.batches.map Batch.serialized) :=
        Digest.collisionFree_of_nodup (List.nodup_singleton _)
      refine hbatch.mono fun m hm => ?_
      rw [List.map_append, List.mem_append] at hm
      exact hm.elim id id
    · have hfile : CollisionFree [twoPayments.serialized] :=
        Digest.collisionFree_of_nodup (List.nodup_singleton _)
      refine hfile.mono fun m hm => ?_
      rcases List.mem_cons.mp hm with rfl | hm
      · exact List.mem_cons_self
      · exact hm
  obtain ⟨hentries, -, -, hfiles, -, -⟩ := identities_identify_content _ _ h
  have hfirst : sampleEntry.identify ∈ twoPayments.identify.entries := by
    rw [File.entries_identify]
    exact List.mem_cons_self
  have hsecond :
      Entry.identify { sampleEntry with amount := 99999 } ∈ twoPayments.identify.entries := by
    rw [File.entries_identify]
    exact List.mem_cons_of_mem _ List.mem_cons_self
  refine ⟨h, (hfiles rfl rfl).mpr ⟨rfl, rfl, rfl⟩, _, hfirst, _, hsecond, fun heq => ?_⟩
  have hsame := (hentries _ (List.mem_append_left _ hfirst) _
    (List.mem_append_left _ hsecond)).mp heq
  exact absurd (congrArg Entry.amount hsame) (by decide)

end AchCourier.Ach
