import AchCourier.Proofs.Ach.Identities
import AchCourier.Proofs.Json.Records

/-!
# The JSON form of a file

The JSON form of a file has a member for every field but the identities and the mark of a valid
header.  Addenda that an entry does not have are left out and have an absence as their default, any
text can be quoted, and a number is decoded if it has the bits of its field.  So a file is found
again in the text of its JSON form, as if its identities had never been filled in; and since
identities do not count towards identities, those of its entries and batches can be filled in again.

## Main definitions

* `Bounded` in the namespace of each record — its numbers have at most the bits of their fields.
* `File.jsonText`, `File.ofJsonText?` — the text of a file, and the file that a text spells.

## Main results

* `ofJson?_toJson` in the namespace of each record — records are decoded from their JSON forms.
* `File.ofJsonText?_of_spells` — a file is read from any text of its JSON form.
* `File.ofJsonText?_jsonText` — **the JSON form of a file loses nothing but identity.**
-/

namespace AchCourier.Ach

open Json

/-! ### Bits -/

/-- The numbers of a batch header have at most the bits of their fields. -/
@[mk_iff]
structure BatchHeader.Bounded (h : BatchHeader) : Prop where
  serviceClassCode : h.serviceClassCode < UInt16.size
  batchNumber : h.batchNumber < UInt32.size

instance (h : BatchHeader) : Decidable h.Bounded :=
  decidable_of_iff _ (BatchHeader.bounded_iff h).symm

/-- The numbers of a batch control have at most the bits of their fields. -/
@[mk_iff]
structure BatchControl.Bounded (c : BatchControl) : Prop where
  serviceClassCode : c.serviceClassCode < UInt16.size
  entryAddendaCount : c.entryAddendaCount < UInt32.size
  entryHash : c.entryHash < UInt64.size
  totalDebit : c.totalDebit < UInt64.size
  totalCredit : c.totalCredit < UInt64.size
  batchNumber : c.batchNumber < UInt32.size

instance (c : BatchControl) : Decidable c.Bounded :=
  decidable_of_iff _ (BatchControl.bounded_iff c).symm

/-- The numbers of a file control have at most the bits of their fields. -/
@[mk_iff]
structure FileControl.Bounded (c : FileControl) : Prop where
  batchCount : c.batchCount < UInt32.size
  blockCount : c.blockCount < UInt32.size
  entryAddendaCount : c.entryAddendaCount < UInt32.size
  entryHash : c.entryHash < UInt64.size
  totalDebit : c.totalDebit < UInt64.size
  totalCredit : c.totalCredit < UInt64.size

instance (c : FileControl) : Decidable c.Bounded :=
  decidable_of_iff _ (FileControl.bounded_iff c).symm

/-- The numbers of an entry and of its addenda have at most the bits of their fields. -/
@[mk_iff]
structure Entry.Bounded (e : Entry) : Prop where
  transactionCode : e.transactionCode < UInt8.size
  amount : e.amount < UInt64.size
  addendaRecordIndicator : e.addendaRecordIndicator < UInt8.size
  sequenceNumber : ∀ a ∈ e.remittances, a.sequenceNumber < UInt32.size

instance (e : Entry) : Decidable e.Bounded :=
  decidable_of_iff _ (Entry.bounded_iff e).symm

/-- The numbers of a batch have at most the bits of their fields. -/
@[mk_iff]
structure Batch.Bounded (b : Batch) : Prop where
  header : b.header.Bounded
  entries : ∀ e ∈ b.entries, e.Bounded
  control : b.control.Bounded

instance (b : Batch) : Decidable b.Bounded :=
  decidable_of_iff _ (Batch.bounded_iff b).symm

/-- The numbers of a file have at most the bits of their fields. -/
@[mk_iff]
structure File.Bounded (f : File) : Prop where
  batches : ∀ b ∈ f.batches, b.Bounded
  control : f.control.Bounded

instance (f : File) : Decidable f.Bounded :=
  decidable_of_iff _ (File.bounded_iff f).symm

/-! ### Decoding -/

theorem FileHeader.ofJson?_toJson (h : FileHeader) : ofJson? h.toJson = some h := by
  simp [ofJson?, toJson, fields?, field?, required, string?]

theorem BatchHeader.ofJson?_toJson {h : BatchHeader} (hb : h.Bounded) :
    ofJson? h.toJson = some h := by
  simp [ofJson?, toJson, fields?, field?, required, string?, natural?_nat 16 hb.serviceClassCode,
    natural?_nat 32 hb.batchNumber]

theorem BatchControl.ofJson?_toJson {c : BatchControl} (hc : c.Bounded) :
    ofJson? c.toJson = some c := by
  simp [ofJson?, toJson, fields?, field?, required, string?, natural?_nat 16 hc.serviceClassCode,
    natural?_nat 32 hc.entryAddendaCount, natural?_nat 64 hc.entryHash,
    natural?_nat 64 hc.totalDebit, natural?_nat 64 hc.totalCredit,
    natural?_nat 32 hc.batchNumber]

theorem FileControl.ofJson?_toJson {c : FileControl} (hc : c.Bounded) :
    ofJson? c.toJson = some c := by
  simp [ofJson?, toJson, fields?, field?, required, natural?_nat 32 hc.batchCount,
    natural?_nat 32 hc.blockCount, natural?_nat 32 hc.entryAddendaCount,
    natural?_nat 64 hc.entryHash, natural?_nat 64 hc.totalDebit, natural?_nat 64 hc.totalCredit]

theorem Remittance.ofJson?_toJson {a : Remittance} (ha : a.sequenceNumber < UInt32.size) :
    ofJson? a.toJson = some a := by
  simp [ofJson?, toJson, fields?, field?, required, string?, natural?_nat 32 ha]

theorem ChangeNotice.ofJson?_toJson (a : ChangeNotice) : ofJson? a.toJson = some a := by
  simp [ofJson?, toJson, fields?, field?, required, string?]

theorem ReturnNotice.ofJson?_toJson (a : ReturnNotice) : ofJson? a.toJson = some a := by
  simp [ofJson?, toJson, fields?, field?, required, string?]

/-- A list that is left out when it is empty is empty by default. -/
theorem withDefault_remittances {as : List Remittance}
    (h : ∀ a ∈ as, a.sequenceNumber < UInt32.size) :
    withDefault [] (list? Remittance.ofJson?)
      (if as = [] then none else some (.arr (as.map Remittance.toJson))) = some as := by
  cases as with
  | nil => rfl
  | cons a as => exact list?_map_self fun a ha => Remittance.ofJson?_toJson (h a ha)

namespace Entry

/-- The fields of an entry, addenda that it does not have without a value. -/
def jsonFields (e : Entry) : List (String × Option Json) := [
  ("transaction_code", some (nat e.transactionCode)),
  ("rdfi_identification", some (.str e.rdfiIdentification)),
  ("check_digit", some (.str e.checkDigit)),
  ("dfi_account_number", some (.str e.dfiAccountNumber)),
  ("amount", some (nat e.amount)),
  ("identification_number", some (.str e.identificationNumber)),
  ("individual_name", some (.str e.individualName)),
  ("discretionary_data", some (.str e.discretionaryData)),
  ("addenda_record_indicator", some (nat e.addendaRecordIndicator)),
  ("trace_number", some (.str e.traceNumber)),
  ("addenda05",
    if e.remittances.isEmpty then none else some (.arr (e.remittances.map Remittance.toJson))),
  ("addenda98", e.changeNotice.map ChangeNotice.toJson),
  ("addenda99", e.returnNotice.map ReturnNotice.toJson)]

theorem toJson_eq_given (e : Entry) : e.toJson = .obj (given e.jsonFields) := by
  rw [toJson, jsonFields]
  cases e.remittances.isEmpty <;> cases e.changeNotice <;> cases e.returnNotice <;> rfl

theorem nodup_jsonFields (e : Entry) : (e.jsonFields.map Prod.fst).Nodup := by
  simp [jsonFields]

theorem ofJson?_toJson {e : Entry} (he : e.Bounded) : ofJson? e.toJson = some e.withoutId := by
  have hfields := fields?_given e.nodup_jsonFields
  have hchange := withDefault_optional? ChangeNotice.ofJson?_toJson (fun _ => nofun) e.changeNotice
  have hreturn := withDefault_optional? ReturnNotice.ofJson?_toJson (fun _ => nofun) e.returnNotice
  rw [← toJson_eq_given] at hfields
  simp only [jsonFields, List.map_cons, List.map_nil] at hfields
  rw [ofJson?, hfields, Option.bind_eq_bind, Option.bind_some]
  simp only [required, natural?_nat 8 he.transactionCode, natural?_nat 64 he.amount,
    natural?_nat 8 he.addendaRecordIndicator, List.isEmpty_iff,
    withDefault_remittances he.sequenceNumber, hchange, hreturn]
  rfl

end Entry

theorem Batch.ofJson?_toJson {b : Batch} (hb : b.Bounded) :
    ofJson? b.toJson = some b.withoutIds := by
  have hentries := list?_map fun e he => Entry.ofJson?_toJson (hb.entries e he)
  simp [ofJson?, toJson, fields?, field?, required, BatchHeader.ofJson?_toJson hb.header, hentries,
    BatchControl.ofJson?_toJson hb.control, withoutIds]

/-- **A file is decoded from its JSON form**, without its identities and with no valid header. -/
theorem File.ofJson?_toJson {f : File} (hf : f.Bounded) :
    ofJson? f.toJson = some { f.withoutIds with hasValidHeader := false } := by
  have hbatches := list?_map fun b hb => Batch.ofJson?_toJson (hf.batches b hb)
  simp [ofJson?, toJson, fields?, field?, required, FileHeader.ofJson?_toJson, hbatches,
    FileControl.ofJson?_toJson hf.control, withoutIds]

/-! ### Texts -/

/-- A number of fewer bits is read as it is, like one of 64 bits. -/
theorem asRead_nat_of_lt {size n : ℕ} (h : n < size) (hsize : size ≤ UInt64.size := by decide) :
    asRead (nat n) = nat n :=
  asRead_nat (h.trans_le hsize)

theorem BatchHeader.asRead_toJson {h : BatchHeader} (hb : h.Bounded) :
    asRead h.toJson = h.toJson := by
  simp [toJson, asRead, asReadMembers, asRead_nat_of_lt hb.serviceClassCode,
    asRead_nat_of_lt hb.batchNumber]

theorem BatchControl.asRead_toJson {c : BatchControl} (hc : c.Bounded) :
    asRead c.toJson = c.toJson := by
  simp [toJson, asRead, asReadMembers, asRead_nat_of_lt hc.serviceClassCode,
    asRead_nat_of_lt hc.entryAddendaCount, asRead_nat_of_lt hc.entryHash,
    asRead_nat_of_lt hc.totalDebit, asRead_nat_of_lt hc.totalCredit,
    asRead_nat_of_lt hc.batchNumber]

theorem FileControl.asRead_toJson {c : FileControl} (hc : c.Bounded) :
    asRead c.toJson = c.toJson := by
  simp [toJson, asRead, asReadMembers, asRead_nat_of_lt hc.batchCount,
    asRead_nat_of_lt hc.blockCount, asRead_nat_of_lt hc.entryAddendaCount,
    asRead_nat_of_lt hc.entryHash, asRead_nat_of_lt hc.totalDebit,
    asRead_nat_of_lt hc.totalCredit]

theorem Remittance.asRead_toJson {a : Remittance} (ha : a.sequenceNumber < UInt32.size) :
    asRead a.toJson = a.toJson := by
  simp [toJson, asRead, asReadMembers, asRead_nat_of_lt ha]

theorem asReadMembers_optionalMember {α : Type} (name : String) {encode : α → Json}
    (h : ∀ a, asRead (encode a) = encode a) (value : Option α) :
    asReadMembers (optionalMember name encode value) = optionalMember name encode value := by
  cases value with
  | none => rfl
  | some a => rw [optionalMember, asReadMembers, h]; rfl

theorem Entry.asRead_toJson {e : Entry} (he : e.Bounded) : asRead e.toJson = e.toJson := by
  have hremittances := asReadItems_map fun a ha => Remittance.asRead_toJson (he.sequenceNumber a ha)
  have hchange := asReadMembers_optionalMember "addenda98"
    (fun a : ChangeNotice => (rfl : asRead a.toJson = a.toJson)) e.changeNotice
  have hreturn := asReadMembers_optionalMember "addenda99"
    (fun a : ReturnNotice => (rfl : asRead a.toJson = a.toJson)) e.returnNotice
  rw [toJson]
  cases e.remittances.isEmpty <;>
    simp [asRead, asReadMembers, asReadMembers_append, hremittances, hchange, hreturn,
      asRead_nat_of_lt he.transactionCode, asRead_nat_of_lt he.amount,
      asRead_nat_of_lt he.addendaRecordIndicator]

theorem Batch.asRead_toJson {b : Batch} (hb : b.Bounded) : asRead b.toJson = b.toJson := by
  have hentries := asReadItems_map fun e he => Entry.asRead_toJson (hb.entries e he)
  simp [toJson, asRead, asReadMembers, BatchHeader.asRead_toJson hb.header, hentries,
    BatchControl.asRead_toJson hb.control]

/-- **A text of the JSON form of a file spells that form.** -/
theorem File.asRead_toJson {f : File} (hf : f.Bounded) : asRead f.toJson = f.toJson := by
  have hbatches := asReadItems_map fun b hb => Batch.asRead_toJson (hf.batches b hb)
  have hheader : asRead f.header.toJson = f.header.toJson := rfl
  simp [toJson, asRead, asReadMembers, hheader, hbatches, FileControl.asRead_toJson hf.control]

theorem Batch.plain_toJson (b : Batch) : b.toJson.plain = true := by
  simp [toJson, plain, plainMembers, plainItems_map Entry.plain_toJson, BatchHeader.toJson,
    BatchControl.toJson, nat]

theorem File.plain_toJson (f : File) : f.toJson.plain = true := by
  simp [toJson, plain, plainMembers, plainItems_map Batch.plain_toJson, FileHeader.toJson,
    FileControl.toJson, nat]

namespace File

/-- The JSON text of a file. -/
def jsonText (f : File) : String :=
  String.ofList f.toJson.compact

/-- The file that a JSON text spells. -/
def ofJsonText? (text : String) : Option File :=
  (parse text).bind ofJson?

end File

/-- A file is read from any text of its JSON form, however it is laid out. -/
theorem File.ofJsonText?_of_spells {f : File} (hf : f.Bounded) {cs : List Char}
    (h : Spells f.toJson cs) :
    ofJsonText? (String.ofList cs) = some { f.withoutIds with hasValidHeader := false } := by
  rw [ofJsonText?, parse_of_spells h, asRead_toJson hf, Option.bind_some, ofJson?_toJson hf]

/-! ### Identities -/

theorem Batch.toJson_withoutIds (b : Batch) : b.withoutIds.toJson = b.toJson := by
  rw [toJson, withoutIds, List.map_map]
  rfl

theorem File.toJson_withoutIds (f : File) : f.withoutIds.toJson = f.toJson := by
  have hbatches : f.batches.map (Batch.toJson ∘ Batch.withoutIds) = f.batches.map Batch.toJson :=
    List.map_congr_left fun b _ => b.toJson_withoutIds
  rw [toJson, withoutIds, List.map_map, hbatches]
  rfl

/-- Identities that are missing can be filled in again. -/
theorem Batch.identify_withoutIds (b : Batch) : b.withoutIds.identify = b.identify := by
  have hidentity : b.withoutIds.identity = b.identity := by
    rw [identity, withoutIds, List.map_map]
    rfl
  rw [identify, hidentity, withoutIds, List.map_map]
  rfl

/-- **The JSON form of a file loses nothing but identity.**  A file whose numbers have the bits of
their fields is read from its text, without its identities and with no valid header.  That file has
the same text again; and filling in its identities gives its batches and their entries the same ones
as those of the first file, and none to the file itself. -/
theorem File.ofJsonText?_jsonText {f : File} (hf : f.Bounded) :
    ∃ g, ofJsonText? f.jsonText = some g ∧
      g = { f.withoutIds with hasValidHeader := false } ∧
      g.jsonText = f.jsonText ∧
      g.identify.batches = f.identify.batches ∧
      g.identify.id = none := by
  refine ⟨_, ofJsonText?_of_spells hf (spells_compact _ f.plain_toJson), rfl, ?_, ?_, rfl⟩
  · exact congrArg (fun v : Json => String.ofList v.compact) f.toJson_withoutIds
  · show (f.batches.map Batch.withoutIds).map Batch.identify = f.batches.map Batch.identify
    rw [List.map_map]
    exact List.map_congr_left fun b _ => b.identify_withoutIds

/-- The sample file, with identities and a valid header, and with texts that must be escaped. -/
def quotedFile : File :=
  { sampleFile with
    id := some "sample"
    header := { sampleFile.header with
      immediateOriginName := "a \"b\" \\ c"
      referenceCode := String.ofList ['\n', '\t', '\r', Char.ofNat 7, 'é'] }
    hasValidHeader := true }

theorem File.ofJsonText?_jsonText_quotedFile :
    quotedFile.Bounded ∧
      ∃ g, ofJsonText? quotedFile.jsonText = some g ∧
        g = { quotedFile.withoutIds with hasValidHeader := false } ∧
        g.jsonText = quotedFile.jsonText ∧
        g.identify.batches = quotedFile.identify.batches ∧
        g.identify.id = none :=
  ⟨by decide +kernel, ofJsonText?_jsonText (by decide +kernel)⟩

end AchCourier.Ach
