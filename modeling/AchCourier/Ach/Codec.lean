import AchCourier.Ach.File
import AchCourier.Json.Decode

/-!
# ACH files as JSON

Every record has a JSON form with one member per field, in the order of the record.  Identities are
never part of it, and addenda are left out where an entry has none.  Decoding is strict: every field
must be there, addenda apart, and a decoded file has no identity and no valid header.

## Main definitions

* `toJson`, `ofJson?` in the namespace of each type.
-/

namespace AchCourier.Ach

open Json (nat required withDefault fields? string? natural? list? optional?)

/-! ### Headers and controls -/

/-- The JSON form of a file header. -/
def FileHeader.toJson (h : FileHeader) : Json :=
  .obj [
    ("priority_code", .str h.priorityCode),
    ("immediate_destination", .str h.immediateDestination),
    ("immediate_origin", .str h.immediateOrigin),
    ("file_creation_date", .str h.fileCreationDate),
    ("file_creation_time", .str h.fileCreationTime),
    ("file_id_modifier", .str h.fileIdModifier),
    ("immediate_destination_name", .str h.immediateDestinationName),
    ("immediate_origin_name", .str h.immediateOriginName),
    ("reference_code", .str h.referenceCode)]

/-- The file header that a JSON value encodes. -/
def FileHeader.ofJson? (v : Json) : Option FileHeader := do
  match ← fields? ["priority_code", "immediate_destination", "immediate_origin",
      "file_creation_date", "file_creation_time", "file_id_modifier",
      "immediate_destination_name", "immediate_origin_name", "reference_code"] v with
  | [a, b, c, d, e, f, g, h, i] =>
      some {
        priorityCode := ← required string? a
        immediateDestination := ← required string? b
        immediateOrigin := ← required string? c
        fileCreationDate := ← required string? d
        fileCreationTime := ← required string? e
        fileIdModifier := ← required string? f
        immediateDestinationName := ← required string? g
        immediateOriginName := ← required string? h
        referenceCode := ← required string? i }
  | _ => none

/-- The JSON form of a batch header. -/
def BatchHeader.toJson (h : BatchHeader) : Json :=
  .obj [
    ("service_class_code", nat h.serviceClassCode),
    ("company_name", .str h.companyName),
    ("company_discretionary_data", .str h.companyDiscretionaryData),
    ("company_identification", .str h.companyIdentification),
    ("standard_entry_class_code", .str h.standardEntryClassCode),
    ("company_entry_description", .str h.companyEntryDescription),
    ("company_descriptive_date", .str h.companyDescriptiveDate),
    ("effective_entry_date", .str h.effectiveEntryDate),
    ("settlement_date", .str h.settlementDate),
    ("originator_status_code", .str h.originatorStatusCode),
    ("odfi_identification", .str h.odfiIdentification),
    ("batch_number", nat h.batchNumber)]

/-- The batch header that a JSON value encodes. -/
def BatchHeader.ofJson? (v : Json) : Option BatchHeader := do
  match ← fields? ["service_class_code", "company_name", "company_discretionary_data",
      "company_identification", "standard_entry_class_code", "company_entry_description",
      "company_descriptive_date", "effective_entry_date", "settlement_date",
      "originator_status_code", "odfi_identification", "batch_number"] v with
  | [a, b, c, d, e, f, g, h, i, j, k, l] =>
      some {
        serviceClassCode := ← required (natural? 16) a
        companyName := ← required string? b
        companyDiscretionaryData := ← required string? c
        companyIdentification := ← required string? d
        standardEntryClassCode := ← required string? e
        companyEntryDescription := ← required string? f
        companyDescriptiveDate := ← required string? g
        effectiveEntryDate := ← required string? h
        settlementDate := ← required string? i
        originatorStatusCode := ← required string? j
        odfiIdentification := ← required string? k
        batchNumber := ← required (natural? 32) l }
  | _ => none

/-- The JSON form of a batch control. -/
def BatchControl.toJson (c : BatchControl) : Json :=
  .obj [
    ("service_class_code", nat c.serviceClassCode),
    ("entry_addenda_count", nat c.entryAddendaCount),
    ("entry_hash", nat c.entryHash),
    ("total_debit", nat c.totalDebit),
    ("total_credit", nat c.totalCredit),
    ("company_identification", .str c.companyIdentification),
    ("message_authentication_code", .str c.messageAuthenticationCode),
    ("odfi_identification", .str c.odfiIdentification),
    ("batch_number", nat c.batchNumber)]

/-- The batch control that a JSON value encodes. -/
def BatchControl.ofJson? (v : Json) : Option BatchControl := do
  match ← fields? ["service_class_code", "entry_addenda_count", "entry_hash", "total_debit",
      "total_credit", "company_identification", "message_authentication_code",
      "odfi_identification", "batch_number"] v with
  | [a, b, c, d, e, f, g, h, i] =>
      some {
        serviceClassCode := ← required (natural? 16) a
        entryAddendaCount := ← required (natural? 32) b
        entryHash := ← required (natural? 64) c
        totalDebit := ← required (natural? 64) d
        totalCredit := ← required (natural? 64) e
        companyIdentification := ← required string? f
        messageAuthenticationCode := ← required string? g
        odfiIdentification := ← required string? h
        batchNumber := ← required (natural? 32) i }
  | _ => none

/-- The JSON form of a file control. -/
def FileControl.toJson (c : FileControl) : Json :=
  .obj [
    ("batch_count", nat c.batchCount),
    ("block_count", nat c.blockCount),
    ("entry_addenda_count", nat c.entryAddendaCount),
    ("entry_hash", nat c.entryHash),
    ("total_debit", nat c.totalDebit),
    ("total_credit", nat c.totalCredit)]

/-- The file control that a JSON value encodes. -/
def FileControl.ofJson? (v : Json) : Option FileControl := do
  match ← fields? ["batch_count", "block_count", "entry_addenda_count", "entry_hash",
      "total_debit", "total_credit"] v with
  | [a, b, c, d, e, f] =>
      some {
        batchCount := ← required (natural? 32) a
        blockCount := ← required (natural? 32) b
        entryAddendaCount := ← required (natural? 32) c
        entryHash := ← required (natural? 64) d
        totalDebit := ← required (natural? 64) e
        totalCredit := ← required (natural? 64) f }
  | _ => none

/-! ### Addenda and entries -/

/-- The JSON form of remittance information. -/
def Remittance.toJson (a : Remittance) : Json :=
  .obj [
    ("payment_related_information", .str a.paymentRelatedInformation),
    ("sequence_number", nat a.sequenceNumber),
    ("entry_detail_sequence_number", .str a.entryDetailSequenceNumber)]

/-- The remittance information that a JSON value encodes. -/
def Remittance.ofJson? (v : Json) : Option Remittance := do
  match ← fields? ["payment_related_information", "sequence_number",
      "entry_detail_sequence_number"] v with
  | [a, b, c] =>
      some {
        paymentRelatedInformation := ← required string? a
        sequenceNumber := ← required (natural? 32) b
        entryDetailSequenceNumber := ← required string? c }
  | _ => none

/-- The JSON form of a notification of change. -/
def ChangeNotice.toJson (a : ChangeNotice) : Json :=
  .obj [
    ("change_code", .str a.changeCode),
    ("original_trace", .str a.sentTrace),
    ("original_dfi", .str a.sentDfi),
    ("corrected_data", .str a.correctedData),
    ("trace_number", .str a.traceNumber)]

/-- The notification of change that a JSON value encodes. -/
def ChangeNotice.ofJson? (v : Json) : Option ChangeNotice := do
  match ← fields? ["change_code", "original_trace", "original_dfi", "corrected_data",
      "trace_number"] v with
  | [a, b, c, d, e] =>
      some {
        changeCode := ← required string? a
        sentTrace := ← required string? b
        sentDfi := ← required string? c
        correctedData := ← required string? d
        traceNumber := ← required string? e }
  | _ => none

/-- The JSON form of a return. -/
def ReturnNotice.toJson (a : ReturnNotice) : Json :=
  .obj [
    ("return_code", .str a.returnCode),
    ("original_trace", .str a.sentTrace),
    ("date_of_death", .str a.dateOfDeath),
    ("original_dfi", .str a.sentDfi),
    ("addenda_information", .str a.addendaInformation),
    ("trace_number", .str a.traceNumber)]

/-- The return that a JSON value encodes. -/
def ReturnNotice.ofJson? (v : Json) : Option ReturnNotice := do
  match ← fields? ["return_code", "original_trace", "date_of_death", "original_dfi",
      "addenda_information", "trace_number"] v with
  | [a, b, c, d, e, f] =>
      some {
        returnCode := ← required string? a
        sentTrace := ← required string? b
        dateOfDeath := ← required string? c
        sentDfi := ← required string? d
        addendaInformation := ← required string? e
        traceNumber := ← required string? f }
  | _ => none

/-- A member that is left out when there is nothing to say. -/
def optionalMember {α : Type} (name : String) (f : α → Json) : Option α → List (String × Json)
  | none => []
  | some a => [(name, f a)]

/-- The JSON form of an entry. -/
def Entry.toJson (e : Entry) : Json :=
  .obj ([
    ("transaction_code", nat e.transactionCode),
    ("rdfi_identification", .str e.rdfiIdentification),
    ("check_digit", .str e.checkDigit),
    ("dfi_account_number", .str e.dfiAccountNumber),
    ("amount", nat e.amount),
    ("identification_number", .str e.identificationNumber),
    ("individual_name", .str e.individualName),
    ("discretionary_data", .str e.discretionaryData),
    ("addenda_record_indicator", nat e.addendaRecordIndicator),
    ("trace_number", .str e.traceNumber)] ++
    (if e.remittances.isEmpty then []
      else [("addenda05", .arr (e.remittances.map Remittance.toJson))]) ++
    optionalMember "addenda98" ChangeNotice.toJson e.changeNotice ++
    optionalMember "addenda99" ReturnNotice.toJson e.returnNotice)

/-- The entry that a JSON value encodes. -/
def Entry.ofJson? (v : Json) : Option Entry := do
  match ← fields? ["transaction_code", "rdfi_identification", "check_digit",
      "dfi_account_number", "amount", "identification_number", "individual_name",
      "discretionary_data", "addenda_record_indicator", "trace_number", "addenda05", "addenda98",
      "addenda99"] v with
  | [a, b, c, d, e, f, g, h, i, j, k, l, m] =>
      some {
        transactionCode := ← required (natural? 8) a
        rdfiIdentification := ← required string? b
        checkDigit := ← required string? c
        dfiAccountNumber := ← required string? d
        amount := ← required (natural? 64) e
        identificationNumber := ← required string? f
        individualName := ← required string? g
        discretionaryData := ← required string? h
        addendaRecordIndicator := ← required (natural? 8) i
        traceNumber := ← required string? j
        remittances := ← withDefault [] (list? Remittance.ofJson?) k
        changeNotice := ← withDefault none (optional? ChangeNotice.ofJson?) l
        returnNotice := ← withDefault none (optional? ReturnNotice.ofJson?) m }
  | _ => none

/-! ### Batches and files -/

/-- The JSON form of a batch. -/
def Batch.toJson (b : Batch) : Json :=
  .obj [
    ("header", b.header.toJson),
    ("entries", .arr (b.entries.map Entry.toJson)),
    ("control", b.control.toJson)]

/-- The batch that a JSON value encodes. -/
def Batch.ofJson? (v : Json) : Option Batch := do
  match ← fields? ["header", "entries", "control"] v with
  | [a, b, c] =>
      some {
        header := ← required BatchHeader.ofJson? a
        entries := ← required (list? Entry.ofJson?) b
        control := ← required BatchControl.ofJson? c }
  | _ => none

/-- The JSON form of a file. -/
def File.toJson (f : File) : Json :=
  .obj [
    ("header", f.header.toJson),
    ("batches", .arr (f.batches.map Batch.toJson)),
    ("control", f.control.toJson)]

/-- The file that a JSON value encodes. -/
def File.ofJson? (v : Json) : Option File := do
  match ← fields? ["header", "batches", "control"] v with
  | [a, b, c] =>
      some {
        header := ← required FileHeader.ofJson? a
        batches := ← required (list? Batch.ofJson?) b
        control := ← required FileControl.ofJson? c }
  | _ => none

end AchCourier.Ach
