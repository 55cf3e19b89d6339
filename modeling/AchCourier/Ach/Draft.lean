import AchCourier.Ach.Codec

/-!
# Drafts

A record, a batch or a file can be given by those fields alone in which it differs from a blank
one.  The fields are laid over the JSON form of the blank record, so a draft is read as strictly as
a complete record.

## Main definitions

* `Entry.ofDraft?`, `Batch.ofDraft?`, `File.ofDraft?` — what a draft stands for.
* `lineOfDraft?` — the line of a record that is given by a draft.
-/

namespace AchCourier.Ach

/-- The members of an object. -/
def draftMembers : Json → List (String × Json)
  | .obj members => members
  | _ => []

/-- A value with the fields of a draft laid over it. -/
def laidOver (blank draft : Json) : Json :=
  .obj (Json.overlay (draftMembers blank) (draftMembers draft))

/-- The member of an object, or `null`. -/
def draftPart (draft : Json) (name : String) : Json :=
  (draft.member? name).getD .null

/-- The items of a list; none for anything else. -/
def draftItems : Json → List Json
  | .arr items => items
  | _ => []

/-- The members that a draft of an entry gives in full: its addenda, each of them a draft. -/
def addendaMembers (draft : Json) : List (String × Json) :=
  let notice (name : String) (blank : Json) :=
    ((draft.member? name).map fun part => (name, laidOver blank part)).toList
  let remittances := match draft.member? "addenda05" with
    | some (.arr items) =>
        [("addenda05", Json.arr (items.map (laidOver ({} : Remittance).toJson)))]
    | _ => []
  remittances ++ notice "addenda98" ({} : ChangeNotice).toJson ++
    notice "addenda99" ({} : ReturnNotice).toJson

/-- The members that hold addenda. -/
def addendaNames : List String :=
  ["addenda05", "addenda98", "addenda99"]

/-- The JSON form of the entry that a draft stands for. -/
def draftEntry (draft : Json) : Json :=
  let fields := (draftMembers draft).filter fun m => !addendaNames.contains m.1
  .obj (draftMembers (laidOver ({} : Entry).toJson (.obj fields)) ++ addendaMembers draft)

/-- The entry that a draft stands for. -/
def Entry.ofDraft? (draft : Json) : Option Entry :=
  Entry.ofJson? (draftEntry draft)

/-- The batch that a draft stands for. -/
def Batch.ofDraft? (draft : Json) : Option Batch := do
  some {
    header := ← BatchHeader.ofJson?
      (laidOver ({} : BatchHeader).toJson (draftPart draft "header"))
    entries := ← (draftItems (draftPart draft "entries")).mapM Entry.ofDraft?
    control := ← BatchControl.ofJson?
      (laidOver ({} : BatchControl).toJson (draftPart draft "control")) }

/-- The file that a draft stands for. -/
def File.ofDraft? (draft : Json) : Option File := do
  let header ← FileHeader.ofJson? (laidOver ({} : FileHeader).toJson (draftPart draft "header"))
  let batches ← (draftItems (draftPart draft "batches")).mapM Batch.ofDraft?
  let control ← FileControl.ofJson?
    (laidOver ({} : FileControl).toJson (draftPart draft "control"))
  some { File.new header with batches, control }

/-- The line of the record of the given kind that a draft stands for: none for an unknown kind, and
`some none` for a draft of no such record. -/
def lineOfDraft? (kind : String) (draft : Json) : Option (Option (List Char)) :=
  let line {α : Type} (blank : Json) (decode : Json → Option α) (cells : α → List Cell) :=
    some ((decode (laidOver blank draft)).map fun r => lineOf (cells r))
  match kind with
  | "file_header" => line ({} : FileHeader).toJson FileHeader.ofJson? (·.cells)
  | "batch_header" => line ({} : BatchHeader).toJson BatchHeader.ofJson? (·.cells)
  | "entry" => line ({} : Entry).toJson Entry.ofJson? (·.cells)
  | "addenda05" => line ({} : Remittance).toJson Remittance.ofJson? (·.cells)
  | "addenda98" => line ({} : ChangeNotice).toJson ChangeNotice.ofJson? (·.cells)
  | "addenda99" => line ({} : ReturnNotice).toJson ReturnNotice.ofJson? (·.cells)
  | "batch_control" => line ({} : BatchControl).toJson BatchControl.ofJson? (·.cells)
  | "file_control" => line ({} : FileControl).toJson FileControl.ofJson? (·.cells)
  | _ => none

end AchCourier.Ach
