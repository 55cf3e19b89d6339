import AchCourier.Ach.Codec
import AchCourier.Digest.Sha256
import AchCourier.Json.Writer

/-!
# Content identities

Entries, batches and files are identified by what they say and not by where they came from: the
identity is the hexadecimal SHA-256 digest of the compact JSON form.  A batch stands for its entries
by their identities, and a file for its batches by theirs, so identities form a tree of digests.
The identity fields themselves never count, and only a file with a valid header has an identity.

## Main definitions

* `identityOf` — the identity of a JSON value.
* `Entry.identity`, `Batch.identity`, `File.identity?` — the identities of the parts of a file.
* `File.identify` — the file with all identities filled in.
-/

namespace AchCourier.Ach

/-- The digest of the compact text of a value. -/
def identityOf (v : Json) : String :=
  Digest.fingerprint (Utf8.encode v.compact)

/-- The identity of an entry. -/
def Entry.identity (e : Entry) : String :=
  identityOf e.toJson

/-- The identity of a batch. -/
def Batch.identity (b : Batch) : String :=
  identityOf (.obj [
    ("header", b.header.toJson),
    ("entries", .strs (b.entries.map Entry.identity)),
    ("control", b.control.toJson)])

/-- The identity of a file with a valid header. -/
def File.identity? (f : File) : Option String :=
  if f.hasValidHeader then
    some (identityOf (.obj [
      ("header", f.header.toJson),
      ("batches", .strs (f.batches.map Batch.identity)),
      ("control", f.control.toJson)]))
  else none

/-- The entry with its identity filled in. -/
def Entry.identify (e : Entry) : Entry :=
  { e with id := some e.identity }

/-- The batch with all identities filled in. -/
def Batch.identify (b : Batch) : Batch :=
  { b with id := some b.identity, entries := b.entries.map Entry.identify }

/-- The file with all identities filled in. -/
def File.identify (f : File) : File :=
  { f with id := f.identity?, batches := f.batches.map Batch.identify }

/-- An identity that is filled in already does not count. -/
theorem Entry.identity_identify (e : Entry) : e.identify.identity = e.identity := rfl

end AchCourier.Ach
