import AchCourier.Digest.Sha256
import AchCourier.Proofs.Json.Tokens
import Mathlib.Data.List.Nodup

/-!
# Texts and their fingerprints

No two texts have the same bytes, and no two byte strings have the same hexadecimal text.  So texts
with the same fingerprint are the same, unless they are a collision of the hash function.

## Main definitions

* `CollisionFree` — no two of the messages have the same digest.

## Main results

* `Utf8.encode_injective`, `hex_injective` — bytes and digits tell what they were made from.
* `CollisionFree.fingerprint_eq_iff` — **fingerprints tell messages apart.**
* `collisionFree_of_nodup` — messages with different digests.
-/

namespace AchCourier

/-- **No two texts have the same bytes.** -/
theorem Utf8.encode_injective {cs ds : List Char} (h : Utf8.encode cs = Utf8.encode ds) :
    cs = ds := by
  have hbytes : cs.utf8Encode = ds.utf8Encode := congrArg List.toByteArray h
  rw [← String.toByteArray_ofList, ← String.toByteArray_ofList, String.toByteArray_inj] at hbytes
  exact String.ofList_injective hbytes

namespace Digest

theorem hexDigit_injective {m n : ℕ} (h : hexDigit m = hexDigit n) : m % 16 = n % 16 := by
  have hvalue := congrArg Text.digitValue? h
  rw [hexDigit, hexDigit, Json.digitValue?_digitChar (Nat.mod_lt _ (by decide)),
    Json.digitValue?_digitChar (Nat.mod_lt _ (by decide))] at hvalue
  exact Option.some.inj hvalue

/-- **No two byte strings have the same hexadecimal text.** -/
theorem hex_injective {bs cs : Bytes} (h : hex bs = hex cs) : bs = cs := by
  replace h := String.ofList_injective h
  induction bs generalizing cs with
  | nil =>
    cases cs with
    | nil => rfl
    | cons c cs => cases h
  | cons b bs ih =>
    cases cs with
    | nil => cases h
    | cons c cs =>
      simp only [List.flatMap_cons, List.cons_append, List.nil_append, List.cons.injEq] at h
      -- two digits are the two halves of a byte
      obtain ⟨hhigh, hlow, hrest⟩ := h
      replace hhigh := hexDigit_injective hhigh
      replace hlow := hexDigit_injective hlow
      have hb := b.toNat_lt
      have hc := c.toNat_lt
      have hbyte : b = c := UInt8.toNat_inj.mp (by omega)
      rw [hbyte, ih hrest]

/-- A fingerprint is no empty text. -/
theorem fingerprint_ne_empty (message : Bytes) : fingerprint message ≠ "" := by
  intro h
  have hnil : sha256 message = [] := hex_injective h
  simp [sha256, Sha256.bytesOfWord] at hnil

/-- No two of the messages have the same digest. -/
def CollisionFree (messages : List Bytes) : Prop :=
  ∀ m ∈ messages, ∀ m' ∈ messages, sha256 m = sha256 m' → m = m'

/-- **Fingerprints tell messages apart.** -/
theorem CollisionFree.fingerprint_eq_iff {messages : List Bytes} (h : CollisionFree messages)
    {m m' : Bytes} (hm : m ∈ messages) (hm' : m' ∈ messages) :
    fingerprint m = fingerprint m' ↔ m = m' :=
  ⟨fun heq => h m hm m' hm' (hex_injective heq), fun heq => by rw [heq]⟩

theorem CollisionFree.mono {messages others : List Bytes} (h : CollisionFree messages)
    (hsub : others ⊆ messages) : CollisionFree others :=
  fun m hm m' hm' => h m (hsub hm) m' (hsub hm')

/-- Messages with different digests are no collision. -/
theorem collisionFree_of_nodup {messages : List Bytes} (h : (messages.map sha256).Nodup) :
    CollisionFree messages :=
  fun _ hm _ hm' heq => List.inj_on_of_nodup_map h hm hm' heq

end Digest

end AchCourier
