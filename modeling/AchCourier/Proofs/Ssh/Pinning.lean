import AchCourier.Proofs.Ssh.PublicKeys
import AchCourier.Proofs.Text.Trim
import AchCourier.Ssh.HostKey

/-!
# Pinned keys

A line pins the key that its base64 spells, but the key of a host is compared with it as a text: the
bytes of the host's key are written in base64, and that must be what the line says.  So a line that
spells its key in the canonical way lets that key pass and no other one, and a line that spells it
in another way lets no key pass, although it is taken when the settings are read.  Such a line may
have bytes behind the key, or another name of RSA.

## Main results

* `PinnedKey.parse_eq_ok_iff`, `PinnedKey.ofWords_eq_some_iff` — the lines that are taken.
* `PinnedKey.accepts_iff` — a key passes if it is the pinned one, in its canonical spelling.
* `PinnedKey.accepts_pinned_iff` — so the pinned key itself passes only in that spelling.
* `PinnedKey.parse_text`, `PinnedKey.parse_line` — each key is pinned by its text, with or without a
  type and a comment.
* `checkHostKey_of_parse` — **which keys a line lets pass.**
-/

namespace AchCourier.Ssh

namespace PinnedKey

/-! ### Lines -/

/-- A line is taken if its first word but one, or its only word, spells a key. -/
theorem parse_eq_ok_iff {line : String} {p : PinnedKey} :
    parse line = .ok p ↔
      ofWords (Text.words line.toList) = some p ∧ ∃ pinned, p.key? = some pinned := by
  rw [parse]
  cases ofWords (Text.words line.toList) with
  | none => simp
  | some q =>
    dsimp only
    -- a line whose words fit is refused if its text spells no key
    cases hq : q.key? with
    | none =>
      constructor
      · intro h
        cases h
      · rintro ⟨⟨⟩, pinned, hpinned⟩
        rw [hq] at hpinned
        cases hpinned
    | some pinned =>
      constructor
      · rintro ⟨⟩
        exact ⟨rfl, pinned, hq⟩
      · rintro ⟨⟨⟩, -⟩
        rfl

/-- Where the base64 of a line stands. -/
theorem ofWords_eq_some_iff {words : List (List Char)} {p : PinnedKey} :
    ofWords words = some p ↔
      (p.keyType = none ∧ words = [p.keyData.toList]) ∨
        ∃ kind comment, p.keyType = some (String.ofList kind) ∧
          words = kind :: p.keyData.toList :: comment := by
  constructor
  · intro h
    match words, h with
    | [data], h =>
      obtain rfl := Option.some.inj h
      exact Or.inl ⟨rfl, by simp⟩
    | kind :: data :: comment, h =>
      obtain rfl := Option.some.inj h
      exact Or.inr ⟨kind, comment, rfl, by simp⟩
  · obtain ⟨keyType, keyData⟩ := p
    rintro (⟨rfl, rfl⟩ | ⟨kind, comment, rfl, rfl⟩)
    · simp [ofWords]
    · simp [ofWords]

/-! ### Which keys pass -/

section
variable {p : PinnedKey} {pinned : PublicKey} (hpinned : p.key? = some pinned)
include hpinned

/-- **A key passes if it is the pinned one, in its canonical spelling.** -/
theorem accepts_iff {key : PublicKey} (hkey : key.OnWire) :
    p.accepts key = true ↔ key = pinned ∧ p.keyData = pinned.text := by
  rw [accepts, decide_eq_true_eq]
  constructor
  · intro h
    -- the text of the key spells the key, so the line does
    have hspelled : PublicKey.ofBase64? p.keyData.toList = some key := by
      rw [← h]
      exact PublicKey.ofBase64?_text hkey
    obtain rfl : key = pinned := Option.some.inj (hspelled.symm.trans hpinned)
    exact ⟨rfl, h.symm⟩
  · rintro ⟨rfl, h⟩
    exact h.symm

/-- A line lets the pinned key pass if and only if it spells it in the canonical way. -/
theorem accepts_pinned_iff : p.accepts pinned = true ↔ p.keyData = pinned.text := by
  rw [accepts_iff hpinned (PublicKey.onWire_of_ofBase64? hpinned), and_iff_right rfl]

theorem checkHostKey_eq {key : PublicKey} (hkey : key.OnWire) (hostname : String) :
    checkHostKey hostname (some p) key =
      if key = pinned ∧ p.keyData = pinned.text then .ok ()
      else .error ⟨hostname, pinned.fingerprint, key.fingerprint⟩ := by
  simp only [checkHostKey, hpinned, accepts_iff hpinned hkey]

end

/-! ### Lines that pin a key -/

section
variable {key : PublicKey} (hkey : key.OnWire)
include hkey

/-- A key is pinned by its text alone. -/
theorem parse_text : parse key.text = .ok ⟨none, key.text⟩ := by
  obtain ⟨hne, hword⟩ := key.text_word
  have hwords : Text.words key.text.toList = [key.text.toList] :=
    Text.words_eq_singleton hword hne
  exact parse_eq_ok_iff.mpr
    ⟨ofWords_eq_some_iff.mpr (Or.inl ⟨rfl, hwords⟩), key, PublicKey.ofBase64?_text hkey⟩

/-- A key is pinned by its text behind a type and in front of a comment. -/
theorem parse_line {kind : List Char} (hne : kind ≠ [])
    (hkind : ∀ c ∈ kind, Text.isBlank c = false) (comment : List Char) :
    parse (String.ofList (kind ++ ' ' :: (key.text.toList ++ ' ' :: comment))) =
      .ok ⟨some (String.ofList kind), key.text⟩ := by
  obtain ⟨hnonempty, hword⟩ := key.text_word
  have hblank : Text.isBlank ' ' = true := by decide
  have hwords : Text.words (kind ++ ' ' :: (key.text.toList ++ ' ' :: comment)) =
      kind :: key.text.toList :: Text.words comment := by
    rw [Text.words_append_cons hkind hne hblank, Text.words_append_cons hword hnonempty hblank]
  rw [parse_eq_ok_iff, String.toList_ofList]
  exact ⟨ofWords_eq_some_iff.mpr (Or.inr ⟨kind, _, rfl, hwords⟩), key,
    PublicKey.ofBase64?_text hkey⟩

end

end PinnedKey

/-- **Which keys a line lets pass.**  A line that is taken spells a key, behind a type or alone.  If
the spelling is canonical, then that key passes and no other one; if it is not, no key passes.  In
both cases a refusal reports the fingerprints of the two keys.  Without a line every key passes. -/
theorem checkHostKey_of_parse {line : String} {p : PinnedKey}
    (hparse : PinnedKey.parse line = .ok p) :
    ((p.keyType = none ∧ Text.words line.toList = [p.keyData.toList]) ∨
      ∃ kind comment, p.keyType = some (String.ofList kind) ∧
        Text.words line.toList = kind :: p.keyData.toList :: comment) ∧
    (∃ pinned, PublicKey.ofBase64? p.keyData.toList = some pinned ∧
      ∀ hostname key, key.OnWire →
        checkHostKey hostname (some p) key =
          if key = pinned ∧ p.keyData = pinned.text then .ok ()
          else .error ⟨hostname, pinned.fingerprint, key.fingerprint⟩) ∧
    ∀ hostname key, checkHostKey hostname none key = .ok () := by
  obtain ⟨hwords, pinned, hpinned⟩ := PinnedKey.parse_eq_ok_iff.mp hparse
  refine ⟨PinnedKey.ofWords_eq_some_iff.mp hwords, ⟨pinned, hpinned, ?_⟩, ?_⟩
  · intro hostname key hkey
    exact PinnedKey.checkHostKey_eq hpinned hkey hostname
  · intro hostname key
    rfl

/-- The canonical text of an Ed25519 key. -/
def sampleText : String :=
  "AAAAC3NzaC1lZDI1NTE5AAAAIDPfODzq2QKQQLsTXDqiKLQpE2iXqme3w+wDh+qXAaPU"

/-- Three bytes behind the key: the line is taken, and the very key that it spells is refused. -/
theorem checkHostKey_of_parse_trailingBytes :
    ∃ p key, PinnedKey.parse ("ssh-ed25519 " ++ sampleText ++ "AAAA") = .ok p ∧
      PublicKey.ofBase64? sampleText.toList = some key ∧ p.key? = some key ∧
      checkHostKey "sftp.bank.example:22" (some p) key =
        .error ⟨"sftp.bank.example:22", key.fingerprint, key.fingerprint⟩ := by
  have hsample : (PublicKey.ofBase64? sampleText.toList).map PublicKey.text = some sampleText := by
    decide +kernel
  have hlonger : PublicKey.ofBase64? (sampleText ++ "AAAA").toList =
      PublicKey.ofBase64? sampleText.toList := by
    decide +kernel
  have hwords : PinnedKey.ofWords (Text.words ("ssh-ed25519 " ++ sampleText ++ "AAAA").toList) =
      some ⟨some "ssh-ed25519", sampleText ++ "AAAA"⟩ := by
    decide +kernel
  obtain ⟨key, hkey, htext⟩ := Option.map_eq_some_iff.mp hsample
  rw [hkey] at hlonger
  have hparse := PinnedKey.parse_eq_ok_iff.mpr ⟨hwords, key, hlonger⟩
  -- the pinned text spells the key as well, but it is not the text of the key
  obtain ⟨-, ⟨pinned, hpinned, hcheck⟩, -⟩ := checkHostKey_of_parse hparse
  obtain rfl : key = pinned := Option.some.inj (hlonger.symm.trans hpinned)
  refine ⟨_, key, hparse, hkey, hlonger, ?_⟩
  have hother : sampleText ++ "AAAA" ≠ key.text := by
    rw [htext]
    decide +kernel
  rw [hcheck _ key (PublicKey.onWire_of_ofBase64? hkey), if_neg fun h => hother h.2]

end AchCourier.Ssh
