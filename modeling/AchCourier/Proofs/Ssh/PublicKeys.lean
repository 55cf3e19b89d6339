import AchCourier.Proofs.Text.Base64
import AchCourier.Proofs.Text.Utf8
import AchCourier.Ssh.PublicKey

/-!
# Keys survive their bytes

A block is read back from behind its length, and so are the fields of a key and, in front of them,
the name of its algorithm.  The name that is written need not be the one that was read: RSA keys go
by three names, of which one is written.  A key that was read is read again from its own bytes, so
no two such keys have the same bytes.

## Main definitions

* `PublicKey.OnWire` — the keys that can be read.
* `PublicKey.text` — the canonical text of a key.

## Main results

* `readBlock_writeBlock` — a block survives.
* `readFields_flatMap_writeBlock`, `readAlgorithm_writeBlock` — the parts of a key survive.
* `PublicKey.read_blob_append`, `PublicKey.blob_injOn` — **keys survive their bytes.**
* `PublicKey.ofBase64?_text` — they survive their base64.
-/

namespace AchCourier.Ssh

/-! ### Blocks -/

theorem readWord_writeWord {n : Nat} (h : n < 0x100000000) (rest : Bytes) :
    readWord (writeWord n ++ rest) = some (n, rest) := by
  simp only [writeWord, List.cons_append, List.nil_append, readWord, Nat.toUInt8_eq,
    UInt8.toNat_ofNat']
  congr 2
  omega

theorem readBytes_append (bs rest : Bytes) :
    readBytes bs.length (bs ++ rest) = some (bs, rest) := by
  simp [readBytes]

/-- **A block survives**, unless it is too long to be read. -/
theorem readBlock_writeBlock {bs : Bytes} (h : bs.length ≤ longestBlock) (rest : Bytes) :
    readBlock (writeBlock bs ++ rest) = some (bs, rest) := by
  have hword : bs.length < 0x100000000 := lt_of_le_of_lt h (by decide)
  rw [readBlock, writeBlock, List.append_assoc, readWord_writeWord hword]
  dsimp only
  rw [if_pos h, readBytes_append]

theorem length_le_of_readBlock {bs block rest : Bytes} (h : readBlock bs = some (block, rest)) :
    block.length ≤ longestBlock := by
  rw [readBlock] at h
  split at h
  · cases h
  · next n tail hword =>
    split at h
    · next hn =>
      rw [readBytes] at h
      split at h
      · next hle =>
        obtain ⟨rfl, -⟩ := Prod.mk.inj (Option.some.inj h)
        rwa [List.length_take_of_le hle]
      · cases h
    · cases h

/-! ### Fields -/

/-- A field other than a flag is a block. -/
theorem Field.read_eq_filter {f : Field} (hf : f ≠ .flag) (bs : Bytes) :
    f.read bs = (readBlock bs).filter fun r => f.accepts r.1 := by
  cases f with
  | flag => exact absurd rfl hf
  | _ => rfl

theorem Field.read_writeBlock {f : Field} (hf : f ≠ .flag) {bs block rest : Bytes}
    (h : f.read bs = some (block, rest)) (more : Bytes) :
    f.read (writeBlock block ++ more) = some (block, more) := by
  rw [Field.read_eq_filter hf, Option.filter_eq_some_iff] at h
  rw [Field.read_eq_filter hf, readBlock_writeBlock (length_le_of_readBlock h.1),
    Option.filter_eq_some_iff]
  exact ⟨rfl, h.2⟩

theorem readFields_cons_eq_some_iff {f : Field} {fs : List Field} {bs : Bytes}
    {r : List Bytes × Bytes} :
    readFields (f :: fs) bs = some r ↔
      ∃ block tail blocks rest, f.read bs = some (block, tail) ∧
        readFields fs tail = some (blocks, rest) ∧ r = (block :: blocks, rest) := by
  simp only [readFields, Option.bind_eq_bind, Option.bind_eq_some_iff, Option.some.injEq,
    Prod.exists]
  constructor
  · rintro ⟨block, tail, hblock, blocks, rest, hblocks, rfl⟩
    exact ⟨block, tail, blocks, rest, hblock, hblocks, rfl⟩
  · rintro ⟨block, tail, blocks, rest, hblock, hblocks, rfl⟩
    exact ⟨block, tail, hblock, blocks, rest, hblocks, rfl⟩

/-- The fields of a key survive. -/
theorem readFields_flatMap_writeBlock {fs : List Field} (hfs : .flag ∉ fs) {bs rest : Bytes}
    {blocks : List Bytes} (h : readFields fs bs = some (blocks, rest)) (more : Bytes) :
    readFields fs (blocks.flatMap writeBlock ++ more) = some (blocks, more) := by
  -- by induction on the fields, each of which takes its own block
  induction fs generalizing bs blocks with
  | nil =>
    obtain ⟨rfl, -⟩ := Prod.mk.inj (Option.some.inj h)
    rfl
  | cons f fs ih =>
    obtain ⟨block, tail, blocks, _, hblock, hblocks, ⟨⟩⟩ := readFields_cons_eq_some_iff.mp h
    rw [List.mem_cons, not_or] at hfs
    rw [List.flatMap_cons, List.append_assoc, readFields_cons_eq_some_iff]
    exact ⟨block, _, blocks, more, Field.read_writeBlock (Ne.symm hfs.1) hblock _,
      ih hfs.2 hblocks, rfl⟩

/-- No field of a public key is a flag. -/
theorem Algorithm.flag_notMem_fields (a : Algorithm) : .flag ∉ a.fields := by
  cases a <;> simp [Algorithm.fields]

/-! ### Algorithms -/

/-- The algorithms with names of their own go by them, and the names are short. -/
theorem Algorithm.ofName?_of_known :
    ∀ p ∈ Algorithm.known, Algorithm.ofName? p.2.name = some p.2 ∧
      (Utf8.ofString p.2.name).length ≤ longestName := by
  decide +kernel

/-- The algorithms that are named: the known ones, and those of other domains. -/
theorem Algorithm.ofName?_cases {name : String} {a : Algorithm}
    (h : Algorithm.ofName? name = some a) :
    (∃ p ∈ Algorithm.known, p.2 = a) ∨ (a = .named name ∧ isDomainName name = true) := by
  rw [Algorithm.ofName?] at h
  split at h
  · next found hfound =>
    obtain rfl := Option.some.inj h
    obtain ⟨front, back, heq, -⟩ := List.lookup_eq_some_iff.mp hfound
    exact Or.inl ⟨(name, found), by rw [heq]; simp, rfl⟩
  · rw [Option.ite_none_right_eq_some] at h
    exact Or.inr ⟨(Option.some.inj h.2).symm, h.1⟩

/-- An algorithm goes by the name that is written for it. -/
theorem Algorithm.ofName?_name {name : String} {a : Algorithm}
    (h : Algorithm.ofName? name = some a) : Algorithm.ofName? a.name = some a := by
  rcases Algorithm.ofName?_cases h with ⟨p, hp, rfl⟩ | ⟨rfl, -⟩
  · exact (Algorithm.ofName?_of_known p hp).1
  · exact h

/-- The name that is written for an algorithm is not too long if the one that was read is not. -/
theorem Algorithm.length_name_le {block : Bytes} (hblock : block.length ≤ longestName)
    {name : String} (hname : Utf8.decode? block = some name) {a : Algorithm}
    (h : Algorithm.ofName? name = some a) : (Utf8.ofString a.name).length ≤ longestName := by
  rcases Algorithm.ofName?_cases h with ⟨p, hp, rfl⟩ | ⟨rfl, hdomain⟩
  · exact (Algorithm.ofName?_of_known p hp).2
  · rw [isDomainName, Bool.and_eq_true] at hdomain
    have hascii : ∀ c ∈ name.toList, c.toNat < 128 := by simpa using hdomain.1
    show (Utf8.encode name.toList).length ≤ longestName
    rw [Utf8.length_encode_of_ascii hascii]
    exact (Utf8.length_le_of_decode? hname).trans hblock

theorem readAlgorithm_eq_some_iff {bs rest : Bytes} {a : Algorithm} :
    readAlgorithm bs = some (a, rest) ↔
      ∃ block name, readBlock bs = some (block, rest) ∧ block.length ≤ longestName ∧
        Utf8.decode? block = some name ∧ Algorithm.ofName? name = some a := by
  simp only [readAlgorithm, Option.bind_eq_bind, Option.bind_eq_some_iff,
    Option.filter_eq_some_iff, decide_eq_true_eq, Option.some.injEq, Prod.exists, Prod.mk.injEq]
  constructor
  · rintro ⟨block, _, ⟨hread, hlength⟩, name, hname, _, ha, rfl, rfl⟩
    exact ⟨block, name, hread, hlength, hname, ha⟩
  · rintro ⟨block, name, hread, hlength, hname, ha⟩
    exact ⟨block, rest, ⟨hread, hlength⟩, name, hname, a, ha, rfl, rfl⟩

/-- The name of an algorithm survives. -/
theorem readAlgorithm_writeBlock {bs rest : Bytes} {a : Algorithm}
    (h : readAlgorithm bs = some (a, rest)) (more : Bytes) :
    readAlgorithm (writeBlock (Utf8.ofString a.name) ++ more) = some (a, more) := by
  obtain ⟨block, name, -, hlength, hname, ha⟩ := readAlgorithm_eq_some_iff.mp h
  have hshort : (Utf8.ofString a.name).length ≤ longestName :=
    Algorithm.length_name_le hlength hname ha
  have hblock : (Utf8.ofString a.name).length ≤ longestBlock := hshort.trans (by decide)
  have hdecode : Utf8.decode? (Utf8.ofString a.name) = some a.name := by
    rw [Utf8.ofString, Utf8.decode?_encode, String.ofList_toList]
  exact readAlgorithm_eq_some_iff.mpr
    ⟨_, _, readBlock_writeBlock hblock more, hshort, hdecode, Algorithm.ofName?_name ha⟩

/-! ### Keys -/

namespace PublicKey

theorem read_eq_some_iff {bs rest : Bytes} {k : PublicKey} :
    read bs = some (k, rest) ↔
      ∃ tail, readAlgorithm bs = some (k.algorithm, tail) ∧
        readFields k.algorithm.fields tail = some (k.blocks, rest) := by
  obtain ⟨algorithm, blocks⟩ := k
  simp only [read, Option.bind_eq_bind, Option.bind_eq_some_iff, Option.some.injEq, Prod.exists,
    Prod.mk.injEq, PublicKey.mk.injEq]
  constructor
  · rintro ⟨_, tail, ha, _, _, hfields, ⟨rfl, rfl⟩, rfl⟩
    exact ⟨tail, ha, hfields⟩
  · rintro ⟨tail, ha, hfields⟩
    exact ⟨algorithm, tail, ha, blocks, rest, hfields, ⟨rfl, rfl⟩, rfl⟩

/-- The key can be read. -/
def OnWire (k : PublicKey) : Prop :=
  ∃ bs rest, read bs = some (k, rest)

/-- **A key survives its bytes.** -/
theorem read_blob_append {k : PublicKey} (h : k.OnWire) (more : Bytes) :
    read (k.blob ++ more) = some (k, more) := by
  obtain ⟨bs, rest, hread⟩ := h
  obtain ⟨tail, ha, hfields⟩ := read_eq_some_iff.mp hread
  rw [blob, List.append_assoc]
  exact read_eq_some_iff.mpr ⟨_, readAlgorithm_writeBlock ha _,
    readFields_flatMap_writeBlock k.algorithm.flag_notMem_fields hfields more⟩

/-- **No two keys have the same bytes.** -/
theorem blob_injOn {k l : PublicKey} (hk : k.OnWire) (hl : l.OnWire) (h : k.blob = l.blob) :
    k = l := by
  have hread := read_blob_append hk []
  rw [h, read_blob_append hl []] at hread
  exact (Prod.mk.inj (Option.some.inj hread)).1.symm

/-- The canonical text of a key: its own bytes in base64. -/
def text (k : PublicKey) : String :=
  String.ofList (Base64.encode k.blob)

theorem ofBase64?_eq_some_iff {cs : List Char} {k : PublicKey} :
    ofBase64? cs = some k ↔ ∃ bs rest, Base64.decodeJoined? cs = some bs ∧
      read bs = some (k, rest) := by
  simp only [ofBase64?, Option.bind_eq_bind, Option.bind_eq_some_iff, Option.some.injEq,
    Prod.exists]
  constructor
  · rintro ⟨bs, hbs, _, rest, hread, rfl⟩
    exact ⟨bs, rest, hbs, hread⟩
  · rintro ⟨bs, rest, hbs, hread⟩
    exact ⟨bs, hbs, k, rest, hread, rfl⟩

theorem onWire_of_ofBase64? {cs : List Char} {k : PublicKey} (h : ofBase64? cs = some k) :
    k.OnWire := by
  obtain ⟨bs, rest, -, hread⟩ := ofBase64?_eq_some_iff.mp h
  exact ⟨bs, rest, hread⟩

/-- Bytes behind a key are passed over. -/
theorem ofBase64?_encode_append {k : PublicKey} (h : k.OnWire) (more : Bytes) :
    ofBase64? (Base64.encode (k.blob ++ more)) = some k :=
  ofBase64?_eq_some_iff.mpr
    ⟨k.blob ++ more, more, Base64.decodeJoined?_encode _, read_blob_append h more⟩

/-- **A key survives its text.** -/
theorem ofBase64?_text {k : PublicKey} (h : k.OnWire) : ofBase64? k.text.toList = some k := by
  have hread := ofBase64?_encode_append h []
  rwa [List.append_nil, ← String.toList_ofList (l := Base64.encode k.blob)] at hread

/-- A text is a word. -/
theorem text_word (k : PublicKey) :
    k.text.toList ≠ [] ∧ ∀ c ∈ k.text.toList, Text.isBlank c = false := by
  rw [text, String.toList_ofList]
  have hblob : k.blob ≠ [] := by simp [blob, writeBlock, writeWord]
  exact ⟨Base64.encode_ne_nil hblob, Base64.isBlank_of_mem_encode k.blob⟩

end PublicKey

end AchCourier.Ssh
