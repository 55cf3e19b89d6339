import AchCourier.Proofs.Json.Tokens

/-!
# Texts of values read back

A text may spell a value in many ways, for there may be blanks between its tokens.  Whatever blanks
there are, the text is read back as the value that it spells; and the compact text, which has none,
belongs to no other value.  This holds of all values that the library itself makes; a literal that
was kept as written may be any text.  An integer that does not fit in 64 bits is read as the digits
that it was written with.

The reader counts its steps, and a text has enough of them: every level of the value takes two, and
so does every item and member.

## Main definitions

* `plain` — the value holds no literal as written.
* `asRead` — the value that a text of a plain value spells.
* `Spells` — the texts of a value.

## Main results

* `value_of_spells` — a text of a value is read back, up to what follows it.
* `parse_of_spells` — **a text of a value spells that value**, however it is laid out.
* `parse_compact` — a compact text spells its value.
* `compact_injective` — **no two values have the same compact text.**
-/

namespace AchCourier.Json

mutual

/-- The value holds no literal as written. -/
def plain : Json → Bool
  | .real _ => false
  | .unpaired _ => false
  | .arr items => plainItems items
  | .obj members => plainMembers members
  | _ => true

/-- `plain` of every item. -/
def plainItems : List Json → Bool
  | [] => true
  | v :: vs => plain v && plainItems vs

/-- `plain` of every member. -/
def plainMembers : List (String × Json) → Bool
  | [] => true
  | (_, v) :: rest => plain v && plainMembers rest

end

mutual

/-- The value that a text of a plain value spells. -/
def asRead : Json → Json
  | .int n => integer n
  | .arr items => .arr (asReadItems items)
  | .obj members => .obj (asReadMembers members)
  | v => v

/-- `asRead` in every item. -/
def asReadItems : List Json → List Json
  | [] => []
  | v :: vs => asRead v :: asReadItems vs

/-- `asRead` in every member. -/
def asReadMembers : List (String × Json) → List (String × Json)
  | [] => []
  | (k, v) :: rest => (k, asRead v) :: asReadMembers rest

end

/-! ### Texts of a value -/

/-- The text is blanks alone. -/
def Blanks (cs : List Char) : Prop :=
  ∀ c ∈ cs, isBlank c = true

theorem blanks_nil : Blanks [] := List.forall_mem_nil _

mutual

/-- The text spells the value, with blanks between its tokens as there may be. -/
inductive Spells : Json → List Char → Prop where
  | null : Spells .null "null".toList
  | true : Spells (.bool true) "true".toList
  | false : Spells (.bool false) "false".toList
  | int (n : Int) : Spells (.int n) (digits n)
  | str (s : String) : Spells (.str s) (quote s)
  | arrNil {ws : List Char} : Blanks ws → Spells (.arr []) ('[' :: (ws ++ [']']))
  | arr {ws cs : List Char} {vs : List Json} :
      Blanks ws → SpellsItems vs cs → Spells (.arr vs) ('[' :: (ws ++ cs))
  | objNil {ws : List Char} : Blanks ws → Spells (.obj []) ('\x7b' :: (ws ++ ['\x7d']))
  | obj {ws cs : List Char} {ms : List (String × Json)} :
      Blanks ws → SpellsMembers ms cs → Spells (.obj ms) ('\x7b' :: (ws ++ cs))

/-- The text spells the items, up to the bracket that closes their array. -/
inductive SpellsItems : List Json → List Char → Prop where
  | last {v : Json} {cs ws : List Char} :
      Spells v cs → Blanks ws → SpellsItems [v] (cs ++ (ws ++ [']']))
  | cons {v : Json} {vs : List Json} {cs ws ws' more : List Char} :
      Spells v cs → Blanks ws → Blanks ws' → SpellsItems vs more →
        SpellsItems (v :: vs) (cs ++ (ws ++ ',' :: (ws' ++ more)))

/-- The text spells a member. -/
inductive SpellsMember : String × Json → List Char → Prop where
  | mk {k : String} {v : Json} {ws ws' cs : List Char} :
      Blanks ws → Blanks ws' → Spells v cs →
        SpellsMember (k, v) (quote k ++ (ws ++ ':' :: (ws' ++ cs)))

/-- The text spells the members, up to the brace that closes their object. -/
inductive SpellsMembers : List (String × Json) → List Char → Prop where
  | last {m : String × Json} {cs ws : List Char} :
      SpellsMember m cs → Blanks ws → SpellsMembers [m] (cs ++ (ws ++ ['\x7d']))
  | cons {m : String × Json} {ms : List (String × Json)} {cs ws ws' more : List Char} :
      SpellsMember m cs → Blanks ws → Blanks ws' → SpellsMembers ms more →
        SpellsMembers (m :: ms) (cs ++ (ws ++ ',' :: (ws' ++ more)))

end

/-! ### Beginnings of texts -/

/-- The text begins with a character of a token, and with no closing bracket or brace. -/
def Begins (cs : List Char) : Prop :=
  ∃ c rest, cs = c :: rest ∧ isBlank c = false ∧ c ≠ ']' ∧ c ≠ '\x7d'

theorem Begins.append {cs : List Char} (h : Begins cs) (rest : List Char) :
    Begins (cs ++ rest) := by
  obtain ⟨c, cs, rfl, hc⟩ := h
  exact ⟨c, cs ++ rest, rfl, hc⟩

theorem Blanks.skipBlanks_append {ws : List Char} (h : Blanks ws) (cs : List Char) :
    skipBlanks (ws ++ cs) = skipBlanks cs :=
  List.dropWhile_append_of_pos h

theorem skipBlanks_cons {c : Char} (hc : isBlank c = false) (cs : List Char) :
    skipBlanks (c :: cs) = c :: cs := by
  rw [skipBlanks, List.dropWhile_cons, hc, if_neg Bool.false_ne_true]

theorem Begins.skipBlanks_eq {cs : List Char} (h : Begins cs) : skipBlanks cs = cs := by
  obtain ⟨c, cs, rfl, hc, -, -⟩ := h
  exact skipBlanks_cons hc cs

theorem Begins.skipBlanks_append {ws cs : List Char} (h : Begins cs) (hws : Blanks ws) :
    skipBlanks (ws ++ cs) = cs := by
  rw [hws.skipBlanks_append, h.skipBlanks_eq]

/-- What may follow a value may stand behind blanks. -/
theorem Blanks.ends_append {ws cs : List Char} (h : Blanks ws) (hcs : Ends cs) :
    Ends (ws ++ cs) := by
  cases ws with
  | nil => exact hcs
  | cons w ws => simpa [Ends] using Or.inl (h w List.mem_cons_self)

theorem digits_eq_cons (n : Int) :
    ∃ c cs, digits n = c :: cs ∧ (c = '-' ∨ c.isDigit = true) := by
  cases n with
  | ofNat n =>
    cases hdigits : Nat.toDigits 10 n with
    | nil => exact absurd hdigits Nat.toDigits_ne_nil
    | cons d ds =>
      exact ⟨d, ds, hdigits, Or.inr (isDigit_of_mem_toDigits d (hdigits ▸ List.mem_cons_self))⟩
  | negSucc n => exact ⟨'-', _, rfl, Or.inl rfl⟩

theorem Spells.begins {v : Json} {cs : List Char} (h : Spells v cs) : Begins cs := by
  cases h with
  | int n =>
    obtain ⟨c, cs, hdigits, hc⟩ := digits_eq_cons n
    -- a number begins with a sign or a digit, and neither is a blank
    refine ⟨c, cs, hdigits, ?_⟩
    rcases hc with rfl | hc
    · decide
    · refine ⟨?_, (by rintro rfl; cases hc), (by rintro rfl; cases hc)⟩
      rw [Bool.eq_false_iff]
      intro hblank
      rcases isBlank_iff.mp hblank with rfl | rfl | rfl | rfl <;> cases hc
  | _ => exact ⟨_, _, rfl, by decide⟩

theorem SpellsItems.begins {vs : List Json} {cs : List Char} (h : SpellsItems vs cs) :
    Begins cs := by
  cases h with
  | last hv hws => exact hv.begins.append _
  | cons hv hws hws' hvs => exact hv.begins.append _

theorem SpellsMember.begins {m : String × Json} {cs : List Char} (h : SpellsMember m cs) :
    Begins cs := by
  cases h
  exact ⟨_, _, rfl, by decide⟩

theorem SpellsMembers.begins {ms : List (String × Json)} {cs : List Char}
    (h : SpellsMembers ms cs) : Begins cs := by
  cases h with
  | last hm hws => exact hm.begins.append _
  | cons hm hws hws' hms => exact hm.begins.append _

/-! ### Single steps of the reader -/

/-- A number is told by its first character. -/
theorem value_of_number {c : Char} (h : c = '-' ∨ c.isDigit = true) (n : ℕ) (cs : List Char) :
    value (n + 1) (c :: cs) = number (c :: cs) := by
  have hne : ∀ {d : Char} {ds ds' : List Char}, d ≠ '-' → d.isDigit = false →
      c :: ds ≠ d :: ds' := by
    rintro d ds ds' hd hdigit heq
    obtain ⟨rfl, -⟩ := List.cons.inj heq
    rcases h with h | h
    · exact hd h
    · rw [hdigit] at h
      cases h
  rw [value] <;> exact fun _ => hne (by decide) (by decide)

theorem value_quote (n : ℕ) (s : String) (rest : List Char) :
    value (n + 1) (quote s ++ rest) = some (.str s, rest) := by
  simp only [quote, List.cons_append, List.append_assoc, List.nil_append, value]
  rw [stringBody_flatMap_escapeChar]
  simp [joinSurrogates_map_toNat]

section
variable {n : ℕ} {ws cs : List Char} (hws : Blanks ws) (h : Begins cs)
include hws h

theorem value_arr {vs : List Json} {rest : List Char} (hvs : items n cs = some (vs, rest)) :
    value (n + 1) ('[' :: (ws ++ cs)) = some (.arr vs, rest) := by
  have hskip := h.skipBlanks_append hws
  obtain ⟨c, cs, rfl, -, hc, -⟩ := h
  rw [value, hskip]
  split
  · next heq => exact absurd (List.cons.inj heq).1 hc
  · rw [hvs, Option.map_some]

theorem value_obj {ms : List (String × Json)} {rest : List Char}
    (hms : members n cs = some (ms.map fun m => (some m.1, m.2), rest)) :
    value (n + 1) ('\x7b' :: (ws ++ cs)) = some (.obj ms, rest) := by
  have hnames : membersOf (ms.map fun m => (some m.1, m.2)) = some ms := by
    clear hms
    induction ms with
    | nil => rfl
    | cons m ms ih => rw [List.map_cons, membersOf, ih]; rfl
  have hskip := h.skipBlanks_append hws
  obtain ⟨c, cs, rfl, -, -, hc⟩ := h
  rw [value, hskip]
  -- a member begins behind the blanks, so the object is not empty
  split
  · next heq => exact absurd (List.cons.inj heq).1 hc
  · rw [hms, Option.map_some, hnames]

/-- Blanks before the first item do not matter. -/
theorem items_append : items n (ws ++ cs) = items n cs := by
  cases n with
  | zero => rfl
  | succ n => rw [items, items, h.skipBlanks_append hws, h.skipBlanks_eq]

/-- Blanks before the first member do not matter. -/
theorem members_append : members n (ws ++ cs) = members n cs := by
  cases n with
  | zero => rfl
  | succ n => rw [members, members, h.skipBlanks_append hws, h.skipBlanks_eq]

end

section
variable {n : ℕ} {cs : List Char} (h : Begins cs) {v : Json} {ws : List Char} (hws : Blanks ws)
include h hws

/-- An item before a comma. -/
theorem items_cons {cs' : List Char} (hv : value n cs = some (v, ws ++ ',' :: cs')) :
    items (n + 1) cs = (items n cs').map fun r => (v :: r.1, r.2) := by
  rw [items, h.skipBlanks_eq, hv]
  simp only [hws.skipBlanks_append, skipBlanks_cons (c := ',') rfl]

/-- The last item. -/
theorem items_last {rest : List Char} (hv : value n cs = some (v, ws ++ ']' :: rest)) :
    items (n + 1) cs = some ([v], rest) := by
  rw [items, h.skipBlanks_eq, hv]
  simp only [hws.skipBlanks_append, skipBlanks_cons (c := ']') rfl]

end

section
variable {n : ℕ} {ws ws' wsEnd cs : List Char} (hws : Blanks ws) (hws' : Blanks ws')
  (h : Begins cs) (hend : Blanks wsEnd) (k : String) {v : Json}
include hws hws' h hend

/-- A member before a comma. -/
theorem members_cons {cs' : List Char} (hv : value n cs = some (v, wsEnd ++ ',' :: cs')) :
    members (n + 1) (quote k ++ (ws ++ ':' :: (ws' ++ cs))) =
      (members n cs').map fun r => ((some k, v) :: r.1, r.2) := by
  have hquote : ∀ cs, skipBlanks (quote k ++ cs) = quote k ++ cs := fun _ => rfl
  rw [members, hquote]
  simp only [quote, List.cons_append, List.append_assoc, List.nil_append,
    stringBody_flatMap_escapeChar, joinSurrogates_map_toNat, Option.map_some, String.ofList_toList,
    hws.skipBlanks_append, skipBlanks_cons (c := ':') rfl, h.skipBlanks_append hws', hv,
    hend.skipBlanks_append, skipBlanks_cons (c := ',') rfl]

/-- The last member. -/
theorem members_last {rest : List Char} (hv : value n cs = some (v, wsEnd ++ '\x7d' :: rest)) :
    members (n + 1) (quote k ++ (ws ++ ':' :: (ws' ++ cs))) = some ([(some k, v)], rest) := by
  have hquote : ∀ cs, skipBlanks (quote k ++ cs) = quote k ++ cs := fun _ => rfl
  rw [members, hquote]
  simp only [quote, List.cons_append, List.append_assoc, List.nil_append,
    stringBody_flatMap_escapeChar, joinSurrogates_map_toNat, Option.map_some, String.ofList_toList,
    hws.skipBlanks_append, skipBlanks_cons (c := ':') rfl, h.skipBlanks_append hws', hv,
    hend.skipBlanks_append, skipBlanks_cons (c := '\x7d') rfl]

end

/-! ### Whole values -/

mutual

/-- **A text of a value is read back**, up to what follows it. -/
theorem value_of_spells : ∀ (n : ℕ) {v : Json} {cs : List Char} (rest : List Char), Spells v cs →
    2 * cs.length ≤ n → Ends rest → value n (cs ++ rest) = some (asRead v, rest)
  | 0, _, _, _, h, hn, _ => by
    -- a value has one character at least
    obtain ⟨c, cs, rfl, -⟩ := h.begins
    rw [List.length_cons] at hn
    omega
  | n + 1, _, _, rest, .null, _, _ => rfl
  | n + 1, _, _, rest, .true, _, _ => rfl
  | n + 1, _, _, rest, .false, _, _ => rfl
  | n + 1, _, _, rest, .int i, _, hrest => by
    obtain ⟨c, cs, hdigits, hc⟩ := digits_eq_cons i
    rw [asRead, ← number_digits i hrest, hdigits, List.cons_append, value_of_number hc]
  | n + 1, _, _, rest, .str s, _, _ => value_quote n s rest
  | n + 1, _, _, rest, .arrNil hws, _, _ => by
    rw [List.cons_append, List.append_assoc, value, hws.skipBlanks_append]
    rfl
  | n + 1, _, _, rest, .objNil hws, _, _ => by
    rw [List.cons_append, List.append_assoc, value, hws.skipBlanks_append]
    rfl
  | n + 1, _, _, rest, .arr hws hvs, hn, _ => by
    rw [List.length_cons, List.length_append] at hn
    rw [List.cons_append, List.append_assoc]
    exact value_arr hws (hvs.begins.append rest) (items_of_spells n rest hvs (by omega))
  | n + 1, _, _, rest, .obj hws hms, hn, _ => by
    rw [List.length_cons, List.length_append] at hn
    rw [List.cons_append, List.append_assoc]
    exact value_obj hws (hms.begins.append rest) (members_of_spells n rest hms (by omega))

theorem items_of_spells : ∀ (n : ℕ) {vs : List Json} {cs : List Char} (rest : List Char),
    SpellsItems vs cs → 2 * cs.length + 1 ≤ n → items n (cs ++ rest) = some (asReadItems vs, rest)
  | n + 1, _, _, rest, @SpellsItems.last v cs ws hv hws, hn => by
    simp only [List.length_append] at hn
    have hvalue := value_of_spells n (ws ++ ']' :: rest) hv (by omega)
      (hws.ends_append (by simp [Ends]))
    rw [List.append_assoc, List.append_assoc, List.singleton_append]
    exact items_last (hv.begins.append _) hws hvalue
  | n + 1, _, _, rest, @SpellsItems.cons v vs cs ws ws' more hv hws hws' hvs, hn => by
    simp only [List.length_append, List.length_cons] at hn
    have hvalue := value_of_spells n (ws ++ ',' :: (ws' ++ more ++ rest)) hv (by omega)
      (hws.ends_append (by simp [Ends]))
    rw [List.append_assoc, List.append_assoc, List.cons_append,
      items_cons (hv.begins.append _) hws hvalue, List.append_assoc,
      items_append hws' (hvs.begins.append rest), items_of_spells n rest hvs (by omega)]
    rfl

theorem members_of_spells : ∀ (n : ℕ) {ms : List (String × Json)} {cs : List Char}
    (rest : List Char), SpellsMembers ms cs → 2 * cs.length + 1 ≤ n →
    members n (cs ++ rest) = some ((asReadMembers ms).map fun m => (some m.1, m.2), rest)
  | n + 1, _, _, rest, @SpellsMembers.last _ _ wsEnd hm hend, hn => by
    obtain @⟨k, v, ws, ws', cs, hws, hws', hv⟩ := hm
    simp only [List.length_append, List.length_cons] at hn
    have hvalue := value_of_spells n (wsEnd ++ '\x7d' :: rest) hv (by omega)
      (hend.ends_append (by simp [Ends]))
    have hmember := members_last hws hws' (hv.begins.append _) hend k hvalue
    simpa [asReadMembers] using hmember
  | n + 1, _, _, rest, @SpellsMembers.cons _ ms _ wsEnd wsNext more hm hend hnext hms, hn => by
    obtain @⟨k, v, ws, ws', cs, hws, hws', hv⟩ := hm
    simp only [List.length_append, List.length_cons] at hn
    have hvalue := value_of_spells n (wsEnd ++ ',' :: (wsNext ++ (more ++ rest))) hv (by omega)
      (hend.ends_append (by simp [Ends]))
    have hmember := members_cons hws hws' (hv.begins.append _) hend k hvalue
    simp only [members_append hnext (hms.begins.append rest),
      members_of_spells n rest hms (by omega)] at hmember
    simpa [asReadMembers] using hmember

end

/-- **A text of a value spells that value**, however it is laid out. -/
theorem parse_of_spells {v : Json} {cs : List Char} (h : Spells v cs) :
    parse (String.ofList cs) = some (asRead v) := by
  have hvalue := value_of_spells (2 * cs.length + 2) [] h (by omega) (by simp [Ends])
  rw [List.append_nil] at hvalue
  rw [parse, String.toList_ofList, h.begins.skipBlanks_eq]
  simp only [hvalue]
  rfl

/-! ### Compact texts -/

mutual

theorem spells_compact : ∀ v : Json, v.plain = true → Spells v (compact v)
  | .null, _ => .null
  | .bool true, _ => .true
  | .bool false, _ => .false
  | .int n, _ => .int n
  | .str s, _ => .str s
  | .arr [], _ => .arrNil blanks_nil
  | .arr (v :: vs), h => by
    rw [plain, plainItems, Bool.and_eq_true] at h
    exact @Spells.arr [] _ _ blanks_nil (spellsItems_compact vs (spells_compact v h.1) h.2)
  | .obj [], _ => .objNil blanks_nil
  | .obj ((k, v) :: ms), h => by
    rw [plain, plainMembers, Bool.and_eq_true] at h
    have hmember := @SpellsMember.mk k v [] [] _ blanks_nil blanks_nil (spells_compact v h.1)
    exact @Spells.obj [] _ _ blanks_nil (spellsMembers_compact ms hmember h.2)
  | .real _, h => nomatch h
  | .unpaired _, h => nomatch h

theorem spellsItems_compact : ∀ (vs : List Json) {v : Json} {cs : List Char}, Spells v cs →
    plainItems vs = true → SpellsItems (v :: vs) (cs ++ compactMoreItems vs)
  | [], _, _, hv, _ => .last hv blanks_nil
  | w :: vs, _, _, hv, h => by
    rw [plainItems, Bool.and_eq_true] at h
    exact @SpellsItems.cons _ _ _ [] [] _ hv blanks_nil blanks_nil
      (spellsItems_compact vs (spells_compact w h.1) h.2)

theorem spellsMembers_compact : ∀ (ms : List (String × Json)) {m : String × Json}
    {cs : List Char}, SpellsMember m cs → plainMembers ms = true →
    SpellsMembers (m :: ms) (cs ++ compactMoreMembers ms)
  | [], _, _, hm, _ => .last hm blanks_nil
  | (k, v) :: ms, _, _, hm, h => by
    rw [plainMembers, Bool.and_eq_true] at h
    have hmember := @SpellsMember.mk k v [] [] _ blanks_nil blanks_nil (spells_compact v h.1)
    have hmore := @SpellsMembers.cons _ _ _ [] [] _ hm blanks_nil blanks_nil
      (spellsMembers_compact ms hmember h.2)
    rw [compactMoreMembers]
    simpa using hmore

end

/-- **A compact text spells its value.** -/
theorem parse_compact {v : Json} (hv : v.plain = true) :
    parse (String.ofList (compact v)) = some (asRead v) :=
  parse_of_spells (spells_compact v hv)

/-! ### No two values have the same text -/

theorem digits_injective {m n : Int} (h : digits m = digits n) : m = n := by
  -- only a negative number begins with a sign
  have hsign : ∀ {a b : ℕ}, digits (.ofNat a) ≠ digits (.negSucc b) := by
    intro a b heq
    have hdigit := isDigit_of_mem_toDigits (n := a) '-'
      (show '-' ∈ digits (.ofNat a) by rw [heq]; exact List.mem_cons_self)
    cases hdigit
  have hread : ∀ {a b : ℕ}, Nat.toDigits 10 a = Nat.toDigits 10 b → a = b := by
    intro a b heq
    rw [← @Nat.ofDigitChars_ten_toDigits a, heq, Nat.ofDigitChars_ten_toDigits]
  cases m with
  | ofNat a =>
    cases n with
    | ofNat b => rw [hread h]
    | negSucc b => exact absurd h hsign
  | negSucc a =>
    cases n with
    | ofNat b => exact absurd h.symm hsign
    | negSucc b =>
      have hsame := hread (List.cons.inj h).2
      rw [Nat.succ.inj hsame]

theorem integer_injective {m n : Int} (h : integer m = integer n) : m = n := by
  unfold integer at h
  split_ifs at h
  · exact Json.int.inj h
  · exact digits_injective (String.ofList_injective (Json.real.inj h))

@[simp] theorem nat_inj {m n : ℕ} : nat m = nat n ↔ m = n := by
  rw [nat, nat, Json.int.injEq, Int.ofNat_inj]

/-- Whether a value is nothing, a truth value, a number, a string, an array or an object. -/
def kind : Json → ℕ
  | .null => 0
  | .bool _ => 1
  | .int _ => 2
  | .real _ => 2
  | .str _ => 3
  | .unpaired _ => 3
  | .arr _ => 4
  | .obj _ => 5

theorem kind_asRead (v : Json) : kind (asRead v) = kind v := by
  cases v with
  | int n =>
    rw [asRead, integer]
    split_ifs <;> rfl
  | _ => rfl

theorem kind_eq_of_asRead_eq {v w : Json} (h : asRead v = asRead w) : kind v = kind w := by
  rw [← kind_asRead v, h, kind_asRead]

mutual

/-- Plain values that are read as the same value are the same. -/
theorem eq_of_asRead_eq : ∀ {v w : Json}, v.plain = true → w.plain = true →
    asRead v = asRead w → v = w
  | .null, w, _, _, h => by
    -- values of different kinds are read as different ones
    have hkind := kind_eq_of_asRead_eq h
    cases w <;> first | rfl | cases hkind
  | .bool b, w, _, _, h => by
    have hkind := kind_eq_of_asRead_eq h
    cases w <;> first | exact h | cases hkind
  | .str s, w, _, _, h => by
    have hkind := kind_eq_of_asRead_eq h
    cases w <;> first | exact h | cases hkind
  | .int m, w, _, hw, h => by
    have hkind := kind_eq_of_asRead_eq h
    cases w with
    | int n => rw [integer_injective h]
    | real literal => cases hw
    | _ => cases hkind
  | .arr vs, w, hv, hw, h => by
    have hkind := kind_eq_of_asRead_eq h
    cases w with
    | arr ws => rw [eq_of_asReadItems_eq hv hw (Json.arr.inj h)]
    | _ => cases hkind
  | .obj ms, w, hv, hw, h => by
    have hkind := kind_eq_of_asRead_eq h
    cases w with
    | obj ns => rw [eq_of_asReadMembers_eq hv hw (Json.obj.inj h)]
    | _ => cases hkind
  | .real _, _, hv, _, _ => nomatch hv
  | .unpaired _, _, hv, _, _ => nomatch hv

theorem eq_of_asReadItems_eq : ∀ {vs ws : List Json}, plainItems vs = true →
    plainItems ws = true → asReadItems vs = asReadItems ws → vs = ws
  | [], [], _, _, _ => rfl
  | v :: vs, w :: ws, hv, hw, h => by
    rw [plainItems, Bool.and_eq_true] at hv hw
    obtain ⟨hhead, htail⟩ := List.cons.inj h
    rw [eq_of_asRead_eq hv.1 hw.1 hhead, eq_of_asReadItems_eq hv.2 hw.2 htail]

theorem eq_of_asReadMembers_eq : ∀ {ms ns : List (String × Json)}, plainMembers ms = true →
    plainMembers ns = true → asReadMembers ms = asReadMembers ns → ms = ns
  | [], [], _, _, _ => rfl
  | (k, v) :: ms, (l, w) :: ns, hm, hn, h => by
    rw [plainMembers, Bool.and_eq_true] at hm hn
    obtain ⟨hhead, htail⟩ := List.cons.inj h
    obtain ⟨rfl, hvalue⟩ := Prod.mk.inj hhead
    rw [eq_of_asRead_eq hm.1 hn.1 hvalue, eq_of_asReadMembers_eq hm.2 hn.2 htail]

end

/-- **No two values have the same compact text.** -/
theorem compact_injective {v w : Json} (hv : v.plain = true) (hw : w.plain = true)
    (h : compact v = compact w) : v = w := by
  have hread := parse_compact hv
  rw [h, parse_compact hw, Option.some.injEq] at hread
  exact (eq_of_asRead_eq hw hv hread).symm

/-! ### Plain values -/

theorem plainItems_map {α : Type} {f : α → Json} (hf : ∀ a, (f a).plain = true) (as : List α) :
    plainItems (as.map f) = true := by
  induction as with
  | nil => rfl
  | cons a as ih => rw [List.map_cons, plainItems, hf, ih]; rfl

theorem plainMembers_append (ms ns : List (String × Json)) :
    plainMembers (ms ++ ns) = (plainMembers ms && plainMembers ns) := by
  induction ms with
  | nil => rfl
  | cons m ms ih => rw [List.cons_append, plainMembers, ih, plainMembers, Bool.and_assoc]

theorem asReadItems_map {α : Type} {f : α → Json} {as : List α}
    (hf : ∀ a ∈ as, asRead (f a) = f a) : asReadItems (as.map f) = as.map f := by
  induction as with
  | nil => rfl
  | cons a as ih =>
    obtain ⟨ha, has⟩ := List.forall_mem_cons.mp hf
    rw [List.map_cons, asReadItems, ha, ih has]

theorem asReadMembers_append (ms ns : List (String × Json)) :
    asReadMembers (ms ++ ns) = asReadMembers ms ++ asReadMembers ns := by
  induction ms with
  | nil => rfl
  | cons m ms ih => rw [List.cons_append, asReadMembers, ih, asReadMembers, List.cons_append]

/-- A natural number of 64 bits is read as it is. -/
theorem asRead_nat {n : ℕ} (h : n < UInt64.size) : asRead (nat n) = nat n := by
  rw [UInt64.size] at h
  have hlow : -Int.pow 2 63 ≤ n := by
    rw [show Int.pow 2 63 = 9223372036854775808 from rfl]
    omega
  have hhigh : (n : Int) < Int.pow 2 64 := by
    rw [show Int.pow 2 64 = 18446744073709551616 from rfl]
    omega
  rw [nat, asRead, integer, if_pos ⟨hlow, hhigh⟩]

theorem plain_strs (ss : List String) : (strs ss).plain = true :=
  plainItems_map (fun _ => rfl) ss

theorem strs_injective : Function.Injective strs := fun _ _ h =>
  (show Function.Injective Json.str from fun _ _ => Json.str.inj).list_map (Json.arr.inj h)

end AchCourier.Json
