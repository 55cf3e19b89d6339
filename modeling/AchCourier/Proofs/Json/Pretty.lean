import AchCourier.Proofs.Json.Values

/-!
# Indented texts read back

The indented text of a value puts every item and member on a line of its own.  The line feeds and
the spaces before the items and members are blanks between tokens, and nothing else is new in it, so
it is read back like any other text of the value.

## Main results

* `spells_prettyAt` — the indented text is a text of its value.
* `parse_pretty` — **an indented text spells its value.**
-/

namespace AchCourier.Json

theorem blanks_newline (level : ℕ) : Blanks (newline level) := by
  intro c hc
  rcases List.mem_cons.mp hc with rfl | hc
  · rfl
  · rw [List.eq_of_mem_replicate hc]
    rfl

theorem blanks_space : Blanks [' '] := List.forall_mem_singleton.mpr rfl

mutual

/-- **The indented text is a text of its value.** -/
theorem spells_prettyAt : ∀ (v : Json) (level : ℕ), v.plain = true → Spells v (prettyAt level v)
  | .null, _, _ => .null
  | .bool true, _, _ => .true
  | .bool false, _, _ => .false
  | .int n, _, _ => .int n
  | .str s, _, _ => .str s
  | .arr [], _, _ => .arrNil blanks_nil
  | .arr (v :: vs), level, h => by
    rw [plain, plainItems, Bool.and_eq_true] at h
    have hitems := spellsItems_pretty vs level (spells_prettyAt v (level + 1) h.1) h.2
    rw [prettyAt, List.append_assoc]
    exact .arr (blanks_newline _) hitems
  | .obj [], _, _ => .objNil blanks_nil
  | .obj ((k, v) :: ms), level, h => by
    rw [plain, plainMembers, Bool.and_eq_true] at h
    have hmember := @SpellsMember.mk k v [] [' '] _ blanks_nil blanks_space
      (spells_prettyAt v (level + 1) h.1)
    have hobj := Spells.obj (blanks_newline (level + 1)) (spellsMembers_pretty ms level hmember h.2)
    rw [prettyAt]
    simpa using hobj
  | .real _, _, h => nomatch h
  | .unpaired _, _, h => nomatch h

theorem spellsItems_pretty : ∀ (vs : List Json) (level : ℕ) {v : Json} {cs : List Char},
    Spells v cs → plainItems vs = true → SpellsItems (v :: vs) (cs ++ prettyItems level vs)
  | [], level, _, _, hv, _ => .last hv (blanks_newline level)
  | w :: vs, level, _, _, hv, h => by
    rw [plainItems, Bool.and_eq_true] at h
    have hmore := spellsItems_pretty vs level (spells_prettyAt w (level + 1) h.1) h.2
    rw [prettyItems, List.append_assoc]
    exact @SpellsItems.cons _ _ _ [] _ _ hv blanks_nil (blanks_newline _) hmore

theorem spellsMembers_pretty : ∀ (ms : List (String × Json)) (level : ℕ) {m : String × Json}
    {cs : List Char}, SpellsMember m cs → plainMembers ms = true →
    SpellsMembers (m :: ms) (cs ++ prettyMembers level ms)
  | [], level, _, _, hm, _ => .last hm (blanks_newline level)
  | (k, v) :: ms, level, _, _, hm, h => by
    rw [plainMembers, Bool.and_eq_true] at h
    have hmember := @SpellsMember.mk k v [] [' '] _ blanks_nil blanks_space
      (spells_prettyAt v (level + 1) h.1)
    have hmore := @SpellsMembers.cons _ _ _ [] _ _ hm blanks_nil (blanks_newline (level + 1))
      (spellsMembers_pretty ms level hmember h.2)
    rw [prettyMembers]
    simpa using hmore

end

/-- **An indented text spells its value.** -/
theorem parse_pretty {v : Json} (hv : v.plain = true) :
    parse (String.ofList (pretty v)) = some (asRead v) :=
  parse_of_spells (spells_prettyAt v 0 hv)

end AchCourier.Json
