import AchCourier.Text.Blank
import Mathlib.Data.List.DropRight

/-!
# Trimming and words

Padding never changes what trimming leaves, on either side, and a text is its own trimmed form
exactly when it neither begins nor ends with a blank.  Characters that are not blank make up one
word, which the next blank ends.

## Main results

* `dropEndWhile_eq_rdropWhile` — `dropEndWhile` is `List.rdropWhile`.
* `trim_append_of_blank`, `trim_of_blank_append` — padding is trimmed away.
* `trim_eq_self_iff` — the texts without blanks at their ends.
* `trim_trim` — trimming leaves such a text.
* `words_eq_singleton`, `words_append_cons` — the first word of a text.
-/

namespace AchCourier.Text

/-! ### Dropping at the end -/

theorem dropEndWhile_eq_rdropWhile {α : Type} (p : α → Bool) (as : List α) :
    dropEndWhile p as = as.rdropWhile p := rfl

/-- A list is kept exactly when its last member fails the test. -/
theorem dropEndWhile_eq_self_iff {α : Type} {p : α → Bool} {as : List α} :
    dropEndWhile p as = as ↔ ∀ a ∈ as.getLast?, p a = false := by
  rw [dropEndWhile_eq_rdropWhile, List.rdropWhile_eq_self_iff]
  cases h : as.getLast? with
  | none => simp [List.getLast?_eq_none_iff.mp h]
  | some a =>
    have hne : as ≠ [] := by rintro rfl; simp at h
    rw [List.getLast?_eq_some_getLast hne, Option.some.injEq] at h
    simp [hne, h]

/-- What goes at the end goes whatever stands in front of it. -/
theorem dropEndWhile_append_of_pos {α : Type} {p : α → Bool} {bs : List α}
    (h : ∀ b ∈ bs, p b = true) (as : List α) : dropEndWhile p (as ++ bs) = dropEndWhile p as := by
  have hrev : ∀ b ∈ bs.reverse, p b = true := fun b hb => h b (List.mem_reverse.mp hb)
  rw [dropEndWhile, dropEndWhile, List.reverse_append, List.dropWhile_append_of_pos hrev]

/-- A member that fails the test is kept, and so is all in front of it. -/
theorem dropEndWhile_append_cons {α : Type} {p : α → Bool} {x : α} (hx : p x = false)
    (left right : List α) :
    dropEndWhile p (left ++ x :: right) = left ++ x :: dropEndWhile p right := by
  rw [dropEndWhile, dropEndWhile, List.reverse_append, List.reverse_cons, List.append_assoc,
    List.singleton_append, List.dropWhile_append]
  cases right.reverse.dropWhile p with
  | nil => simp [hx]
  | cons y ys => simp

/-- What is left does not end in a member that goes. -/
theorem last_dropEndWhile {α : Type} {p : α → Bool} {as : List α} {a : α}
    (h : (dropEndWhile p as).getLast? = some a) : p a = false := by
  have hkept : dropEndWhile p (dropEndWhile p as) = dropEndWhile p as :=
    List.rdropWhile_idempotent p as
  exact dropEndWhile_eq_self_iff.mp hkept a h

/-! ### Trimming -/

/-- A digit is never trimmed. -/
theorem isBlank_of_isDigit {c : Char} (h : c.isDigit = true) : isBlank c = false := by
  obtain ⟨h₀, h₉⟩ := Char.isDigit_iff_toNat.mp h
  have h₀ : 48 ≤ c.toNat := h₀
  have h₉ : c.toNat ≤ 57 := h₉
  simp only [isBlank, Bool.or_eq_false_iff, Bool.and_eq_false_iff, decide_eq_false_iff_not,
    beq_eq_false_iff_ne]
  omega

/-- A character that is not blank keeps the two sides of it apart. -/
theorem trim_append_cons {x : Char} (hx : isBlank x = false) (left right : List Char) :
    trim (left ++ x :: right) = trimStart left ++ x :: trimEnd right := by
  have hstart : trimStart (left ++ x :: right) = trimStart left ++ x :: right := by
    rw [trimStart, trimStart, List.dropWhile_append]
    cases left.dropWhile isBlank with
    | nil => simp [hx]
    | cons y ys => rfl
  rw [trim, hstart, trimEnd, trimEnd, dropEndWhile_append_cons hx]

theorem trim_append_of_blank {cs ys : List Char} (h : ∀ c ∈ ys, isBlank c = true) :
    trim (cs ++ ys) = trim cs := by
  have hys : ys.dropWhile isBlank = [] := List.dropWhile_eq_nil_iff.mpr h
  unfold trim trimEnd trimStart
  rw [List.dropWhile_append]
  cases hcs : cs.dropWhile isBlank with
  | nil => simp [hys, dropEndWhile]
  | cons d ds =>
    rw [List.isEmpty_cons, if_neg Bool.false_ne_true, dropEndWhile_append_of_pos h]

theorem trim_of_blank_append {xs cs : List Char} (h : ∀ c ∈ xs, isBlank c = true) :
    trim (xs ++ cs) = trim cs := by
  unfold trim trimStart
  rw [List.dropWhile_append_of_pos h]

/-- What trimming leaves begins behind the leading blanks. -/
theorem trim_prefix_dropWhile (cs : List Char) : trim cs <+: cs.dropWhile isBlank := by
  exact List.rdropWhile_prefix isBlank (cs.dropWhile isBlank)

theorem trim_infix_self (cs : List Char) : trim cs <:+: cs :=
  (trim_prefix_dropWhile cs).isInfix.trans (List.dropWhile_suffix isBlank).isInfix

/-- A text without blanks at its ends, said by its first and its last character. -/
theorem trim_eq_self_iff {cs : List Char} :
    trim cs = cs ↔
      (∀ c ∈ cs.head?, isBlank c = false) ∧ (∀ c ∈ cs.getLast?, isBlank c = false) := by
  have hstart : cs.dropWhile isBlank = cs ↔ ∀ c ∈ cs.head?, isBlank c = false := by
    rw [List.dropWhile_eq_self_iff]
    cases cs <;> simp
  constructor
  · intro h
    have hpre := trim_prefix_dropWhile cs
    have hsuf : cs.dropWhile isBlank <:+ cs := List.dropWhile_suffix _
    -- trimming kept the length, so neither end was cut
    rw [h] at hpre
    have hs : cs.dropWhile isBlank = cs :=
      hsuf.eq_of_length (le_antisymm hsuf.length_le hpre.length_le)
    unfold trim trimEnd trimStart at h
    rw [hs] at h
    exact ⟨hstart.mp hs, dropEndWhile_eq_self_iff.mp h⟩
  · rintro ⟨hh, hl⟩
    unfold trim trimEnd trimStart
    rw [hstart.mpr hh]
    exact dropEndWhile_eq_self_iff.mpr hl

/-- **What trimming leaves has no blanks at its ends.** -/
theorem trim_trim (cs : List Char) : trim (trim cs) = trim cs := by
  refine trim_eq_self_iff.mpr ⟨fun c hc => ?_, ?_⟩
  · -- its first character is the first one behind the leading blanks
    obtain ⟨rest, hrest⟩ := trim_prefix_dropWhile cs
    have hhead : (cs.dropWhile isBlank).head? = some c := by
      rw [← hrest, List.head?_append, hc]
      rfl
    have hnot := List.head?_dropWhile_not isBlank cs
    rw [hhead] at hnot
    exact hnot
  · exact dropEndWhile_eq_self_iff.mp (List.rdropWhile_idempotent isBlank (trimStart cs))

theorem trim_eq_self_of_forall {cs : List Char} (h : ∀ c ∈ cs, isBlank c = false) :
    trim cs = cs :=
  trim_eq_self_iff.mpr
    ⟨fun c hc => h c (List.mem_of_mem_head? hc), fun c hc => h c (List.mem_of_mem_getLast? hc)⟩

/-- Characters in front do not bring back a blank at the end. -/
theorem trim_append_eq_self {xs cs : List Char} (hx : ∀ c ∈ xs, isBlank c = false)
    (hcs : trim cs = cs) : trim (xs ++ cs) = xs ++ cs := by
  obtain ⟨hh, hl⟩ := trim_eq_self_iff.mp hcs
  refine trim_eq_self_iff.mpr ⟨fun c hc => ?_, fun c hc => ?_⟩
  · -- the first character is the first one of what stands in front, if anything does
    rw [List.head?_append] at hc
    cases hxs : xs.head? with
    | none => exact hh c (by simpa [hxs] using hc)
    | some d =>
      have hd : d = c := by simpa [hxs] using hc
      exact hx c (List.mem_of_mem_head? (by rw [hxs, hd]; rfl))
  · rw [List.getLast?_append] at hc
    cases hcl : cs.getLast? with
    | none => exact hx c (List.mem_of_mem_getLast? (by simpa [hcl] using hc))
    | some d =>
      have hd : d = c := by simpa [hcl] using hc
      exact hl c (by rw [hcl, hd]; rfl)

/-! ### Words -/

section
variable {cs : List Char} (h : ∀ c ∈ cs, isBlank c = false)
include h

theorem wordsFrom_append (word rest : List Char) :
    wordsFrom word (cs ++ rest) = wordsFrom (cs.reverse ++ word) rest := by
  induction cs generalizing word with
  | nil => rfl
  | cons c cs ih =>
    have hc : ¬ isBlank c = true := by simp [h c]
    rw [List.cons_append, wordsFrom, if_neg hc, ih fun d hd => h d (List.mem_cons_of_mem c hd)]
    simp

/-- A text without blanks is one word. -/
theorem words_eq_singleton (hne : cs ≠ []) : words cs = [cs] := by
  have hrest := wordsFrom_append h [] []
  rw [List.append_nil, List.append_nil] at hrest
  rw [words, hrest, wordsFrom, if_neg (by simpa using hne), List.reverse_reverse]

/-- A blank ends a word. -/
theorem words_append_cons (hne : cs ≠ []) {b : Char} (hb : isBlank b = true)
    (rest : List Char) : words (cs ++ b :: rest) = cs :: words rest := by
  rw [words, wordsFrom_append h, List.append_nil, wordsFrom, if_pos hb,
    if_neg (by simpa using hne), List.reverse_reverse]
  rfl

end

end AchCourier.Text
