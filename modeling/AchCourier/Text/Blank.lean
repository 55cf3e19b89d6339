/-!
# Blank characters

Bank files and settings are full of padding.  A character is *blank* when it has the Unicode
property `White_Space`; trimming drops blanks from the ends of a text and nothing else.

## Main definitions

* `isBlank` — the `White_Space` characters.
* `dropEndWhile` — a list without the run at its end that satisfies a test.
* `trimStart`, `trimEnd`, `trim` — a text without the blanks at its ends.
* `words` — the maximal runs of characters that are not blank.
* `split` — the parts of a text between the places of one character.
-/

namespace AchCourier.Text

/-- The characters with the Unicode property `White_Space`. -/
def isBlank (c : Char) : Bool :=
  let n := c.toNat
  (0x09 ≤ n && n ≤ 0x0D) || n == 0x20 || n == 0x85 || n == 0xA0 || n == 0x1680 ||
    (0x2000 ≤ n && n ≤ 0x200A) || n == 0x2028 || n == 0x2029 || n == 0x202F ||
    n == 0x205F || n == 0x3000

/-- A text without its leading blanks. -/
def trimStart (cs : List Char) : List Char :=
  cs.dropWhile isBlank

/-- A list without the longest run at its end whose members satisfy `p`: `List.rdropWhile`, put
together from the list functions that are at hand without a library. -/
def dropEndWhile {α : Type} (p : α → Bool) (as : List α) : List α :=
  (as.reverse.dropWhile p).reverse

/-- A text without its trailing blanks. -/
def trimEnd (cs : List Char) : List Char :=
  dropEndWhile isBlank cs

/-- A text without the blanks at both ends. -/
def trim (cs : List Char) : List Char :=
  trimEnd (trimStart cs)

@[simp] theorem trimStart_nil : trimStart [] = [] := rfl

@[simp] theorem trimEnd_nil : trimEnd [] = [] := rfl

@[simp] theorem trim_nil : trim [] = [] := rfl

/-- The words gathered from `cs`, with `word` the one being read, in reverse. -/
def wordsFrom (word : List Char) : List Char → List (List Char)
  | [] => if word.isEmpty then [] else [word.reverse]
  | c :: cs =>
      if isBlank c then
        (if word.isEmpty then [] else [word.reverse]) ++ wordsFrom [] cs
      else wordsFrom (c :: word) cs

/-- The maximal runs of characters that are not blank, from left to right. -/
def words (cs : List Char) : List (List Char) :=
  wordsFrom [] cs

/-- The string `s` without the blanks at both ends. -/
def trimmed (s : String) : String :=
  String.ofList (trim s.toList)

/-- The parts of the string `s` before, between and behind the places of `separator`; there is one
more of them than there are such places. -/
def split (separator : Char) (s : String) : List String :=
  (s.toList.splitOn separator).map String.ofList

/-- No part holds the member that a list is split at. -/
theorem notMem_of_mem_splitOn {α : Type} [DecidableEq α] {a : α} {as part : List α}
    (h : part ∈ as.splitOn a) : a ∉ part := by
  induction as generalizing part with
  | nil =>
    rw [List.splitOn_nil, List.mem_singleton] at h
    rw [h]
    exact List.not_mem_nil
  | cons b as ih =>
    obtain ⟨first, rest, hparts⟩ := List.exists_cons_of_ne_nil (List.splitOn_ne_nil a as)
    rw [List.splitOn_cons_eq_if_modifyHead, hparts, List.modifyHead_cons] at h
    rw [hparts] at ih
    split at h
    · rcases List.mem_cons.mp h with rfl | h
      · exact List.not_mem_nil
      · exact ih h
    · -- the member goes to the first part of the others
      next hb =>
      rcases List.mem_cons.mp h with rfl | h
      · rw [List.mem_cons, not_or]
        exact ⟨fun heq => hb (beq_of_eq heq.symm), ih List.mem_cons_self⟩
      · exact ih (List.mem_cons_of_mem first h)

end AchCourier.Text
