import TokenPatterns.Regex.Completeness
import TokenPatterns.Regex.Words

/-!
# Texts that stand for themselves

Outside of classes a character stands for itself, unless it is one of a few special ones, and each
of these does so behind a backslash. Whatever follows on it, a character is read on its own. So a
text in which the special characters are protected is read as the sequence of its characters.
-/
namespace TokenPatterns
namespace Regex

/-- The characters that mean something else outside of classes. -/
def specialChars : List Char :=
  ['\\', '^', '$', '.', '*', '+', '?', '(', ')', '[', ']', '\x7b', '\x7d', '|']

/-- The text with a backslash before each special character. -/
def protect (text : List Char) : List Char :=
  text.flatMap fun c => if c ∈ specialChars then ['\\', c] else [c]

/-- What a character of a protected text is read as. -/
def protectedToken (c : Char) : Token :=
  if c ∈ specialChars then .escaped c else .literal c

theorem protect_cons_of_special {c : Char} (h : c ∈ specialChars) (text : List Char) :
    protect (c :: text) = '\\' :: c :: protect text := by
  rw [protect, List.flatMap_cons, if_pos h]
  rfl

theorem protect_cons_of_not_special {c : Char} (h : c ∉ specialChars) (text : List Char) :
    protect (c :: text) = c :: protect text := by
  rw [protect, List.flatMap_cons, if_neg h]
  rfl

section Reading

variable {survey : GroupSurvey} {c : Char}

/-- A special character has no meaning of its own behind a backslash. -/
theorem readsAs_special (h : c ∈ specialChars) (text : List Char) :
    ReadsAs survey .outside '\\' (c :: text) (.escaped c) text := by
  intro pos
  refine ⟨pos + 1 + 1, ?_⟩
  simp only [specialChars, List.mem_cons, List.not_mem_nil, or_false] at h
  rcases h with rfl | rfl | rfl | rfl | rfl | rfl | rfl | rfl | rfl | rfl | rfl | rfl | rfl | rfl
  all_goals rfl

/-- A character that is not special is read without a look at what follows. -/
theorem readsAs_plain (h : c ∉ specialChars) (text : List Char) :
    ReadsAs survey .outside c text (.literal c) text := by
  intro pos
  refine ⟨pos + 1, ?_⟩
  simp only [readToken]
  unfold readOutside
  split
  case h_13 => rfl
  all_goals exact absurd (by decide) h

theorem lexes_protect (text : List Char) :
    Lexes survey .outside (protect text) (text.map protectedToken) := by
  induction text with
  | nil => exact .nil .outside
  | cons c text ih =>
    rw [List.map_cons, protectedToken]
    by_cases hspecial : c ∈ specialChars
    · rw [protect_cons_of_special hspecial, if_pos hspecial]
      exact .cons (readsAs_special hspecial _) ih
    · have hafter : Context.outside.after c = .outside := by
        refine if_neg ?_
        rintro rfl
        exact hspecial (by decide)
      rw [protect_cons_of_not_special hspecial, if_neg hspecial]
      exact .cons (readsAs_plain hspecial _) (by rw [hafter]; exact ih)

end Reading

theorem lex_protect (text : List Char) :
    (lex (String.ofList (protect text))).tokens.map PlacedToken.token = text.map protectedToken ∧
      (lex (String.ofList (protect text))).mistake = none := by
  have hlexes : Lexes (.ofText (protect text)) .outside (protect text) (text.map protectedToken) :=
    lexes_protect text
  obtain ⟨placed, htokens, hyields⟩ := hlexes 0
  have hlex := yields_lex (String.ofList (protect text))
  rw [Lexer.ofString, Source.ofString, String.toList_ofList] at hlex
  obtain ⟨hplaced, hmistake⟩ := hlex.unique hyields
  exact ⟨hplaced ▸ htokens, hmistake⟩

theorem isLeaf_protectedToken (c : Char) : IsLeaf (protectedToken c) (.literal c) := by
  unfold protectedToken
  split
  · exact .escaped c
  · exact .literal c

theorem derives_protect (text : List Char) (n : Nat) :
    Derives .sequence n (text.map protectedToken) (text.map .literal) n := by
  induction text with
  | nil => exact .empty n
  | cons c text ih => exact .items (.bare (.leaf (isLeaf_protectedToken c))) ih

/-- A protected text is read as a literal for each of its characters. -/
theorem parse_protect (text : List Char) :
    parse (String.ofList (protect text)) = .ok (sequenceNode (text.map .literal)) := by
  obtain ⟨htokens, hmistake⟩ := lex_protect text
  apply parse_of_derivesTree hmistake
  rw [htokens]
  exact ⟨[sequenceNode (text.map .literal)], 0, .branch (derives_protect text 0), rfl⟩

end Regex
end TokenPatterns
