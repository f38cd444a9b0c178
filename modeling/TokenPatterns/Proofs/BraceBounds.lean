import TokenPatterns.Pattern
import TokenPatterns.Regex.Completeness
import TokenPatterns.Regex.Words

/-!
# Bounds of repetitions as they are written

The bounds in braces are numbers of any length, and are capped at the largest count when they are
read. It makes no difference whether that is done after each digit or once at the end. The bounds
are compared as capped, so that they are out of order if the upper one is below the lower one and
below the cap. Bounds that are both beyond the cap are equal.
-/
namespace TokenPatterns

namespace Regex

variable {least most : List Char}

/-- The text of a letter with bounds in braces behind it. -/
def boundedLetter (least most : List Char) : String :=
  String.ofList ('a' :: '\x7b' :: (least ++ ',' :: (most ++ ['\x7d'])))

/-- The bounds that digits denote if each number is capped as soon as it gets too large. -/
def cappedBounds (least most : List Char) : Quantifier :=
  ⟨cappedOfDigits 10 maxCount least, some (cappedOfDigits 10 maxCount most), true⟩

theorem cappedBounds_eq (least most : List Char) : cappedBounds least most =
    ⟨min (ofDigits 10 least) maxCount, some (min (ofDigits 10 most) maxCount), true⟩ := by
  have hten : 0 < 10 := by decide
  rw [cappedBounds, cappedOfDigits_eq_min hten, cappedOfDigits_eq_min hten]

theorem lex_boundedLetter (hleast : AreDigits 10 least) (hmost : AreDigits 10 most) :
    (lex (boundedLetter least most)).tokens = [⟨0, .literal 'a'⟩,
        ⟨1, .braces (cappedBounds least most).min (cappedBounds least most).max⟩] ∧
      (lex (boundedLetter least most)).mistake = none := by
  have hbraces : ∀ survey, readToken survey .outside 1 '\x7b'
      ⟨2, least ++ ',' :: (most ++ ['\x7d'])⟩ =
        (.ok (.braces (cappedBounds least most).min (cappedBounds least most).max),
          ⟨2 + least.length + 1 + most.length + 1, []⟩) := by
    intro survey
    simp only [readToken, readOutside, readBraces?_append hleast hmost, cappedBounds_eq]
  have hyields := yields_lex (boundedLetter least most)
  rw [Lexer.ofString, Source.ofString, boundedLetter, String.toList_ofList] at hyields
  exact hyields.unique (Lexer.yields_cons rfl (Lexer.yields_cons (hbraces _) (.finish rfl)))

theorem parseFrom_bounds {lexed : Lexed} (hmistake : lexed.mistake = none) (bounds : Quantifier)
    (hgreedy : bounds.greedy = true) :
    parseFrom lexed {} [] 0 [⟨0, .literal 'a'⟩, ⟨1, .braces bounds.min bounds.max⟩] =
      if bounds.inOrder then .ok (.repetition bounds (.literal 'a'))
      else .error (.boundsOutOfOrder 1) := by
  obtain ⟨min, max, greedy⟩ := bounds
  cases hgreedy
  rw [parseFrom_leaf (.literal 'a')]
  by_cases horder : Quantifier.inOrder ⟨min, max, true⟩ = true
  · have hrest : NotLazy [] := nofun
    rw [if_pos horder, parseFrom_greedy (.braces horder) rfl hrest, parseFrom_nil hmistake]
    rfl
  · rw [if_neg horder, parseFrom_quantifier rfl]
    simp only [Draft.repeatLast, Draft.add, if_neg horder]
    rfl

theorem parse_boundedLetter (hleast : AreDigits 10 least) (hmost : AreDigits 10 most) :
    parse (boundedLetter least most) = if (cappedBounds least most).inOrder
      then .ok (.repetition (cappedBounds least most) (.literal 'a'))
      else .error (.boundsOutOfOrder 1) := by
  obtain ⟨htokens, hmistake⟩ := lex_boundedLetter hleast hmost
  rw [parse, htokens]
  exact parseFrom_bounds hmistake _ rfl

theorem inOrder_cappedBounds : (cappedBounds least most).inOrder = true ↔
    ¬ (ofDigits 10 most < ofDigits 10 least ∧ ofDigits 10 most < maxCount) := by
  rw [cappedBounds_eq, Quantifier.inOrder, Option.all_some, decide_eq_true_eq]
  dsimp only
  omega

end Regex

namespace Pattern

open Regex

variable {least most : List Char}

/-- Bounds are out of order if the upper one is below the lower one, as the numbers that are
written, and below the largest count. Otherwise the letter is repeated, within the capped bounds. -/
theorem ofSource?_boundedLetter (hleast : AreDigits 10 least) (hmost : AreDigits 10 most)
    (flags : Flags) :
    (ofDigits 10 most < ofDigits 10 least ∧ ofDigits 10 most < maxCount →
        ofSource? (.regex (boundedLetter least most)) flags = .error (.boundsOutOfOrder 1)) ∧
      (¬ (ofDigits 10 most < ofDigits 10 least ∧ ofDigits 10 most < maxCount) →
        ∃ pattern, ofSource? (.regex (boundedLetter least most)) flags = .ok pattern ∧
          pattern.root = .repetition (cappedBounds least most) (.literal 'a') ∧
          pattern.flags = flags) := by
  have hparse := parse_boundedLetter hleast hmost
  constructor
  · intro hless
    rw [if_neg fun horder => inOrder_cappedBounds.mp horder hless] at hparse
    exact ofSource?_of_parse_eq_error hparse flags
  · intro hnot
    rw [if_pos (inOrder_cappedBounds.mpr hnot)] at hparse
    exact ofSource?_regex_iff.mpr hparse

/-- Zeros in front change nothing, and a lower bound beyond the largest count is still too large. -/
theorem ofSource?_boundedLetter_of_leading_zeros :
    let least := "00004294967296".toList
    let most := "04294967294".toList
    AreDigits 10 least ∧ AreDigits 10 most ∧
      (ofDigits 10 most < ofDigits 10 least ∧ ofDigits 10 most < maxCount) ∧
      ofSource? (.regex (boundedLetter least most)) {} = .error (.boundsOutOfOrder 1) := by
  intro least most
  have hleast : AreDigits 10 least := by decide +kernel
  have hmost : AreDigits 10 most := by decide +kernel
  have hless : ofDigits 10 most < ofDigits 10 least ∧ ofDigits 10 most < maxCount := by
    decide +kernel
  exact ⟨hleast, hmost, hless, (ofSource?_boundedLetter hleast hmost {}).1 hless⟩

/-- Bounds that are both beyond the cap are not told apart. -/
theorem ofSource?_ok_of_bounds_beyond_cap :
    let least := "4294967296".toList
    let most := "4294967295".toList
    AreDigits 10 least ∧ AreDigits 10 most ∧ ofDigits 10 most < ofDigits 10 least ∧
      ofSource? (.regex (boundedLetter least most)) {} ≠ .error (.boundsOutOfOrder 1) := by
  intro least most
  have hleast : AreDigits 10 least := by decide +kernel
  have hmost : AreDigits 10 most := by decide +kernel
  have horder : (cappedBounds least most).inOrder = true := by decide +kernel
  have hparse := parse_boundedLetter hleast hmost
  rw [if_pos horder] at hparse
  obtain ⟨pattern, hpattern, -⟩ := (@ofSource?_regex_iff _ {} _).mpr hparse
  refine ⟨hleast, hmost, by decide +kernel, ?_⟩
  rw [hpattern]
  nofun

end Pattern
end TokenPatterns
