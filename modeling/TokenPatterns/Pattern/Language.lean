import Mathlib.Computability.Language
import TokenPatterns.Pattern
import TokenPatterns.Text.Characters

/-!
# Languages of trees

A tree that asks nothing of the text around a match, nor of what was captured before, stands for a
set of words. A leaf stands for the words of one character that it accepts, a concatenation for a
product, an alternation for a union, and a repetition for the powers within its bounds.
-/
namespace TokenPatterns

/-- Whether a repetition may consist of so many laps. -/
def Quantifier.allows (quantifier : Quantifier) (count : Nat) : Prop :=
  quantifier.min ≤ count ∧ ∀ bound ∈ quantifier.max, count ≤ bound

/-- The words that consist of as many words of a language as a repetition may have laps. -/
def Quantifier.powers (quantifier : Quantifier) (language : Language Char) : Language Char :=
  {word | ∃ count, quantifier.allows count ∧ word ∈ language ^ count}

namespace Node

mutual

/-- Whether the tree has neither assertions nor references in it. -/
def isRegular : Node → Bool
  | anchor _ => false
  | look .. => false
  | backreference _ => false
  | group _ inner => isRegular inner
  | concat items => allRegular items
  | alternation branches => allRegular branches
  | repetition _ inner => isRegular inner
  | _ => true

def allRegular : List Node → Bool
  | [] => true
  | node :: nodes => isRegular node && allRegular nodes

end

theorem allRegular_cons {node : Node} {nodes : List Node} : allRegular (node :: nodes) = true ↔
    node.isRegular = true ∧ allRegular nodes = true := by
  rw [allRegular, Bool.and_eq_true]

def oneChar (p : Char → Bool) : Language Char := {word | ∃ c, p c = true ∧ word = [c]}

mutual

/-- The words that a regular tree stands for, if its leaves are read under the given flags. -/
def language (mapping : CaseMapping) (flags : Flags) : Node → Language Char
  | literal c => oneChar (mapping.agree flags.ignoreCase c)
  | charClass set => oneChar (set.accepts mapping flags.ignoreCase)
  | anyChar => oneChar fun c => flags.dotAll || !isLineTerminator c
  | group _ inner => language mapping flags inner
  | concat items => sequenceLanguage mapping flags items
  | alternation branches => unionLanguage mapping flags branches
  | repetition quantifier inner =>
    quantifier.powers (language mapping flags inner)
  | _ => 0

def sequenceLanguage (mapping : CaseMapping) (flags : Flags) : List Node → Language Char
  | [] => 1
  | item :: items => language mapping flags item * sequenceLanguage mapping flags items

def unionLanguage (mapping : CaseMapping) (flags : Flags) : List Node → Language Char
  | [] => 0
  | branch :: branches => language mapping flags branch + unionLanguage mapping flags branches

end

theorem language_group (mapping : CaseMapping) (flags : Flags) (capture : Option Nat)
    (inner : Node) : (group capture inner).language mapping flags = inner.language mapping flags :=
  rfl

end Node

def Pattern.language (pattern : Pattern) (mapping : CaseMapping) : Language Char :=
  pattern.root.language mapping pattern.flags

/-- The text from `start` to `stop` is a word of the language. -/
structure Spans (input : Array Char) (language : Language Char) (start stop : Nat) : Prop where
  le : start ≤ stop
  stop_le : stop ≤ input.size
  mem : (input.extract start stop).toList ∈ language

namespace Spans

variable {input : Array Char} {first second : Language Char} {start stop : Nat}

theorem one_iff : Spans input 1 start stop ↔ stop = start ∧ start ≤ input.size := by
  constructor
  · rintro ⟨hle, hsize, hmem⟩
    rw [Language.mem_one, ← List.length_eq_zero_iff] at hmem
    simp only [Array.length_toList, Array.size_extract] at hmem
    omega
  · rintro ⟨rfl, hsize⟩
    exact ⟨Nat.le_refl _, hsize, by simp [Language.mem_one]⟩

theorem add_iff : Spans input (first + second) start stop ↔
    Spans input first start stop ∨ Spans input second start stop := by
  constructor
  · rintro ⟨hle, hsize, hmem⟩
    rcases (Language.mem_add _ _ _).mp hmem with hfirst | hsecond
    · exact .inl ⟨hle, hsize, hfirst⟩
    · exact .inr ⟨hle, hsize, hsecond⟩
  · rintro (h | h)
    · exact ⟨h.le, h.stop_le, (Language.mem_add _ _ _).mpr (.inl h.mem)⟩
    · exact ⟨h.le, h.stop_le, (Language.mem_add _ _ _).mpr (.inr h.mem)⟩

theorem mul_iff : Spans input (first * second) start stop ↔
    ∃ middle, Spans input first start middle ∧ Spans input second middle stop := by
  constructor
  · rintro ⟨hle, hsize, hmem⟩
    obtain ⟨u, hu, v, hv, huv⟩ := Language.mem_mul.mp hmem
    have hlength : u.length + v.length = stop - start := by
      have := congrArg List.length huv
      simp only [List.length_append, Array.length_toList, Array.size_extract] at this
      omega
    have hjoin : (input.extract start (start + u.length)).toList ++
        (input.extract (start + u.length) stop).toList = u ++ v := by
      rw [huv, ← Array.toList_append, Array.extract_append_extract, Nat.min_eq_left (by omega),
        Nat.max_eq_right (by omega)]
    obtain ⟨hfirst, hsecond⟩ := List.append_inj hjoin (by
      simp only [Array.length_toList, Array.size_extract]
      omega)
    refine ⟨start + u.length, ⟨by omega, by omega, ?_⟩, by omega, hsize, ?_⟩
    · rwa [hfirst]
    · rwa [hsecond]
  · rintro ⟨middle, hfirst, hsecond⟩
    refine ⟨Nat.le_trans hfirst.le hsecond.le, hsecond.stop_le, ?_⟩
    rw [Language.mem_mul]
    refine ⟨_, hfirst.mem, _, hsecond.mem, ?_⟩
    rw [← Array.toList_append, Array.extract_append_extract, Nat.min_eq_left hfirst.le,
      Nat.max_eq_right hsecond.le]

theorem oneChar_iff {p : Char → Bool} : Spans input (Node.oneChar p) start stop ↔
    stop = start + 1 ∧ input[start]?.any p = true := by
  have hslice : (input.extract start (start + 1)).toList = input[start]?.toList := by
    rw [Array.toList_extract, List.extract_eq_take_drop, Nat.add_sub_cancel_left, List.take_one,
      List.head?_drop, Array.getElem?_toList]
  constructor
  · rintro ⟨hle, hsize, c, hc, hword⟩
    have hlength := congrArg List.length hword
    simp only [Array.length_toList, Array.size_extract, List.length_singleton] at hlength
    obtain rfl : stop = start + 1 := by omega
    rw [hslice, Option.toList_eq_singleton_iff] at hword
    exact ⟨rfl, by rw [hword, Option.any_some, hc]⟩
  · rintro ⟨rfl, hany⟩
    obtain ⟨c, hc, hp⟩ := (Option.any_eq_true _ _).mp hany
    have hlt := (Array.getElem?_eq_some_iff.mp hc).1
    exact ⟨Nat.le_succ _, hlt, c, hp, by rw [hslice, hc, Option.toList_some]⟩

end Spans
end TokenPatterns
