import TokenPatterns.Machine.Run
import TokenPatterns.Proofs.ClassLetters
import TokenPatterns.Proofs.Containment
import TokenPatterns.Search.Moved

/-!
# Texts in which a pattern matches alike

What stands before the place at which a match begins is seen only by what looks back. So a text may
be put in front of another one, and the matches of a pattern that never looks back are moved by its
length. And with ignored case a pattern does not see in which case a letter of ASCII is written:
its leaves and references take both cases as one letter, and anchors only ask for word characters
and line ends, of which the two cases of a letter are alike.
-/
namespace TokenPatterns

/-- A match in a text is moved with it into a text that reads alike. -/
theorem Pattern.matchAt?_moved {pattern : Pattern} {mapping : CaseMapping}
    {input other : Array Char} {offset : Nat}
    (hread : Subject.IsReadAt ⟨mapping, pattern.flags, input⟩ offset other)
    (hasks : ∀ part ∈ pattern.root.subtrees,
      part.AsksAlike ⟨mapping, pattern.flags, input⟩ offset other) (start : Nat) :
    pattern.program.matchAt? mapping other (offset + start) =
      (pattern.program.matchAt? mapping input start).map (offset + ·) := by
  have hstart : offset + start ≤ other.size ↔ start ≤ input.size := by
    rw [hread.size_eq]
    exact Nat.add_le_add_iff_left
  rw [Program.matchAt?_eq, Program.matchAt?_eq]
  simp only [Pattern.program, hstart]
  split
  · have hways : pattern.root.ways ⟨mapping, pattern.flags, other⟩ (some maxNesting)
        (offset + start) Captures.none =
          (pattern.root.ways ⟨mapping, pattern.flags, input⟩ (some maxNesting) start
            Captures.none).map (Way.moved offset) := by
      rw [← Node.ways_moved hread pattern.root hasks, Captures.moved_none]
      rfl
    rw [hways, List.head?_map, Option.map_map, Option.map_map]
    rfl
  · rfl

section Before

namespace Node

/-- Whether the node asks for what stands before a place. -/
def looksBack : Node → Bool
  | anchor .start => true
  | anchor .wordBoundary => true
  | anchor .nonWordBoundary => true
  | look kind _ => kind.behind
  | _ => false

end Node

theorem Subject.isReadAt_append (s : Subject) (before : Array Char) :
    s.IsReadAt before.size (before ++ s.input) := by
  refine ⟨Array.size_append, fun pos => ?_⟩
  rw [Array.getElem?_append_right (Nat.le_add_right _ _), Nat.add_sub_cancel_left]
  cases s.input[pos]? with
  | none => exact .none
  | some c => exact .some (.refl s c)

theorem Node.asksAlike_append (s : Subject) (before : Array Char) {node : Node}
    (h : node.looksBack = false) : node.AsksAlike s before.size (before ++ s.input) := by
  cases node with
  | anchor kind =>
    cases kind with
    | finish =>
      intro pos
      have hsize : (before.size + pos == (before ++ s.input).size) = (pos == s.input.size) := by
        rw [Array.size_append, Bool.eq_iff_iff, beq_iff_eq, beq_iff_eq]
        exact Nat.add_left_cancel_iff
      have hnext : (before ++ s.input)[before.size + pos]? = s.input[pos]? := by
        rw [Array.getElem?_append_right (Nat.le_add_right _ _), Nat.add_sub_cancel_left]
      simp only [Subject.holds, Subject.withInput, hsize, hnext]
    | _ => cases h
  | look kind inner =>
    intro hbehind
    rw [looksBack, hbehind] at h
    cases h
  | _ => trivial

/-- A pattern that never looks back matches in a text as in one with another text before it. -/
theorem Pattern.matchAt?_append {pattern : Pattern}
    (h : ∀ part ∈ pattern.root.subtrees, part.looksBack = false) (mapping : CaseMapping)
    (before input : Array Char) (start : Nat) :
    pattern.program.matchAt? mapping (before ++ input) (before.size + start) =
      (pattern.program.matchAt? mapping input start).map (before.size + ·) :=
  let s : Subject := ⟨mapping, pattern.flags, input⟩
  matchAt?_moved (s.isReadAt_append before)
    (fun part hpart => Node.asksAlike_append s before (h part hpart)) start

/-- A letter that is repeated to the end of the text, behind a lookahead that captured it. -/
theorem Pattern.matchAt?_append_of_repeated_look :
    let capture : Node := .group (some 1) (.repetition .plus (.literal 'a'))
    let pattern : Pattern :=
      ⟨.concat [.look ⟨false, false⟩ capture, .backreference 1, .anchor .finish], {}, ⟨rfl, rfl⟩⟩
    (∀ part ∈ pattern.root.subtrees, part.looksBack = false) ∧
      pattern.program.matchAt? .unicode (#['a', 'b'] ++ #['b', 'a', 'a']) (2 + 1) =
        (pattern.program.matchAt? .unicode #['b', 'a', 'a'] 1).map (2 + ·) ∧
      pattern.program.matchAt? .unicode #['b', 'a', 'a'] 1 = some 3 := by
  intro capture pattern
  have hback : ∀ part ∈ pattern.root.subtrees, part.looksBack = false := by decide
  refine ⟨hback, matchAt?_append hback .unicode #['a', 'b'] #['b', 'a', 'a'] 1, ?_⟩
  rw [Program.matchAt?_eq]
  decide +kernel

end Before

section Case

/-- Whether the characters are equal, or the two cases of one letter of ASCII. -/
def SameUpToCase (c d : Char) : Prop :=
  c = d ∨ c.isUpper = true ∧ d = c.toLower ∨ d.isUpper = true ∧ c = d.toLower
deriving Decidable

namespace SameUpToCase

variable {c d : Char}

theorem toUpper_eq (h : SameUpToCase c d) : c.toUpper = d.toUpper := by
  rcases h with rfl | ⟨-, rfl⟩ | ⟨-, rfl⟩
  · rfl
  · exact c.toUpper_toLower_eq_toUpper.symm
  · exact d.toUpper_toLower_eq_toUpper

theorem isAlpha (h : SameUpToCase c d) (hne : c ≠ d) : c.isAlpha = true ∧ d.isAlpha = true := by
  have hletter : ∀ e : Char, e.isUpper = true → e.isAlpha = true ∧ e.toLower.isAlpha = true := by
    intro e he
    rw [e.isAlpha_toLower_eq_isAlpha, Char.isAlpha, he]
    exact ⟨rfl, rfl⟩
  rcases h with heq | ⟨hupper, rfl⟩ | ⟨hupper, rfl⟩
  · exact absurd heq hne
  · exact hletter c hupper
  · exact (hletter d hupper).symm

theorem toNat_lt_of_isAlpha (h : c.isAlpha = true) : c.toNat < 128 := by
  simp only [Char.isAlpha, Char.isUpper, Char.isLower, Bool.or_eq_true, Bool.and_eq_true,
    decide_eq_true_eq, UInt32.le_iff_toNat_le] at h
  rcases h with h | h
  · exact Nat.lt_of_le_of_lt h.2 (by decide)
  · exact Nat.lt_of_le_of_lt h.2 (by decide)

theorem canonical_eq (mapping : CaseMapping) (h : SameUpToCase c d) :
    mapping.canonical c = mapping.canonical d := by
  by_cases hne : c = d
  · rw [hne]
  obtain ⟨hc, hd⟩ := h.isAlpha hne
  have hascii : CaseMapping.ascii.canonical c = CaseMapping.ascii.canonical d := by
    rw [CaseMapping.canonical_ascii, CaseMapping.canonical_ascii, h.toUpper_eq]
  cases mapping with
  | ascii => exact hascii
  | unicode =>
    rwa [(CaseMapping.unicode_eq_ascii (toNat_lt_of_isAlpha hc)).1,
      (CaseMapping.unicode_eq_ascii (toNat_lt_of_isAlpha hd)).1]

theorem isLineTerminator_eq (h : SameUpToCase c d) : isLineTerminator c = isLineTerminator d := by
  have hagree := CaseMapping.agree_true_iff.mpr (h.canonical_eq .ascii)
  rw [Bool.eq_iff_iff]
  exact ⟨CaseMapping.isLineTerminator_of_agree hagree,
    CaseMapping.isLineTerminator_of_agree (CaseMapping.agree_symm hagree)⟩

theorem isWordChar_eq (h : SameUpToCase c d) : isWordChar c = isWordChar d := by
  by_cases hne : c = d
  · rw [hne]
  · obtain ⟨hc, hd⟩ := h.isAlpha hne
    simp [isWordChar, Char.isAlphanum, hc, hd]

/-- A class has both cases of a letter of ASCII looked up, so it takes them as one. -/
theorem accepts_eq (mapping : CaseMapping) (set : CharClass) (h : SameUpToCase c d) :
    set.accepts mapping true c = set.accepts mapping true d := by
  by_cases hne : c = d
  · rw [hne]
  obtain ⟨hc, hd⟩ := h.isAlpha hne
  -- The items may hold one case alone, so they are not asked for the characters, but for the letter.
  have hdecides : ∀ e : Char, e.isAlpha = true → set.DecidesLetter mapping e := fun e he =>
    CharClass.decidesLetter_of_looksUpForms
      (CaseMapping.looksUpForms_of_lt mapping (toNat_lt_of_isAlpha he)) set
  have hholds : set.HoldsLetter mapping c ↔ set.HoldsLetter mapping d := by
    rw [CharClass.HoldsLetter, CharClass.HoldsLetter, h.canonical_eq mapping]
  have hfirst : set.accepts mapping true c = true ↔
      (set.HoldsLetter mapping c ↔ set.negated = false) := hdecides c hc
  have hsecond : set.accepts mapping true d = true ↔
      (set.HoldsLetter mapping d ↔ set.negated = false) := hdecides d hd
  rw [Bool.eq_iff_iff, hfirst, hsecond, hholds]

theorem readsAlike {s : Subject} (hignore : s.flags.ignoreCase = true) (h : SameUpToCase c d) :
    s.ReadsAlike c d := by
  constructor
  · intro letter
    rw [Subject.agree, Subject.agree, hignore, Bool.eq_iff_iff, CaseMapping.agree_true_iff,
      CaseMapping.agree_true_iff, h.canonical_eq s.mapping]
  · intro set
    rw [Subject.accepts, Subject.accepts, hignore, h.accepts_eq s.mapping set]
  · rw [Subject.acceptsAny, Subject.acceptsAny, h.isLineTerminator_eq]

end SameUpToCase

/-- Whether the texts differ at most in the case of letters of ASCII. -/
structure TextsSameUpToCase (input other : Array Char) : Prop where
  size_eq : input.size = other.size
  same : ∀ (pos : Nat) (c d : Char), input[pos]? = some c → other[pos]? = some d → SameUpToCase c d

namespace TextsSameUpToCase

variable {input other : Array Char} (h : TextsSameUpToCase input other)
include h

theorem rel (pos : Nat) : Option.Rel SameUpToCase input[pos]? other[pos]? := by
  have hsame := h.same pos
  by_cases hpos : pos < input.size
  · have hother : pos < other.size := h.size_eq ▸ hpos
    rw [Array.getElem?_eq_getElem hpos, Array.getElem?_eq_getElem hother] at hsame ⊢
    exact .some (hsame _ _ rfl rfl)
  · have hother : ¬ pos < other.size := h.size_eq ▸ hpos
    rw [Array.getElem?_eq_none (Nat.not_lt.mp hpos), Array.getElem?_eq_none (Nat.not_lt.mp hother)]
    exact .none

theorem any_eq {p : Char → Bool} (hp : ∀ c d, SameUpToCase c d → p c = p d) (pos : Nat) :
    other[pos]?.any p = input[pos]?.any p := by
  have hrel := h.rel pos
  generalize input[pos]? = c?, other[pos]? = d? at hrel
  cases hrel with
  | none => rfl
  | some hsame => exact (hp _ _ hsame).symm

theorem isReadAt {s : Subject} (hinput : s.input = input) (hignore : s.flags.ignoreCase = true) :
    s.IsReadAt 0 other := by
  subst hinput
  refine ⟨by rw [Nat.zero_add, h.size_eq], fun pos => ?_⟩
  have hrel := h.rel pos
  rw [Nat.zero_add]
  generalize s.input[pos]? = c?, other[pos]? = d? at hrel
  cases hrel with
  | none => exact .none
  | some hsame => exact .some (hsame.readsAlike hignore)

theorem holds_eq {s : Subject} (hinput : s.input = input) (kind : Anchor) (pos : Nat) :
    (s.withInput other).holds pos kind = s.holds pos kind := by
  subst hinput
  have hbefore : ∀ {p : Char → Bool}, (∀ c d, SameUpToCase c d → p c = p d) →
      ((s.withInput other).charBefore? pos).any p = (s.charBefore? pos).any p := by
    intro p hp
    cases pos with
    | zero => rfl
    | succ pos => exact h.any_eq hp pos
  have hline := fun c d (hsame : SameUpToCase c d) => hsame.isLineTerminator_eq
  have hword := fun c d (hsame : SameUpToCase c d) => hsame.isWordChar_eq
  have hboundary : (s.withInput other).isWordBoundary pos = s.isWordBoundary pos := by
    rw [Subject.isWordBoundary, Subject.isWordBoundary, hbefore hword]
    exact congrArg (_ != ·) (h.any_eq hword pos)
  cases kind with
  | start =>
    rw [Subject.holds, Subject.holds, hbefore hline]
    rfl
  | finish =>
    have hnext : (s.withInput other).input[pos]?.any isLineTerminator =
        s.input[pos]?.any isLineTerminator := h.any_eq hline pos
    rw [Subject.holds, Subject.holds, hnext, h.size_eq]
    rfl
  | wordBoundary => exact hboundary
  | nonWordBoundary => exact congrArg (!·) hboundary

end TextsSameUpToCase

/-- A pattern that ignores case matches alike in texts that differ in the case of letters of ASCII
alone. -/
theorem Pattern.matchAt?_of_sameUpToCase {pattern : Pattern}
    (hignore : pattern.flags.ignoreCase = true) (mapping : CaseMapping) {input other : Array Char}
    (h : TextsSameUpToCase input other) (start : Nat) :
    pattern.program.matchAt? mapping other start =
      pattern.program.matchAt? mapping input start := by
  let s : Subject := ⟨mapping, pattern.flags, input⟩
  have hasks : ∀ part ∈ pattern.root.subtrees, part.AsksAlike s 0 other := by
    intro part _
    cases part with
    | anchor kind =>
      intro pos
      rw [Nat.zero_add]
      exact h.holds_eq rfl kind pos
    | look kind inner => exact fun _ => rfl
    | _ => trivial
  have hread : s.IsReadAt 0 other := h.isReadAt rfl hignore
  simpa using matchAt?_moved hread hasks start

/-- An inverted class of one case, a reference to what it captured, and a word boundary. -/
theorem Pattern.matchAt?_of_sameUpToCase_of_inverted_class :
    let inverted : Node := .charClass { items := #[.single 97], negated := true }
    let pattern : Pattern :=
      ⟨.concat [.group (some 1) (.repetition .plus inverted), .backreference 1, .literal 'a',
        .anchor .wordBoundary], { ignoreCase := true }, ⟨rfl, rfl⟩⟩
    let input := #['x', 'B', 'c', 'b', 'C', 'A']
    let other := #['x', 'b', 'C', 'B', 'C', 'a']
    pattern.flags.ignoreCase = true ∧ TextsSameUpToCase input other ∧
      pattern.program.matchAt? .unicode other 1 = pattern.program.matchAt? .unicode input 1 ∧
      pattern.program.matchAt? .unicode input 1 = some 6 := by
  intro inverted pattern input other
  have hsame : TextsSameUpToCase input other := by
    have hcases : ∀ pos : Fin 6, SameUpToCase input[pos] other[pos] := by decide
    refine ⟨rfl, fun pos c d hc hd => ?_⟩
    obtain ⟨hpos, rfl⟩ := Array.getElem?_eq_some_iff.mp hc
    obtain ⟨-, rfl⟩ := Array.getElem?_eq_some_iff.mp hd
    exact hcases ⟨pos, hpos⟩
  refine ⟨rfl, hsame, matchAt?_of_sameUpToCase rfl .unicode hsame 1, ?_⟩
  rw [Program.matchAt?_eq]
  decide +kernel

end Case
end TokenPatterns
