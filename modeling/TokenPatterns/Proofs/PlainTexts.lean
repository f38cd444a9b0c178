import TokenPatterns.Proofs.FirstHits
import TokenPatterns.Proofs.SplitRepetitions
import TokenPatterns.Regex.Protected

/-!
# Patterns of plain texts

The pattern of a plain text matches where the text stands, character by character. The regular
expression in which the text is protected is read as the same characters, one after the other. It
differs from the pattern of the text only where there is one character, which is then no sequence.
Neither a run nor an analysis sees that.
-/
namespace TokenPatterns

namespace Subject

/-- Whether the text stands in the input at `start`, as characters are compared. -/
def HasText (s : Subject) (text : List Char) (start : Nat) : Prop :=
  ∃ _ : start + text.length ≤ s.input.size,
    ∀ k (_ : k < text.length), s.agree text[k] s.input[start + k] = true

instance (s : Subject) (text : List Char) (start : Nat) : Decidable (s.HasText text start) :=
  inferInstanceAs (Decidable (∃ _ : _, _))

variable {s : Subject} {start : Nat}

theorem hasText_nil : s.HasText [] start ↔ start ≤ s.input.size :=
  ⟨fun ⟨hsize, _⟩ => hsize, fun hsize => ⟨hsize, nofun⟩⟩

theorem hasText_cons {c : Char} {text : List Char} : s.HasText (c :: text) start ↔
    s.input[start]?.any (s.agree c) = true ∧ s.HasText text (start + 1) := by
  constructor
  · rintro ⟨hsize, hagree⟩
    rw [List.length_cons] at hsize
    have hstart : start < s.input.size := by omega
    refine ⟨?_, by omega, fun k hk => ?_⟩
    · rw [Array.getElem?_eq_getElem hstart]
      exact hagree 0 (Nat.succ_pos _)
    · have hlater := hagree (k + 1) (Nat.succ_lt_succ hk)
      simpa only [List.getElem_cons_succ, Nat.add_assoc, Nat.add_comm 1 k] using hlater
  · rintro ⟨hfirst, hsize, hagree⟩
    obtain ⟨d, hd, hagreed⟩ := (Option.any_eq_true _ _).mp hfirst
    obtain ⟨hstart, rfl⟩ := Array.getElem?_eq_some_iff.mp hd
    refine ⟨by rw [List.length_cons]; omega, fun k hk => ?_⟩
    cases k with
    | zero => exact hagreed
    | succ k =>
      have hlater := hagree k (Nat.lt_of_succ_lt_succ hk)
      simpa only [List.getElem_cons_succ, Nat.add_assoc, Nat.add_comm 1 k] using hlater

end Subject

namespace Node

theorem waysAll_literals {s : Subject} {nesting? : Option Nat} (text : List Char) {pos : Nat}
    (hpos : pos ≤ s.input.size) (captures : Captures) :
    waysAll s (text.map .literal) nesting? pos captures =
      if s.HasText text pos then [⟨pos + text.length, captures⟩] else [] := by
  induction text generalizing pos with
  | nil => rw [if_pos (Subject.hasText_nil.mpr hpos)]; rfl
  | cons c text ih =>
    simp only [List.map_cons, waysAll, ways, Search.take, Subject.hasText_cons]
    by_cases hfirst : s.input[pos]?.any (s.agree c) = true
    · have hnext : pos + 1 ≤ s.input.size := by
        obtain ⟨d, hd, -⟩ := (Option.any_eq_true _ _).mp hfirst
        exact (Array.getElem?_eq_some_iff.mp hd).1
      simp only [hfirst, if_true, true_and, List.flatMap_singleton, ih hnext, List.length_cons,
        Nat.add_assoc, Nat.add_comm 1]
    · rw [if_neg hfirst, if_neg fun h => hfirst h.1]
      rfl

/-- What comes first in a sequence of one is what comes first in that one. -/
theorem hit_sequenceNode (candidates : Candidates) (items : List Node) :
    ((Regex.sequenceNode items).firstHit candidates).hit =
      ((concat items).firstHit candidates).hit := by
  unfold Regex.sequenceNode
  split
  · next item =>
    rw [firstHit, hit_firstHitOfSequence, firstHitOfSequence, Bool.and_false, Bool.or_false]
  · rfl

/-- The list of first characters is made for a sequence of one as for that one, also as far as it
goes. -/
theorem leadingCodes_sequenceNode (mapping : CaseMapping) (ignoreCase : Bool)
    (items : List Node) :
    let single := (Regex.sequenceNode items).leadingCodes mapping ignoreCase
    let sequence := (concat items).leadingCodes mapping ignoreCase
    single.enumerable = sequence.enumerable ∧ single.codes = sequence.codes := by
  unfold Regex.sequenceNode
  split
  · next item =>
    simp only [leadingCodes, addLeadingCodes, addSequenceCodes]
    cases henumerable : (item.addLeadingCodes mapping ignoreCase {}).1.enumerable with
    | false => exact ⟨rfl, rfl⟩
    | true =>
      cases (item.addLeadingCodes mapping ignoreCase {}).1.nullable <;> exact ⟨rfl, rfl⟩
  · exact ⟨rfl, rfl⟩

end Node

namespace Pattern

theorem matchAt?_literal (text : String) (flags : Flags) (mapping : CaseMapping)
    (input : Array Char) (start : Nat) :
    (literal text flags).program.matchAt? mapping input start =
      if Subject.HasText ⟨mapping, flags, input⟩ text.toList start then some (start + text.length)
      else none := by
  simp only [Program.matchAt?_eq, Pattern.program, literal, Node.ways, ← String.length_toList]
  by_cases hstart : start ≤ input.size
  · rw [if_pos hstart, Node.waysAll_literals text.toList hstart]
    split <;> rfl
  · rw [if_neg hstart, if_neg]
    rintro ⟨hsize, -⟩
    exact hstart (Nat.le_of_add_right_le hsize)

/-- A pattern of a sequence cannot be told from one that is no sequence where it has one item. -/
theorem alike_of_sequenceNode {pattern sequence : Pattern} {items : List Node}
    (hroot : pattern.root = Regex.sequenceNode items) (hsequence : sequence.root = .concat items)
    (hflags : pattern.flags = sequence.flags) (mapping : CaseMapping) :
    (∀ (input : Array Char) (start : Nat), pattern.program.matchAt? mapping input start =
        sequence.program.matchAt? mapping input start) ∧
      (∀ ignoreCase? : Option Bool, pattern.leadingCodes mapping ignoreCase? =
        sequence.leadingCodes mapping ignoreCase?) ∧
      ∀ codes : List Nat, pattern.canStartWith mapping codes =
        sequence.canStartWith mapping codes := by
  refine ⟨fun input start => ?_, fun ignoreCase? => ?_, fun codes => ?_⟩
  · simp only [Program.matchAt?_eq, Pattern.program, hroot, hsequence, hflags,
      Node.ways_sequenceNode, Node.ways]
  · obtain ⟨henumerable, hcodes⟩ := Node.leadingCodes_sequenceNode mapping
      (ignoreCase?.getD sequence.flags.ignoreCase) items
    simp only [leadingCodes, hroot, hsequence, hflags, henumerable, hcodes]
  · rw [canStartWith, canStartWith, hroot, hsequence, hflags, Node.hit_sequenceNode]

/-- The pattern of a text matches where the text stands. The regular expression that protects the
text is read as its characters one after the other, and cannot be told from the pattern of it. -/
theorem literal_matches_text (text : String) (flags : Flags) :
    (∀ (mapping : CaseMapping) (input : Array Char) (start : Nat),
      (literal text flags).program.matchAt? mapping input start =
        if Subject.HasText ⟨mapping, flags, input⟩ text.toList start then
          some (start + text.length)
        else none) ∧
      ∃ pattern, ofSource? (.regex (String.ofList (Regex.protect text.toList))) flags =
          .ok pattern ∧
        pattern.flags = flags ∧ pattern.captureCount = 0 ∧
        pattern.root = Regex.sequenceNode (text.toList.map .literal) ∧
        ∀ mapping : CaseMapping,
          (∀ (input : Array Char) (start : Nat),
            pattern.program.matchAt? mapping input start =
              (literal text flags).program.matchAt? mapping input start) ∧
          (∀ ignoreCase? : Option Bool, pattern.leadingCodes mapping ignoreCase? =
            (literal text flags).leadingCodes mapping ignoreCase?) ∧
          ∀ codes : List Nat, pattern.canStartWith mapping codes =
            (literal text flags).canStartWith mapping codes := by
  refine ⟨matchAt?_literal text flags, ?_⟩
  have hread : ∃ pattern, ofSource? (.regex (String.ofList (Regex.protect text.toList))) flags =
        .ok pattern ∧
      pattern.root = Regex.sequenceNode (text.toList.map .literal) ∧ pattern.flags = flags :=
    ofSource?_regex_iff.mpr (Regex.parse_protect text.toList)
  obtain ⟨pattern, hpattern, hroot, hflags⟩ := hread
  have hclosed : (Regex.sequenceNode (text.toList.map .literal)).IsClosed := by
    refine .sequenceNode fun item hitem => ?_
    obtain ⟨c, -, rfl⟩ := List.mem_map.mp hitem
    exact ⟨rfl, rfl⟩
  have hcount : pattern.captureCount = 0 := by
    rw [captureCount, pattern.isRoot.lastCapture_eq, hroot, hclosed.captures_eq]
    rfl
  exact ⟨pattern, hpattern, hflags, hcount, hroot, alike_of_sequenceNode hroot rfl hflags⟩

end Pattern
end TokenPatterns
