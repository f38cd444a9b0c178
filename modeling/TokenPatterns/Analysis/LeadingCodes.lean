import TokenPatterns.Analysis.CodeList
import TokenPatterns.Pattern
import TokenPatterns.Pattern.Beginnings

/-!
# Leading codes

The characters that a match can begin with, as a list. The list is complete if the tree is
enumerable. A class that covers most of the code space, any character, and a reference whose text
is not known cannot be listed. A lookaround adds nothing: it reads the text beside the match.
-/
namespace TokenPatterns

/-- What is known of the first characters of a match beside their list. -/
structure LeadingOutcome where
  /-- The match may be empty. -/
  nullable : Bool
  /-- All first characters were listed. -/
  enumerable : Bool
deriving DecidableEq

namespace LeadingOutcome

def consumes : LeadingOutcome := ⟨false, true⟩

def empty : LeadingOutcome := ⟨true, true⟩

def unknown : LeadingOutcome := ⟨false, false⟩

end LeadingOutcome

structure LeadingCodes where
  codes : Array Nat
  nullable : Bool
  enumerable : Bool
deriving DecidableEq

namespace Node

mutual

/-- Adds the first characters of a node to a list. Only what a match can reach is looked at: of a
concatenation the items up to the first that takes up characters or cannot be listed. -/
def addLeadingCodes (mapping : CaseMapping) (ignoreCase : Bool) :
    Node → CodeList → LeadingOutcome × CodeList
  | literal c, list => (.consumes, list.addCased mapping ignoreCase c.toNat)
  | charClass set, list =>
    if set.isUnbounded then (.unknown, list)
    else
      (.consumes, set.items.foldl
        (fun list item => item.codes.foldl (CodeList.addCased mapping ignoreCase) list) list)
  | anyChar, list => (.unknown, list)
  | backreference _, list => (.unknown, list)
  | anchor _, list => (.empty, list)
  | look .., list => (.empty, list)
  | group _ inner, list => addLeadingCodes mapping ignoreCase inner list
  | concat items, list => addSequenceCodes mapping ignoreCase items list
  | alternation branches, list => addBranchCodes mapping ignoreCase branches list
  | repetition quantifier inner, list =>
    let (outcome, list) := addLeadingCodes mapping ignoreCase inner list
    ({ outcome with nullable := outcome.nullable || quantifier.isOptional }, list)

def addSequenceCodes (mapping : CaseMapping) (ignoreCase : Bool) :
    List Node → CodeList → LeadingOutcome × CodeList
  | [], list => (.empty, list)
  | item :: items, list =>
    let (outcome, list) := addLeadingCodes mapping ignoreCase item list
    if !outcome.enumerable then (.unknown, list)
    else if !outcome.nullable then (.consumes, list)
    else addSequenceCodes mapping ignoreCase items list

def addBranchCodes (mapping : CaseMapping) (ignoreCase : Bool) :
    List Node → CodeList → LeadingOutcome × CodeList
  | [], list => (.consumes, list)
  | branch :: branches, list =>
    let (first, list) := addLeadingCodes mapping ignoreCase branch list
    let (others, list) := addBranchCodes mapping ignoreCase branches list
    (⟨first.nullable || others.nullable, first.enumerable && others.enumerable⟩, list)

end

def leadingCodes (mapping : CaseMapping) (ignoreCase : Bool) (node : Node) : LeadingCodes :=
  let (outcome, list) := node.addLeadingCodes mapping ignoreCase {}
  ⟨list.codes, outcome.nullable, outcome.enumerable⟩

section Nullable

variable {mapping : CaseMapping} {ignoreCase : Bool}

mutual

/-- Where the first characters of a node are listed, it is called nullable if it may be empty. -/
theorem nullable_addLeadingCodes : ∀ (node : Node) (list : CodeList),
    let result := node.addLeadingCodes mapping ignoreCase list
    result.1.enumerable = true → result.1.nullable = node.mayBeEmpty
  | literal _, _ => fun _ => rfl
  | charClass set, _ => by
    intro result henumerable
    simp only [result, addLeadingCodes] at henumerable ⊢
    split at henumerable
    · cases henumerable
    · next hbounded =>
      rw [if_neg hbounded]
      rfl
  | anyChar, _ => nofun
  | anchor _, _ => fun _ => rfl
  | look _ _, _ => fun _ => rfl
  | backreference _, _ => nofun
  | group _ inner, list => nullable_addLeadingCodes inner list
  | concat items, list => nullable_addSequenceCodes items list
  | alternation branches, list => nullable_addBranchCodes branches list
  | repetition quantifier inner, list => by
    intro result henumerable
    exact congrArg (· || quantifier.isOptional) (nullable_addLeadingCodes inner list henumerable)

theorem nullable_addSequenceCodes : ∀ (items : List Node) (list : CodeList),
    let result := addSequenceCodes mapping ignoreCase items list
    result.1.enumerable = true → result.1.nullable = allMayBeEmpty items
  | [], _ => fun _ => rfl
  | item :: items, list => by
    intro result henumerable
    have hitem := nullable_addLeadingCodes item list
    simp only [result, addSequenceCodes] at henumerable ⊢
    split at henumerable
    · cases henumerable
    · next hlisted =>
      rw [if_neg hlisted, allMayBeEmpty, ← hitem (by simpa using hlisted)]
      split
      · next hconsumes =>
        rw [Bool.not_eq_true'] at hconsumes
        rw [hconsumes]
        rfl
      · next hempty =>
        rw [if_neg hempty] at henumerable
        rw [Bool.not_eq_true', Bool.not_eq_false] at hempty
        rw [hempty, Bool.true_and]
        exact nullable_addSequenceCodes items _ henumerable

theorem nullable_addBranchCodes : ∀ (branches : List Node) (list : CodeList),
    let result := addBranchCodes mapping ignoreCase branches list
    result.1.enumerable = true → result.1.nullable = anyMayBeEmpty branches
  | [], _ => fun _ => rfl
  | branch :: branches, list => by
    intro result henumerable
    simp only [result, addBranchCodes, Bool.and_eq_true] at henumerable ⊢
    rw [nullable_addLeadingCodes branch list henumerable.1,
      nullable_addBranchCodes branches _ henumerable.2, anyMayBeEmpty]

end

theorem nullable_leadingCodes {node : Node}
    (henumerable : (node.leadingCodes mapping ignoreCase).enumerable = true) :
    (node.leadingCodes mapping ignoreCase).nullable = node.mayBeEmpty :=
  nullable_addLeadingCodes node {} henumerable

end Nullable

end Node

/-- The leading codes of a pattern, or none if they cannot be listed. An empty list says that
nothing is known. `ignoreCase?` overrides the flag of the pattern. -/
def Pattern.leadingCodes (mapping : CaseMapping) (ignoreCase? : Option Bool) (pattern : Pattern) :
    Array Nat :=
  let result := pattern.root.leadingCodes mapping (ignoreCase?.getD pattern.flags.ignoreCase)
  if result.enumerable then result.codes else #[]

end TokenPatterns
