import TokenPatterns.Analysis.LeadingCodes

/-!
# Leading codes part by part

What is known of the first characters of a tree is put together from what is known of each of its
parts taken by itself. Nothing is passed from one part to the next. Codes that come up again are
dropped where the parts are put together.
-/
namespace TokenPatterns

/-- A code point and, with `ignoreCase`, its variant behind it. -/
def CaseMapping.forms (mapping : CaseMapping) (ignoreCase : Bool) (code : Nat) : List Nat :=
  code :: if ignoreCase then (mapping.variant? code).toList else []

@[simp] theorem CaseMapping.forms_false (mapping : CaseMapping) (code : Nat) :
    mapping.forms false code = [code] := rfl

namespace LeadingCodes

def ofCodes (codes : List Nat) : LeadingCodes := ⟨codes.eraseDups.toArray, false, true⟩

/-- The codes of all parts, each where it comes up first. -/
def joined (parts : List LeadingCodes) : Array Nat :=
  (parts.flatMap (·.codes.toList)).eraseDups.toArray

/-- Whether a match of the part may be empty, so that what follows on it can come first. Of a part
that is not listed this does not matter. -/
def isPassed (part : LeadingCodes) : Bool := part.enumerable && part.nullable

/-- The parts up to the first that is not passed. -/
def reached : List LeadingCodes → List LeadingCodes
  | [] => []
  | part :: parts => if part.isPassed then part :: reached parts else [part]

def ofSequence (parts : List LeadingCodes) : LeadingCodes where
  codes := joined (reached parts)
  nullable := parts.all isPassed
  enumerable := (reached parts).all enumerable

def ofBranches (parts : List LeadingCodes) : LeadingCodes where
  codes := joined parts
  nullable := parts.any nullable
  enumerable := parts.all enumerable

theorem mem_ofCodes {codes : List Nat} {code : Nat} :
    code ∈ (ofCodes codes).codes ↔ code ∈ codes := by
  simp [ofCodes, List.mem_eraseDups]

theorem mem_joined {parts : List LeadingCodes} {code : Nat} :
    code ∈ joined parts ↔ ∃ part ∈ parts, code ∈ part.codes := by
  simp [joined, List.mem_eraseDups]

section Sequence

variable {part : LeadingCodes}

theorem isPassed_iff : part.isPassed = true ↔ part.enumerable = true ∧ part.nullable = true :=
  Bool.and_eq_true_iff

theorem ofSequence_of_isPassed (h : part.isPassed = true) (parts : List LeadingCodes) :
    ofSequence (part :: parts) =
      { ofSequence parts with codes := joined (part :: reached parts) } := by
  simp [ofSequence, reached, h, (isPassed_iff.mp h).1]

theorem ofSequence_of_not_isPassed (h : part.isPassed = false) (parts : List LeadingCodes) :
    ofSequence (part :: parts) = ⟨joined [part], false, part.enumerable⟩ := by
  simp [ofSequence, reached, h]

theorem nullable_of_not_isPassed (h : part.isPassed = false)
    (henumerable : part.enumerable = true) : part.nullable = false := by
  rwa [isPassed, henumerable, Bool.true_and] at h

end Sequence

end LeadingCodes

namespace Node

mutual

/-- The leading codes of a node by those of its parts. -/
def partwiseCodes (mapping : CaseMapping) (ignoreCase : Bool) : Node → LeadingCodes
  | literal c => .ofCodes (mapping.forms ignoreCase c.toNat)
  | charClass set =>
    if set.isUnbounded then ⟨#[], false, false⟩
    else .ofCodes ((set.items.toList.flatMap ClassItem.codes).flatMap (mapping.forms ignoreCase))
  | anyChar => ⟨#[], false, false⟩
  | backreference _ => ⟨#[], false, false⟩
  | anchor _ => ⟨#[], true, true⟩
  | look .. => ⟨#[], true, true⟩
  | group _ inner => partwiseCodes mapping ignoreCase inner
  | concat items => .ofSequence (partwiseCodesAll mapping ignoreCase items)
  | alternation branches => .ofBranches (partwiseCodesAll mapping ignoreCase branches)
  | repetition quantifier inner =>
    let lap := partwiseCodes mapping ignoreCase inner
    { lap with nullable := lap.nullable || quantifier.isOptional }

def partwiseCodesAll (mapping : CaseMapping) (ignoreCase : Bool) : List Node → List LeadingCodes
  | [] => []
  | node :: nodes =>
    partwiseCodes mapping ignoreCase node :: partwiseCodesAll mapping ignoreCase nodes

end

end Node
end TokenPatterns
