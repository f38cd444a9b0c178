import Mathlib.Data.List.Induction
import TokenPatterns.Analysis.PartwiseCodes

/-!
# One list for all parts

The leading codes of a tree are gathered in a single list that goes through all of its parts. What
each part adds is what it has by itself, less what had arrived before it came. So the list says the
same as the parts say when they are taken one by one and put together.
-/
namespace TokenPatterns

namespace FirstArrivals

theorem push (codes : List Nat) (code : Nat) : (codes ++ [code]).eraseDups =
    if code ∈ codes then codes.eraseDups else codes.eraseDups ++ [code] := by
  rw [List.eraseDups_append]
  by_cases hcode : code ∈ codes
  · simp [hcode, List.removeAll]
  · simp [hcode, List.removeAll, List.eraseDups_cons]

theorem nodup (codes : List Nat) : codes.eraseDups.Nodup := by
  induction codes using List.reverseRecOn with
  | nil => exact List.nodup_nil
  | append_singleton codes code ih =>
    rw [push]
    split
    · exact ih
    · next hnew =>
      refine List.nodup_append.mpr
        ⟨ih, List.pairwise_singleton _ code, fun other hother last hlast => ?_⟩
      rw [List.mem_singleton.mp hlast]
      exact fun heq => hnew (heq ▸ List.mem_eraseDups.mp hother)

theorem eq_self {codes : List Nat} (h : codes.Nodup) : codes.eraseDups = codes := by
  induction codes using List.reverseRecOn with
  | nil => rfl
  | append_singleton codes code ih =>
    obtain ⟨hcodes, -, hne⟩ := List.nodup_append.mp h
    have hnew : code ∉ codes := fun hmem => hne code hmem code (List.mem_singleton.mpr rfl) rfl
    rw [push, ih hcodes, if_neg hnew]

/-- What is left out makes no difference to what arrives first among the others. -/
theorem filter (p : Nat → Bool) (codes : List Nat) :
    codes.eraseDups.filter p = (codes.filter p).eraseDups := by
  induction codes using List.reverseRecOn with
  | nil => rfl
  | append_singleton codes code ih =>
    rw [push, List.filter_append]
    cases hp : p code with
    | false => split <;> simp [hp, ih]
    | true =>
      have hsame : code ∈ codes.filter p ↔ code ∈ codes := by simp [hp]
      rw [List.filter_cons_of_pos hp, List.filter_nil, push]
      simp only [hsame]
      split <;> simp [hp, ih]

/-- Of codes that arrive after others, repeats can be dropped in advance. -/
theorem append (before codes : List Nat) :
    (before ++ codes.eraseDups).eraseDups = (before ++ codes).eraseDups := by
  rw [List.eraseDups_append, List.eraseDups_append, List.removeAll, List.removeAll, filter,
    eq_self (nodup _)]

end FirstArrivals

/-- Whether the list holds just those codes, each where it arrived first. -/
def CodeList.Records (list : CodeList) (arrivals : List Nat) : Prop :=
  list.codes.toList = arrivals.eraseDups

namespace CodeList.Records

variable {list : CodeList} {arrivals more : List Nat} {mapping : CaseMapping} {ignoreCase : Bool}

theorem add (h : list.Records arrivals) (code : Nat) :
    (list.add code).Records (arrivals ++ [code]) := by
  have hmem : code ∈ list.codes ↔ code ∈ arrivals := by
    rw [← Array.mem_toList_iff, h, List.mem_eraseDups]
  unfold Records at h ⊢
  rw [codes_add, FirstArrivals.push]
  simp only [hmem]
  split
  · exact h
  · rw [Array.toList_push, h]

theorem addCased (h : list.Records arrivals) (code : Nat) :
    (list.addCased mapping ignoreCase code).Records
      (arrivals ++ mapping.forms ignoreCase code) := by
  unfold CodeList.addCased CaseMapping.forms
  cases ignoreCase with
  | false => exact h.add code
  | true =>
    cases mapping.variant? code with
    | none => exact h.add code
    | some variant => simpa using (h.add code).add variant

theorem foldl_addCased (h : list.Records arrivals) (codes : List Nat) :
    (codes.foldl (CodeList.addCased mapping ignoreCase) list).Records
      (arrivals ++ codes.flatMap (mapping.forms ignoreCase)) := by
  induction codes generalizing list arrivals with
  | nil => simpa using h
  | cons code codes ih => simpa using ih (h.addCased code)

theorem eraseDups_iff :
    list.Records (arrivals ++ more.eraseDups) ↔ list.Records (arrivals ++ more) := by
  rw [Records, Records, FirstArrivals.append]

end CodeList.Records

namespace LeadingCodes

/-- Whether a part added to a list, and made known, just what it has by itself. -/
structure IsAdded (own : LeadingCodes) (arrivals : List Nat)
    (result : LeadingOutcome × CodeList) : Prop where
  outcome : result.1 = ⟨own.nullable, own.enumerable⟩
  records : result.2.Records (arrivals ++ own.codes.toList)

section Added

variable {own : LeadingCodes} {parts : List LeadingCodes} {arrivals codes : List Nat}
  {nullable enumerable : Bool} {list : CodeList}

theorem IsAdded.nothing (h : list.Records arrivals) :
    IsAdded ⟨#[], nullable, enumerable⟩ arrivals (⟨nullable, enumerable⟩, list) :=
  ⟨rfl, by simpa using h⟩

theorem IsAdded.ofCodes (h : list.Records (arrivals ++ codes)) :
    (LeadingCodes.ofCodes codes).IsAdded arrivals (.consumes, list) :=
  ⟨rfl, CodeList.Records.eraseDups_iff.mpr h⟩

theorem records_joined_nil : list.Records (arrivals ++ (joined []).toList) ↔
    list.Records arrivals := by
  rw [joined, List.flatMap_nil, List.eraseDups_nil, List.toList_toArray, List.append_nil]

/-- What arrives in two portions is what both of them have together. -/
theorem records_joined_cons : list.Records (arrivals ++ (joined (own :: parts)).toList) ↔
    list.Records (arrivals ++ own.codes.toList ++ (joined parts).toList) := by
  rw [joined, joined, CodeList.Records.eraseDups_iff, CodeList.Records.eraseDups_iff,
    List.flatMap_cons, List.append_assoc]

end Added

end LeadingCodes

namespace Node

variable {mapping : CaseMapping} {ignoreCase : Bool}

theorem isAdded_charClass (set : CharClass) {list : CodeList} {arrivals : List Nat}
    (h : list.Records arrivals) :
    ((charClass set).partwiseCodes mapping ignoreCase).IsAdded arrivals
      ((charClass set).addLeadingCodes mapping ignoreCase list) := by
  rw [partwiseCodes, addLeadingCodes]
  split
  · exact .nothing h
  · rw [← Array.foldl_toList, ← List.foldl_flatMap]
    exact .ofCodes (h.foldl_addCased _)

mutual

/-- By induction on the tree, with whatever arrived before. -/
theorem isAdded_partwiseCodes : ∀ (node : Node) {list : CodeList} {arrivals : List Nat},
    list.Records arrivals →
      (node.partwiseCodes mapping ignoreCase).IsAdded arrivals
        (node.addLeadingCodes mapping ignoreCase list)
  | literal c, _, _, h => .ofCodes (h.addCased c.toNat)
  | charClass set, _, _, h => isAdded_charClass set h
  | anyChar, _, _, h => .nothing h
  | backreference _, _, _, h => .nothing h
  | anchor _, _, _, h => .nothing h
  | look _ _, _, _, h => .nothing h
  | group _ inner, _, _, h => isAdded_partwiseCodes inner h
  | concat items, _, _, h => isAdded_ofSequence items h
  | alternation branches, _, _, h => isAdded_ofBranches branches h
  | repetition quantifier inner, list, _, h => by
    obtain ⟨houtcome, hrecords⟩ := isAdded_partwiseCodes inner h
    refine ⟨?_, hrecords⟩
    simp only [addLeadingCodes, partwiseCodes, houtcome]

theorem isAdded_ofSequence : ∀ (items : List Node) {list : CodeList} {arrivals : List Nat},
    list.Records arrivals →
      (LeadingCodes.ofSequence (partwiseCodesAll mapping ignoreCase items)).IsAdded arrivals
        (addSequenceCodes mapping ignoreCase items list)
  | [], _, _, h => ⟨rfl, LeadingCodes.records_joined_nil.mpr h⟩
  | item :: items, list, _, h => by
    obtain ⟨houtcome, hrecords⟩ := isAdded_partwiseCodes item h
    cases hpassed : (item.partwiseCodes mapping ignoreCase).isPassed with
    | true =>
      obtain ⟨houtcomeRest, hrecordsRest⟩ := isAdded_ofSequence items hrecords
      obtain ⟨henumerable, hnullable⟩ := LeadingCodes.isPassed_iff.mp hpassed
      rw [partwiseCodesAll, LeadingCodes.ofSequence_of_isPassed hpassed]
      simp only [addSequenceCodes, houtcome, henumerable, hnullable]
      exact ⟨houtcomeRest, LeadingCodes.records_joined_cons.mpr hrecordsRest⟩
    | false =>
      rw [partwiseCodesAll, LeadingCodes.ofSequence_of_not_isPassed hpassed]
      have hjoined := LeadingCodes.records_joined_cons.mpr
        (LeadingCodes.records_joined_nil.mpr hrecords)
      cases henumerable : (item.partwiseCodes mapping ignoreCase).enumerable with
      | false =>
        simp only [addSequenceCodes, houtcome, henumerable]
        exact ⟨rfl, hjoined⟩
      | true =>
        have hnullable := LeadingCodes.nullable_of_not_isPassed hpassed henumerable
        simp only [addSequenceCodes, houtcome, henumerable, hnullable]
        exact ⟨rfl, hjoined⟩

theorem isAdded_ofBranches : ∀ (branches : List Node) {list : CodeList} {arrivals : List Nat},
    list.Records arrivals →
      (LeadingCodes.ofBranches (partwiseCodesAll mapping ignoreCase branches)).IsAdded arrivals
        (addBranchCodes mapping ignoreCase branches list)
  | [], _, _, h => ⟨rfl, LeadingCodes.records_joined_nil.mpr h⟩
  | branch :: branches, list, _, h => by
    obtain ⟨houtcome, hrecords⟩ := isAdded_partwiseCodes branch h
    obtain ⟨houtcomeRest, hrecordsRest⟩ := isAdded_ofBranches branches hrecords
    refine ⟨?_, LeadingCodes.records_joined_cons.mpr hrecordsRest⟩
    simp only [addBranchCodes, houtcome, houtcomeRest]
    rfl

end

theorem nodup_codes_partwiseCodes : ∀ node : Node,
    (node.partwiseCodes mapping ignoreCase).codes.toList.Nodup
  | literal _ => FirstArrivals.nodup _
  | charClass set => by
    rw [partwiseCodes]
    split
    · exact List.nodup_nil
    · exact FirstArrivals.nodup _
  | anyChar => List.nodup_nil
  | backreference _ => List.nodup_nil
  | anchor _ => List.nodup_nil
  | look _ _ => List.nodup_nil
  | group _ inner => nodup_codes_partwiseCodes inner
  | concat _ => FirstArrivals.nodup _
  | alternation _ => FirstArrivals.nodup _
  | repetition _ inner => nodup_codes_partwiseCodes inner

variable (mapping ignoreCase) in
theorem leadingCodes_eq_partwiseCodes (node : Node) :
    node.leadingCodes mapping ignoreCase = node.partwiseCodes mapping ignoreCase := by
  have hadded : (node.partwiseCodes mapping ignoreCase).IsAdded []
      (node.addLeadingCodes mapping ignoreCase {}) := isAdded_partwiseCodes node rfl
  obtain ⟨houtcome, hrecords⟩ := hadded
  have hcodes : (node.addLeadingCodes mapping ignoreCase {}).2.codes =
      (node.partwiseCodes mapping ignoreCase).codes := by
    rw [← Array.toList_inj, hrecords, List.nil_append,
      FirstArrivals.eq_self (nodup_codes_partwiseCodes node)]
  simp only [leadingCodes, houtcome, hcodes]

/-- What is gathered from a tree in one list is what its parts have by themselves, put together,
and no code comes up twice in it. -/
theorem leadingCodes_partwise_nodup (mapping : CaseMapping) (ignoreCase : Bool) (node : Node) :
    node.leadingCodes mapping ignoreCase = node.partwiseCodes mapping ignoreCase ∧
      (node.leadingCodes mapping ignoreCase).codes.toList.Nodup := by
  have heq := leadingCodes_eq_partwiseCodes mapping ignoreCase node
  refine ⟨heq, ?_⟩
  rw [heq]
  exact nodup_codes_partwiseCodes node

/-- A branch that cannot be listed leaves what was found before it. -/
example : (concat [repetition .question (literal 'b'), alternation [literal 'a',
    concat [literal 'b', anyChar], concat [repetition .star (literal 'c'), anyChar]]]).leadingCodes
      .ascii false = ⟨#[98, 97, 99], false, false⟩ := by
  rw [leadingCodes_eq_partwiseCodes]
  decide

end Node
end TokenPatterns
