import TokenPatterns.Pattern.Leaves
import TokenPatterns.Proofs.FirstHits

/-!
# Questions about several candidates

A question about candidates comes down to its leaves, each of which is asked for every candidate. So
it is answered for several candidates as for each of them by itself. The search for a first
character stops at a hit, and what it says of the empty match then hangs on the candidate that was
hit, but nothing looks at that. As long as nothing is hit the search takes the same course for all
candidates.
-/
namespace TokenPatterns

namespace Candidates

def only (candidates : Candidates) (code : Nat) : Candidates := { candidates with codes := [code] }

def hasLeaf (candidates : Candidates) : Node → Bool
  | .literal c => candidates.hasLiteral c
  | .charClass set => candidates.hasMember set
  | .anyChar => candidates.hasAnyChar
  | .anchor _ => false
  | .look .. => false
  | .group .. => false
  | .concat _ => false
  | .alternation _ => false
  | .repetition .. => false
  | .backreference _ => false

variable {candidates : Candidates}

theorem hasLeaf_iff {leaf : Node} : candidates.hasLeaf leaf = true ↔
    ∃ code ∈ candidates.codes, (candidates.only code).hasLeaf leaf = true := by
  cases leaf with
  | literal c => simp only [hasLeaf, hasLiteral_iff, only, List.mem_singleton, exists_eq_left]
  | charClass set => simp [hasLeaf, hasMember, only]
  | anyChar => simp [hasLeaf, hasAnyChar, only]
  | _ => simp [hasLeaf]

theorem any_hasLeaf_iff {leaves : List Node} : leaves.any candidates.hasLeaf = true ↔
    ∃ code ∈ candidates.codes, leaves.any (candidates.only code).hasLeaf = true := by
  simp only [List.any_eq_true]
  constructor
  · rintro ⟨leaf, hleaf, haccepts⟩
    obtain ⟨code, hcode, honly⟩ := hasLeaf_iff.mp haccepts
    exact ⟨code, hcode, leaf, hleaf, honly⟩
  · rintro ⟨code, hcode, leaf, hleaf, honly⟩
    exact ⟨leaf, hleaf, hasLeaf_iff.mpr ⟨code, hcode, honly⟩⟩

end Candidates

/-- An answer about the first character is that of the leaves which the search gets to. Where none
of them is hit, it tells whether the search goes on. -/
structure FirstHit.IsFrom (first : FirstHit) (candidates : Candidates) (leaves : List Node)
    (isPassed : Bool) : Prop where
  hit_eq : first.hit = leaves.any candidates.hasLeaf
  nullable_eq : first.hit = false → first.nullable = isPassed

namespace Node

variable (candidates : Candidates)

mutual

theorem mayContain_eq : ∀ node : Node,
    node.mayContain candidates = node.leaves.any candidates.hasLeaf
  | literal _ => (Bool.or_false _).symm
  | charClass _ => (Bool.or_false _).symm
  | anyChar => (Bool.or_false _).symm
  | anchor _ => rfl
  | look .. => rfl
  | backreference _ => rfl
  | group _ inner => mayContain_eq inner
  | concat items => anyMayContain_eq items
  | alternation branches => anyMayContain_eq branches
  | repetition _ inner => mayContain_eq inner

theorem anyMayContain_eq : ∀ nodes : List Node,
    anyMayContain candidates nodes = (leavesAll nodes).any candidates.hasLeaf
  | [] => rfl
  | node :: nodes => by
    rw [anyMayContain, leavesAll, List.any_append, mayContain_eq node, anyMayContain_eq nodes]

end

mutual

theorem isFrom_firstHit : ∀ node : Node,
    (node.firstHit candidates).IsFrom candidates node.leadingLeaves node.isPassed
  | literal _ => ⟨(Bool.or_false _).symm, fun _ => rfl⟩
  | charClass _ => ⟨(Bool.or_false _).symm, fun _ => rfl⟩
  | anyChar => ⟨(Bool.or_false _).symm, fun _ => rfl⟩
  | anchor _ => ⟨rfl, fun _ => rfl⟩
  | look .. => ⟨rfl, fun _ => rfl⟩
  | backreference _ => ⟨rfl, fun _ => rfl⟩
  | group _ inner => isFrom_firstHit inner
  | concat items => isFrom_firstHitOfSequence items
  | alternation branches => isFrom_firstHitOfBranches branches
  | repetition quantifier inner =>
    have hinner := isFrom_firstHit inner
    ⟨hinner.hit_eq, fun hhit => congrArg (· || quantifier.isOptional) (hinner.nullable_eq hhit)⟩

theorem isFrom_firstHitOfSequence : ∀ items : List Node,
    (firstHitOfSequence candidates items).IsFrom candidates (leadingLeavesOfSequence items)
      (allPassed items)
  | [] => ⟨rfl, fun _ => rfl⟩
  | item :: items => by
    have hitem := isFrom_firstHit item
    have hitems := isFrom_firstHitOfSequence items
    constructor
    · rw [hit_firstHitOfSequence, leadingLeavesOfSequence, List.any_append, ← hitem.hit_eq]
      cases hhit : (item.firstHit candidates).hit with
      | true => rw [Bool.true_or, Bool.true_or]
      | false =>
        rw [hitem.nullable_eq hhit, hitems.hit_eq]
        cases item.isPassed <;> rfl
    · intro hhit
      rw [hit_firstHitOfSequence, Bool.or_eq_false_iff] at hhit
      rw [nullable_firstHitOfSequence hhit.1, allPassed, ← hitem.nullable_eq hhit.1]
      cases hnullable : (item.firstHit candidates).nullable with
      | false => rfl
      | true =>
        rw [hnullable, Bool.true_and] at hhit
        rw [hitems.nullable_eq hhit.2]

theorem isFrom_firstHitOfBranches : ∀ branches : List Node,
    (firstHitOfBranches candidates branches).IsFrom candidates (leadingLeavesOfBranches branches)
      (anyPassed branches)
  | [] => ⟨rfl, fun _ => rfl⟩
  | branch :: branches => by
    have hbranch := isFrom_firstHit branch
    have hbranches := isFrom_firstHitOfBranches branches
    constructor
    · rw [hit_firstHitOfBranches, leadingLeavesOfBranches, List.any_append, hbranch.hit_eq,
        hbranches.hit_eq]
    · intro hhit
      rw [hit_firstHitOfBranches, Bool.or_eq_false_iff] at hhit
      rw [nullable_firstHitOfBranches hhit.1 hhit.2, anyPassed, hbranch.nullable_eq hhit.1,
        hbranches.nullable_eq hhit.2]

end

end Node

namespace Pattern

variable (pattern : Pattern) (mapping : CaseMapping) (codes : List Nat)

theorem canStartWith_iff_exists_candidate : pattern.canStartWith mapping codes = true ↔
    ∃ code ∈ codes, pattern.canStartWith mapping [code] = true := by
  simp only [canStartWith, (Node.isFrom_firstHit _ _).hit_eq]
  exact Candidates.any_hasLeaf_iff

theorem canContain_iff_exists_candidate : pattern.canContain mapping codes = true ↔
    ∃ code ∈ codes, pattern.canContain mapping [code] = true := by
  simp only [canContain, Node.mayContain_eq]
  exact Candidates.any_hasLeaf_iff

theorem canContain_of_canStartWith (h : pattern.canStartWith mapping codes = true) :
    pattern.canContain mapping codes = true := by
  rw [canStartWith, (Node.isFrom_firstHit _ _).hit_eq, List.any_eq_true] at h
  obtain ⟨leaf, hleaf, haccepts⟩ := h
  rw [canContain, Node.mayContain_eq, List.any_eq_true]
  exact ⟨leaf, pattern.root.leadingLeaves_subset hleaf, haccepts⟩

/-- Both questions about several candidates are answered by those about each of them, whatever their
order and however often they come up, and what can come first can be contained. -/
theorem candidates_asked_one_by_one :
    (pattern.canStartWith mapping codes = true ↔
        ∃ code ∈ codes, pattern.canStartWith mapping [code] = true) ∧
      (pattern.canContain mapping codes = true ↔
        ∃ code ∈ codes, pattern.canContain mapping [code] = true) ∧
      (pattern.canStartWith mapping codes = true → pattern.canContain mapping codes = true) ∧
      ∀ others : List Nat, (∀ code, code ∈ codes ↔ code ∈ others) →
        pattern.canStartWith mapping codes = pattern.canStartWith mapping others ∧
          pattern.canContain mapping codes = pattern.canContain mapping others := by
  refine ⟨canStartWith_iff_exists_candidate .., canContain_iff_exists_candidate ..,
    pattern.canContain_of_canStartWith mapping codes, ?_⟩
  intro others hsame
  constructor
  · rw [Bool.eq_iff_iff, canStartWith_iff_exists_candidate, canStartWith_iff_exists_candidate]
    exact exists_congr fun code => and_congr_left fun _ => hsame code
  · rw [Bool.eq_iff_iff, canContain_iff_exists_candidate, canContain_iff_exists_candidate]
    exact exists_congr fun code => and_congr_left fun _ => hsame code

/-- A letter that can be contained but not come first, by itself and beside one that can. -/
example :
    let pattern : Pattern :=
      ⟨.concat [.literal 'a', .literal 'b'], { ignoreCase := true }, ⟨rfl, rfl⟩⟩
    pattern.canStartWith .ascii ['B'.toNat] = false ∧
      pattern.canStartWith .ascii ['B'.toNat, 'A'.toNat] = true ∧
      pattern.canContain .ascii ['B'.toNat] = true ∧
      pattern.canContain .ascii [0x110000, 'B'.toNat] = true := by
  decide

end Pattern
end TokenPatterns
