import TokenPatterns.Proofs.Containment
import TokenPatterns.Proofs.LeadingCodes

/-!
# First characters by question

Instead of listing the characters that a match can begin with, an analysis can be asked for some of
them. It always answers, and never denies a character that a match begins with. Where the list is
complete it answers as the list does. One goes through the tree as the other, but stops at a hit, so
what it says of the empty match is compared only where there was none.
-/
namespace TokenPatterns

namespace Node

section Lists

variable {candidates : Candidates} {node : Node} {nodes : List Node}

theorem hit_firstHitOfSequence : (firstHitOfSequence candidates (node :: nodes)).hit =
    ((node.firstHit candidates).hit || (node.firstHit candidates).nullable &&
      (firstHitOfSequence candidates nodes).hit) := by
  rw [firstHitOfSequence]
  cases hhit : (node.firstHit candidates).hit with
  | true => simp [hhit]
  | false => cases (node.firstHit candidates).nullable <;> simp

theorem nullable_firstHitOfSequence (h : (node.firstHit candidates).hit = false) :
    (firstHitOfSequence candidates (node :: nodes)).nullable =
      ((node.firstHit candidates).nullable && (firstHitOfSequence candidates nodes).nullable) := by
  rw [firstHitOfSequence]
  cases (node.firstHit candidates).nullable <;> simp [h]

theorem hit_firstHitOfBranches : (firstHitOfBranches candidates (node :: nodes)).hit =
    ((node.firstHit candidates).hit || (firstHitOfBranches candidates nodes).hit) := by
  rw [firstHitOfBranches]
  cases hhit : (node.firstHit candidates).hit with
  | true => simp [hhit]
  | false => cases hothers : (firstHitOfBranches candidates nodes).hit <;> simp [hothers]

theorem nullable_firstHitOfBranches (h : (node.firstHit candidates).hit = false)
    (hothers : (firstHitOfBranches candidates nodes).hit = false) :
    (firstHitOfBranches candidates (node :: nodes)).nullable =
      ((node.firstHit candidates).nullable ||
        (firstHitOfBranches candidates nodes).nullable) := by
  simp [firstHitOfBranches, h, hothers]

end Lists

mutual

theorem mem_references_of_mem_outerReferences {number : Nat} :
    ∀ node : Node, number ∈ node.outerReferences → number ∈ node.references
  | backreference _, h => h
  | group _ inner, h => mem_references_of_mem_outerReferences inner h
  | concat items, h => mem_referencesAll_of_mem_outerReferencesAll items h
  | alternation branches, h => mem_referencesAll_of_mem_outerReferencesAll branches h
  | repetition _ inner, h => mem_references_of_mem_outerReferences inner h

theorem mem_referencesAll_of_mem_outerReferencesAll {number : Nat} :
    ∀ nodes : List Node, number ∈ outerReferencesAll nodes → number ∈ referencesAll nodes
  | node :: nodes, h => by
    rw [outerReferencesAll, List.mem_append] at h
    rw [referencesAll, List.mem_append]
    exact h.imp (mem_references_of_mem_outerReferences node)
      (mem_referencesAll_of_mem_outerReferencesAll nodes)

end

section Denied

variable {candidates : Candidates} {s : Subject} {nesting? : Option Nat} {pos : Nat}

theorem not_mem_take {p : Char → Bool} {hit : Bool} {captures : Captures} {way : Way}
    (hp : ∀ c, s.input[pos]? = some c → p c = true → hit = true) (hhit : hit = false) :
    way ∉ Search.take s p pos captures := by
  intro h
  obtain ⟨-, hany, -⟩ := Search.take_stop h
  obtain ⟨c, hc, hpc⟩ := (Option.any_eq_true _ _).mp hany
  rw [hp c hc hpc] at hhit
  cases hhit

mutual

/-- Where the character at `pos` is denied to be a first one, a node without references matches the
empty text there or nothing. -/
theorem stays_of_not_hit (hanswer : ∀ c, s.input[pos]? = some c → candidates.Answer s c) :
    ∀ (node : Node) {captures : Captures} {way : Way}, node.outerReferences = [] →
      (node.firstHit candidates).hit = false → way ∈ node.ways s nesting? pos captures →
      way.stop = pos ∧ (node.firstHit candidates).nullable = true
  | literal d, _, _, _, hhit, h =>
    absurd h (not_mem_take (fun c hc => (hanswer c hc).literal d) hhit)
  | charClass set, _, _, _, hhit, h =>
    absurd h (not_mem_take (fun c hc => (hanswer c hc).charClass set) hhit)
  | anyChar, _, _, _, hhit, h =>
    absurd h (not_mem_take (fun c hc => (hanswer c hc).anyChar) hhit)
  | anchor kind, _, _, _, _, h => by
    rw [ways] at h
    split at h
    · rw [List.mem_singleton.mp h]
      exact ⟨rfl, rfl⟩
    · cases h
  | look kind inner, _, _, _, _, h => by
    rw [ways] at h
    exact ⟨Search.look_stop h, rfl⟩
  | backreference _, _, _, hrefs, _, _ => absurd hrefs (List.cons_ne_nil _ _)
  | group none inner, _, _, hrefs, hhit, h => stays_of_not_hit hanswer inner hrefs hhit h
  | group (some number) inner, _, _, hrefs, hhit, h => by
    rw [ways] at h
    obtain ⟨inside, hinside, rfl⟩ := List.mem_map.mp h
    have hinner := stays_of_not_hit hanswer inner hrefs hhit hinside
    exact hinner
  | concat items, _, _, hrefs, hhit, h => staysSequence_of_not_hit hanswer items hrefs hhit h
  | alternation branches, _, _, hrefs, hhit, h =>
    staysBranches_of_not_hit hanswer branches hrefs hhit h
  | repetition quantifier inner, captures, way, hrefs, hhit, h => by
    have hlap : ∀ captures, ∀ next ∈ inner.ways s nesting? pos captures,
        next.stop = pos ∧ (inner.firstHit candidates).nullable = true :=
      fun captures next hnext => stays_of_not_hit hanswer inner hrefs hhit hnext
    rw [ways, Search.laps_eq_remainingLaps] at h
    constructor
    · refine Search.forall_remainingLaps (fun way => way.stop = pos) ?_ 0 rfl way h
      intro start hstart next hnext
      rw [hstart] at hnext
      exact (hlap start.captures next hnext).1
    · cases hoptional : quantifier.isOptional with
      | true => simp [firstHit, hoptional]
      | false =>
        rw [Search.remainingLaps_of_lt (Quantifier.min_pos hoptional), List.mem_flatMap] at h
        obtain ⟨first, hfirst, -⟩ := h
        simp [firstHit, (hlap captures first hfirst).2]

theorem staysSequence_of_not_hit
    (hanswer : ∀ c, s.input[pos]? = some c → candidates.Answer s c) :
    ∀ (items : List Node) {captures : Captures} {way : Way}, outerReferencesAll items = [] →
      (firstHitOfSequence candidates items).hit = false →
      way ∈ waysAll s items nesting? pos captures →
      way.stop = pos ∧ (firstHitOfSequence candidates items).nullable = true
  | [], _, _, _, _, h => by
    rw [waysAll, List.mem_singleton] at h
    rw [h]
    exact ⟨rfl, rfl⟩
  | item :: items, _, _, hrefs, hhit, h => by
    rw [outerReferencesAll, List.append_eq_nil_iff] at hrefs
    rw [hit_firstHitOfSequence, Bool.or_eq_false_iff] at hhit
    rw [waysAll, List.mem_flatMap] at h
    obtain ⟨first, hfirst, hway⟩ := h
    obtain ⟨hstop, hnullable⟩ := stays_of_not_hit hanswer item hrefs.1 hhit.1 hfirst
    rw [hnullable, Bool.true_and] at hhit
    rw [hstop] at hway
    obtain ⟨hend, hempty⟩ := staysSequence_of_not_hit hanswer items hrefs.2 hhit.2 hway
    exact ⟨hend, by rw [nullable_firstHitOfSequence hhit.1, hnullable, hempty, Bool.and_self]⟩

theorem staysBranches_of_not_hit
    (hanswer : ∀ c, s.input[pos]? = some c → candidates.Answer s c) :
    ∀ (branches : List Node) {captures : Captures} {way : Way},
      outerReferencesAll branches = [] → (firstHitOfBranches candidates branches).hit = false →
      way ∈ waysAny s branches nesting? pos captures →
      way.stop = pos ∧ (firstHitOfBranches candidates branches).nullable = true
  | [], _, _, _, _, h => by cases h
  | branch :: branches, _, _, hrefs, hhit, h => by
    rw [outerReferencesAll, List.append_eq_nil_iff] at hrefs
    rw [hit_firstHitOfBranches, Bool.or_eq_false_iff] at hhit
    rw [nullable_firstHitOfBranches hhit.1 hhit.2]
    rw [waysAny, List.mem_append] at h
    rcases h with hfirst | hothers
    · obtain ⟨hstop, hnullable⟩ := stays_of_not_hit hanswer branch hrefs.1 hhit.1 hfirst
      exact ⟨hstop, by rw [hnullable, Bool.true_or]⟩
    · obtain ⟨hstop, hnullable⟩ := staysBranches_of_not_hit hanswer branches hrefs.2 hhit.2 hothers
      exact ⟨hstop, by rw [hnullable, Bool.or_true]⟩

end

end Denied

end Node

namespace Pattern

variable {pattern : Pattern} {mapping : CaseMapping}

theorem canStartWith_of_outerReferences (hpaired : mapping.IsPaired pattern.flags.ignoreCase)
    (hrefs : pattern.root.outerReferences = []) {input : Array Char} {start stop : Nat}
    (hmatch : pattern.program.matchAt? mapping input start = some stop) (hlt : start < stop) :
    ∃ c, input[start]? = some c ∧
      ∀ codes, c.toNat ∈ codes → pattern.canStartWith mapping codes = true := by
  let s : Subject := ⟨mapping, pattern.flags, input⟩
  have hsize := (Program.matchAt?_le hmatch).2
  obtain ⟨-, way, hway, rfl⟩ := Program.exists_way_of_matchAt? hmatch
  have hc := Array.getElem?_eq_getElem (Nat.lt_of_lt_of_le hlt hsize)
  refine ⟨_, hc, fun codes hcode => ?_⟩
  by_contra hdenied
  have hanswer : ∀ c, s.input[start]? = some c →
      Candidates.Answer ⟨codes, s.mapping, s.flags⟩ s c := by
    intro c hchar
    obtain rfl := Option.some.inj (hc.symm.trans hchar)
    exact Candidates.answer_of_agree hpaired hcode (CaseMapping.agree_self _ _ _)
  have hstays := Node.stays_of_not_hit hanswer pattern.root hrefs (Bool.eq_false_iff.mpr hdenied)
    hway
  exact absurd hstays.1 (Nat.ne_of_gt hlt)

/-- In a pattern without references no character is denied that a match begins with, be it alone
or among others. -/
theorem canStartWith_of_matchAt? (hpaired : mapping.IsPaired pattern.flags.ignoreCase)
    (hrefs : pattern.root.references = []) {input : Array Char} {start stop : Nat}
    (hmatch : pattern.program.matchAt? mapping input start = some stop) (hlt : start < stop) :
    ∃ c, input[start]? = some c ∧
      ∀ codes, c.toNat ∈ codes → pattern.canStartWith mapping codes = true := by
  have houter : pattern.root.outerReferences = [] := by
    refine List.eq_nil_iff_forall_not_mem.mpr fun number hnumber => ?_
    have hmem := pattern.root.mem_references_of_mem_outerReferences hnumber
    rw [hrefs] at hmem
    exact List.not_mem_nil hmem
  exact canStartWith_of_outerReferences hpaired houter hmatch hlt

/-- Any character, behind laps of an inverted class that may take up nothing. -/
theorem canStartWith_of_optional_laps :
    let pattern : Pattern :=
      ⟨.concat [.repetition .star (.group none (.alternation [.anchor .start,
        .repetition .question (.charClass { items := #[.single 98], negated := true })])),
        .anyChar], { ignoreCase := true }, ⟨rfl, rfl⟩⟩
    CaseMapping.ascii.IsPaired pattern.flags.ignoreCase ∧ pattern.root.references = [] ∧
      pattern.program.matchAt? .ascii #['B', 'x'] 0 = some 1 ∧
      pattern.canStartWith .ascii [0x110000, 'B'.toNat] = true := by
  intro pattern
  have hpaired : CaseMapping.ascii.IsPaired pattern.flags.ignoreCase := fun _ => rfl
  have hrefs : pattern.root.references = [] := rfl
  have hmatch : pattern.program.matchAt? .ascii #['B', 'x'] 0 = some 1 := by
    rw [Program.matchAt?_eq]
    decide +kernel
  obtain ⟨c, hc, hstarts⟩ := canStartWith_of_matchAt? hpaired hrefs hmatch (by decide)
  cases hc
  exact ⟨hpaired, hrefs, hmatch, hstarts _ (by decide)⟩

end Pattern

/-- Whether a candidate is in the list. -/
def Candidates.Meets (candidates : Candidates) (list : CodeList) : Prop :=
  ∃ code ∈ candidates.codes, code ∈ list.codes

/-- Whether a candidate is the variant of just those codes that are its variants. -/
def Candidates.ArePaired (candidates : Candidates) : Prop :=
  ∀ code ∈ candidates.codes, ∀ other,
    candidates.mapping.Pairs candidates.flags.ignoreCase code other ↔
      candidates.mapping.Pairs candidates.flags.ignoreCase other code

/-- Whether a candidate is the variant of just those members of a class that are its variants. -/
def Candidates.ArePairedIn (candidates : Candidates) (set : CharClass) : Prop :=
  ∀ code ∈ candidates.codes, ∀ other, set.contains other = true →
    (candidates.mapping.Pairs candidates.flags.ignoreCase code other ↔
      candidates.mapping.Pairs candidates.flags.ignoreCase other code)

/-- How an answer about candidates agrees with what was added to a list. -/
structure FirstHit.AgreesWith (first : FirstHit) (candidates : Candidates) (list : CodeList)
    (result : LeadingOutcome × CodeList) : Prop where
  meets_iff : candidates.Meets result.2 ↔ candidates.Meets list ∨ first.hit = true
  nullable_eq : first.hit = false → first.nullable = result.1.nullable

namespace CharClass

theorem exists_contains_iff {set : CharClass} {p : Nat → Prop} :
    (∃ other, set.contains other = true ∧ p other) ↔
      ∃ item ∈ set.items.toList, ∃ other ∈ item.codes, p other := by
  simp only [contains, Array.any_eq_true', Array.mem_toList_iff, ClassItem.mem_codes]
  constructor
  · rintro ⟨other, ⟨item, hitem, hcontains⟩, hp⟩
    exact ⟨item, hitem, other, hcontains, hp⟩
  · rintro ⟨item, hitem, other, hcontains, hp⟩
    exact ⟨other, ⟨item, hitem, hcontains⟩, hp⟩

theorem matchesCode_iff {mapping : CaseMapping} {ignoreCase : Bool} {set : CharClass} {code : Nat}
    (hnegated : set.negated = false) : set.matchesCode mapping ignoreCase code = true ↔
      ∃ other, set.contains other = true ∧ mapping.Pairs ignoreCase code other := by
  simp only [matchesCode, hnegated, Bool.bne_false, CaseMapping.Pairs, and_or_left,
    exists_or, exists_eq_right, Bool.or_eq_true, Bool.and_eq_true, Option.any_eq_true]
  refine or_congr_right ?_
  constructor
  · rintro ⟨hignore, other, hvariant, hcontains⟩
    exact ⟨other, hcontains, hignore, hvariant⟩
  · rintro ⟨other, hcontains, hignore, hvariant⟩
    exact ⟨hignore, other, hvariant, hcontains⟩

end CharClass

namespace Node

section Agreement

variable {candidates : Candidates}

theorem agreesWith_of_added {p : Nat → Prop} {hit nullable enumerable : Bool}
    {list added : CodeList} (hadded : ∀ code, code ∈ added.codes ↔ code ∈ list.codes ∨ p code)
    (hhit : hit = true ↔ ∃ code ∈ candidates.codes, p code) :
    FirstHit.AgreesWith ⟨hit, nullable⟩ candidates list (⟨nullable, enumerable⟩, added) where
  meets_iff := by
    simp only [Candidates.Meets, hadded, hhit, and_or_left, exists_or]
  nullable_eq _ := rfl

/-- A class is asked for the variant of a candidate, and lists the variants of its members. -/
theorem agreesWith_charClass {set : CharClass} (hpaired : candidates.ArePairedIn set)
    (list : CodeList) (henumerable : ((charClass set).addLeadingCodes candidates.mapping
      candidates.flags.ignoreCase list).1.enumerable = true) :
    ((charClass set).firstHit candidates).AgreesWith candidates list
      ((charClass set).addLeadingCodes candidates.mapping candidates.flags.ignoreCase list) := by
  by_cases hunbounded : set.isUnbounded = true
  · rw [addLeadingCodes, if_pos hunbounded] at henumerable
    cases henumerable
  · have hnegated := CharClass.negated_of_not_isUnbounded hunbounded
    rw [addLeadingCodes, if_neg hunbounded, ← Array.foldl_toList]
    refine agreesWith_of_added (fun code => mem_codes_foldl_items) ?_
    rw [Candidates.hasMember, List.any_eq_true]
    refine exists_congr fun code => and_congr_right fun hcode => ?_
    rw [CharClass.matchesCode_iff hnegated, ← CharClass.exists_contains_iff]
    exact exists_congr fun other => and_congr_right fun hmember => hpaired code hcode other hmember

mutual

/-- Where the first characters of a node can be listed, a candidate is hit if it is listed. By
induction on the tree, with whatever was listed before. -/
theorem agreesWith_firstHit :
    ∀ (node : Node) (list : CodeList),
      (∀ set ∈ node.leadingClasses, candidates.ArePairedIn set) →
      let result := node.addLeadingCodes candidates.mapping candidates.flags.ignoreCase list
      result.1.enumerable = true → (node.firstHit candidates).AgreesWith candidates list result
  | literal _, _, _ => fun _ =>
    agreesWith_of_added (fun _ => CodeList.mem_codes_addCased) Candidates.hasLiteral_iff
  | charClass set, list, hpaired => fun henumerable =>
    agreesWith_charClass (hpaired set List.mem_cons_self) list henumerable
  | anyChar, _, _ => nofun
  | backreference _, _, _ => nofun
  | anchor _, _, _ => fun _ => ⟨by simp [firstHit, addLeadingCodes], fun _ => rfl⟩
  | look _ _, _, _ => fun _ => ⟨by simp [firstHit, addLeadingCodes], fun _ => rfl⟩
  | group _ inner, list, hpaired => agreesWith_firstHit inner list hpaired
  | concat items, list, hpaired => agreesWith_firstHitOfSequence items list hpaired
  | alternation branches, list, hpaired => agreesWith_firstHitOfBranches branches list hpaired
  | repetition quantifier inner, list, hpaired => by
    intro result henumerable
    obtain ⟨hmeets, hnullable⟩ := agreesWith_firstHit inner list hpaired henumerable
    exact ⟨hmeets, fun hhit => congrArg (· || quantifier.isOptional) (hnullable hhit)⟩

theorem agreesWith_firstHitOfSequence :
    ∀ (items : List Node) (list : CodeList),
      (∀ set ∈ leadingClassesOfSequence items, candidates.ArePairedIn set) →
      let result := addSequenceCodes candidates.mapping candidates.flags.ignoreCase items list
      result.1.enumerable = true →
        (firstHitOfSequence candidates items).AgreesWith candidates list result
  | [], _, _ => fun _ => ⟨by simp [firstHitOfSequence, addSequenceCodes], fun _ => rfl⟩
  | item :: items, list, hpaired => by
    intro result henumerable
    have hitem := agreesWith_firstHit item list fun set hset =>
      hpaired set (List.mem_append_left _ hset)
    simp only [result, addSequenceCodes] at henumerable ⊢
    split at henumerable
    · cases henumerable
    · next hlisted =>
      obtain ⟨hmeets, hnullable⟩ := hitem (by simpa using hlisted)
      rw [if_neg hlisted]
      split
      · next hconsumes =>
        rw [Bool.not_eq_true'] at hconsumes
        have hsame : (firstHitOfSequence candidates (item :: items)).hit =
            (item.firstHit candidates).hit := by
          rw [hit_firstHitOfSequence]
          cases hhit : (item.firstHit candidates).hit with
          | true => rfl
          | false => rw [hnullable hhit, hconsumes, Bool.false_and, Bool.or_self]
        constructor
        · rw [hsame]
          exact hmeets
        · intro hhit
          rw [hsame] at hhit
          rw [nullable_firstHitOfSequence hhit, hnullable hhit, hconsumes]
          rfl
      · next hempty =>
        rw [if_neg hempty] at henumerable
        rw [Bool.not_eq_true', Bool.not_eq_false] at hempty
        have hreached : item.mayBeEmpty = true := by
          rw [← nullable_addLeadingCodes item list (by simpa using hlisted), hempty]
        have hpairedRest : ∀ set ∈ leadingClassesOfSequence items, candidates.ArePairedIn set :=
          fun set hset => hpaired set (List.mem_append_right _ (by rwa [if_pos hreached]))
        obtain ⟨hmeetsRest, hnullableRest⟩ :=
          agreesWith_firstHitOfSequence items _ hpairedRest henumerable
        have hboth : (firstHitOfSequence candidates (item :: items)).hit =
            ((item.firstHit candidates).hit || (firstHitOfSequence candidates items).hit) := by
          rw [hit_firstHitOfSequence]
          cases hhit : (item.firstHit candidates).hit with
          | true => rfl
          | false => rw [hnullable hhit, hempty, Bool.true_and]
        constructor
        · rw [hmeetsRest, hmeets, hboth, Bool.or_eq_true, or_assoc]
        · intro hhit
          rw [hboth, Bool.or_eq_false_iff] at hhit
          rw [nullable_firstHitOfSequence hhit.1, hnullable hhit.1, hempty, Bool.true_and,
            hnullableRest hhit.2]

theorem agreesWith_firstHitOfBranches :
    ∀ (branches : List Node) (list : CodeList),
      (∀ set ∈ leadingClassesOfBranches branches, candidates.ArePairedIn set) →
      let result := addBranchCodes candidates.mapping candidates.flags.ignoreCase branches list
      result.1.enumerable = true →
        (firstHitOfBranches candidates branches).AgreesWith candidates list result
  | [], _, _ => fun _ => ⟨by simp [firstHitOfBranches, addBranchCodes], fun _ => rfl⟩
  | branch :: branches, list, hpaired => by
    intro result henumerable
    simp only [result, addBranchCodes, Bool.and_eq_true] at henumerable ⊢
    obtain ⟨hmeets, hnullable⟩ := agreesWith_firstHit branch list
      (fun set hset => hpaired set (List.mem_append_left _ hset)) henumerable.1
    obtain ⟨hmeetsRest, hnullableRest⟩ := agreesWith_firstHitOfBranches branches _
      (fun set hset => hpaired set (List.mem_append_right _ hset)) henumerable.2
    constructor
    · rw [hmeetsRest, hmeets, hit_firstHitOfBranches, Bool.or_eq_true, or_assoc]
    · intro hhit
      rw [hit_firstHitOfBranches, Bool.or_eq_false_iff] at hhit
      rw [nullable_firstHitOfBranches hhit.1 hhit.2, hnullable hhit.1, hnullableRest hhit.2]

end

end Agreement
end Node

namespace Pattern

variable {pattern : Pattern} {mapping : CaseMapping}

/-- Where the first characters of a pattern are listed, candidates that are paired in the classes
they can belong to are looked for in the list. -/
theorem canStartWith_iff_of_arePairedIn {codes : List Nat}
    (hpaired : ∀ set ∈ pattern.root.leadingClasses,
      Candidates.ArePairedIn ⟨codes, mapping, pattern.flags⟩ set)
    (henumerable : (pattern.root.leadingCodes mapping pattern.flags.ignoreCase).enumerable = true) :
    pattern.canStartWith mapping codes = true ↔
      ∃ code ∈ codes, code ∈ pattern.leadingCodes mapping none := by
  have hagrees := Node.agreesWith_firstHit pattern.root {} hpaired henumerable
  have hnone : ¬ Candidates.Meets ⟨codes, mapping, pattern.flags⟩ {} := by
    rintro ⟨code, -, hcode⟩
    simp at hcode
  rw [leadingCodes, Option.getD_none, if_pos henumerable, canStartWith]
  exact (or_iff_right hnone).symm.trans hagrees.meets_iff.symm

theorem canStartWith_iff_of_arePaired {codes : List Nat}
    (hpaired : Candidates.ArePaired ⟨codes, mapping, pattern.flags⟩)
    (henumerable : (pattern.root.leadingCodes mapping pattern.flags.ignoreCase).enumerable = true) :
    pattern.canStartWith mapping codes = true ↔
      ∃ code ∈ codes, code ∈ pattern.leadingCodes mapping none :=
  canStartWith_iff_of_arePairedIn (fun _ _ code hcode other _ => hpaired code hcode other)
    henumerable

/-- Where the first characters of a pattern are listed, it can begin with one of some code points if
one of them is in the list, be they characters or not. -/
theorem canStartWith_iff_mem_leadingCodes (hpaired : mapping.IsPaired pattern.flags.ignoreCase)
    (henumerable : (pattern.root.leadingCodes mapping pattern.flags.ignoreCase).enumerable = true)
    (codes : List Nat) : pattern.canStartWith mapping codes = true ↔
      ∃ code ∈ codes, code ∈ pattern.leadingCodes mapping none :=
  canStartWith_iff_of_arePaired
    (fun _ _ _ => ⟨fun h => hpaired.pairs_symm h, fun h => hpaired.pairs_symm h⟩) henumerable

/-- A class with surrogates and a letter, behind laps that may take up nothing. -/
theorem canStartWith_iff_mem_leadingCodes_of_surrogates :
    let pattern : Pattern :=
      ⟨.concat [.repetition .star (.group none (.repetition .question (.literal 'x'))),
        .charClass { items := #[.range 0xD7FF 0xE000, .single 107] }], { ignoreCase := true },
        ⟨rfl, rfl⟩⟩
    CaseMapping.ascii.IsPaired pattern.flags.ignoreCase ∧
      (pattern.root.leadingCodes .ascii pattern.flags.ignoreCase).enumerable = true ∧
      (pattern.canStartWith .ascii [0x110000, 'K'.toNat] = true ↔
        ∃ code ∈ [0x110000, 'K'.toNat], code ∈ pattern.leadingCodes .ascii none) := by
  intro pattern
  have hpaired : CaseMapping.ascii.IsPaired pattern.flags.ignoreCase := fun _ => rfl
  have henumerable :
      (pattern.root.leadingCodes .ascii pattern.flags.ignoreCase).enumerable = true := rfl
  exact ⟨hpaired, henumerable, canStartWith_iff_mem_leadingCodes hpaired henumerable _⟩

end Pattern
end TokenPatterns
