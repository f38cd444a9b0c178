import TokenPatterns.Analysis.LeadingCodes
import TokenPatterns.Machine.Run
import TokenPatterns.Proofs.LetterPairs

/-!
# Leading codes are complete

Where the leading codes of a pattern can be listed, each match begins with one of them.
-/
namespace TokenPatterns

section Growth

variable {mapping : CaseMapping} {ignoreCase : Bool} {code : Nat}

theorem mem_codes_foldl_items {items : List ClassItem} {list : CodeList} :
    code ∈ (items.foldl (fun list item =>
        item.codes.foldl (CodeList.addCased mapping ignoreCase) list) list).codes ↔
      code ∈ list.codes ∨
        ∃ item ∈ items, ∃ other ∈ item.codes, mapping.Pairs ignoreCase other code := by
  induction items generalizing list with
  | nil => simp
  | cons item items ih => simp [ih, CodeList.mem_codes_foldl_addCased, or_assoc]

namespace Node

mutual

theorem mem_addLeadingCodes : ∀ (node : Node) {list : CodeList}, code ∈ list.codes →
    code ∈ (node.addLeadingCodes mapping ignoreCase list).2.codes
  | literal c, _, h => CodeList.mem_codes_addCased.mpr (.inl h)
  | charClass set, list, h => by
    rw [addLeadingCodes]
    split
    · exact h
    · rw [← Array.foldl_toList, mem_codes_foldl_items]
      exact .inl h
  | anyChar, _, h => h
  | backreference _, _, h => h
  | anchor _, _, h => h
  | look _ _, _, h => h
  | group _ inner, _, h => mem_addLeadingCodes inner h
  | concat items, _, h => mem_addSequenceCodes items h
  | alternation branches, _, h => mem_addBranchCodes branches h
  | repetition _ inner, _, h => mem_addLeadingCodes inner h

theorem mem_addSequenceCodes : ∀ (items : List Node) {list : CodeList}, code ∈ list.codes →
    code ∈ (addSequenceCodes mapping ignoreCase items list).2.codes
  | [], _, h => h
  | item :: items, list, h => by
    have hitem := mem_addLeadingCodes item h
    simp only [addSequenceCodes]
    split
    · exact hitem
    · split
      · exact hitem
      · exact mem_addSequenceCodes items hitem

theorem mem_addBranchCodes : ∀ (branches : List Node) {list : CodeList}, code ∈ list.codes →
    code ∈ (addBranchCodes mapping ignoreCase branches list).2.codes
  | [], _, h => h
  | branch :: branches, _, h => mem_addBranchCodes branches (mem_addLeadingCodes branch h)

end

end Node
end Growth

/-- What the analysis of a part says of a way that leads from `pos` to `stop`. -/
structure LeadingOutcome.Covers (outcome : LeadingOutcome) (list : CodeList) (s : Subject)
    (pos stop : Nat) : Prop where
  nullable : stop = pos → outcome.nullable = true
  listed : pos < stop → ∃ c, s.input[pos]? = some c ∧ c.toNat ∈ list.codes

namespace LeadingOutcome

variable {outcome : LeadingOutcome} {list : CodeList} {s : Subject} {pos stop : Nat}

theorem Covers.take {p : Char → Bool} {captures : Captures} {way : Way}
    (h : way ∈ Search.take s p pos captures)
    (hlisted : ∀ c ∈ s.input, p c = true → c.toNat ∈ list.codes) :
    consumes.Covers list s pos way.stop := by
  obtain ⟨-, hany, rfl⟩ := Search.take_stop h
  obtain ⟨c, hc, hp⟩ := (Option.any_eq_true _ _).mp hany
  constructor
  · intro hstop
    exact absurd hstop (Nat.succ_ne_self pos)
  · intro _
    exact ⟨c, hc, hlisted c (Array.mem_of_getElem? hc) hp⟩

theorem Covers.empty (hstop : stop = pos) : empty.Covers list s pos stop where
  nullable _ := rfl
  listed hlt := absurd hstop (Nat.ne_of_gt hlt)

theorem Covers.lt_of_not_nullable (h : outcome.Covers list s pos stop) (hle : pos ≤ stop)
    (hconsumes : outcome.nullable = false) : pos < stop := by
  apply Nat.lt_of_le_of_ne hle
  intro hstop
  have hnullable := h.nullable hstop.symm
  rw [hconsumes] at hnullable
  cases hnullable

section Laps

variable {lap : Nat → Captures → List Way} {quantifier : Quantifier} {captures : Captures}
  {way : Way}

/-- The first lap of a repetition that takes up no text takes up none either. -/
theorem Covers.nullable_of_laps (hforward : Search.Forward lap s.input.size)
    (hpos : pos ≤ s.input.size)
    (hlap : ∀ captures, ∀ next ∈ lap pos captures, outcome.Covers list s pos next.stop)
    (h : way ∈ Search.laps lap quantifier s.input.size ⟨pos, captures⟩) (hempty : way.stop = pos) :
    (outcome.nullable || quantifier.isOptional) = true := by
  cases hoptional : quantifier.isOptional with
  | true => exact Bool.or_true _
  | false =>
    obtain ⟨first, hfirst, hsame⟩ := Search.exists_empty_lap hforward hpos hoptional h hempty
    have hnullable := (hlap captures first hfirst).nullable hsame
    rw [hnullable, Bool.true_or]

/-- The first lap that takes up text begins where the repetition does. -/
theorem Covers.listed_of_laps (hforward : Search.Forward lap s.input.size)
    (hpos : pos ≤ s.input.size)
    (hlap : ∀ captures, ∀ next ∈ lap pos captures, outcome.Covers list s pos next.stop)
    (h : way ∈ Search.laps lap quantifier s.input.size ⟨pos, captures⟩) (hlt : pos < way.stop) :
    ∃ c, s.input[pos]? = some c ∧ c.toNat ∈ list.codes := by
  let Listed := fun way : Way => (pos ≤ way.stop ∧ way.stop ≤ s.input.size) ∧
    (pos < way.stop → ∃ c, s.input[pos]? = some c ∧ c.toNat ∈ list.codes)
  have hstep : ∀ start, Listed start → ∀ next ∈ lap start.stop start.captures, Listed next := by
    rintro start ⟨⟨hle, hsize⟩, hstart⟩ next hnext
    obtain ⟨hforth, hin⟩ := hforward start.stop start.captures hsize next hnext
    refine ⟨⟨Nat.le_trans hle hforth, hin⟩, ?_⟩
    intro hnextLt
    rcases Nat.eq_or_lt_of_le hle with heq | hbefore
    · rw [← heq] at hnext
      exact (hlap start.captures next hnext).listed hnextLt
    · exact hstart hbefore
  have hstart : Listed ⟨pos, captures⟩ :=
    ⟨⟨Nat.le_refl _, hpos⟩, fun hself => absurd hself (Nat.lt_irrefl _)⟩
  rw [Search.laps_eq_remainingLaps] at h
  exact (Search.forall_remainingLaps Listed hstep 0 hstart way h).2 hlt

end Laps

end LeadingOutcome

/-- Whether each character of the text is the variant of all others that count as the same. -/
def Subject.IsPaired (s : Subject) : Prop :=
  s.flags.ignoreCase = true → ∀ c ∈ s.input, s.mapping.PairedAt c

theorem Subject.isPaired_of_mapping {s : Subject} (h : s.mapping.IsPaired s.flags.ignoreCase) :
    s.IsPaired :=
  fun hignore c _ => h.pairedAt hignore c

namespace Node

variable {s : Subject} {nesting? : Option Nat}

theorem mem_of_accepts (hpaired : s.IsPaired) {set : CharClass}
    (hbounded : ¬ set.isUnbounded = true) {list : CodeList} {c : Char} (hc : c ∈ s.input)
    (h : s.accepts set c = true) :
    c.toNat ∈ ((charClass set).addLeadingCodes s.mapping s.flags.ignoreCase list).2.codes := by
  have hnegated := CharClass.negated_of_not_isUnbounded hbounded
  obtain ⟨other, hcontains, hagree⟩ := CharClass.exists_contains_of_accepts hnegated h
  obtain ⟨item, hitem, hcode⟩ := Array.any_eq_true'.mp hcontains
  rw [addLeadingCodes, if_neg hbounded, ← Array.foldl_toList, mem_codes_foldl_items]
  exact .inr ⟨item, Array.mem_toList_iff.mpr hitem, other.toNat, ClassItem.mem_codes.mpr hcode,
    CaseMapping.pairs_of_pairedAt (fun hignore => hpaired hignore c hc) hagree⟩

mutual

/-- Where the first characters of a node can be listed, they are, and so is whether it can match
the empty text. -/
theorem covers_of_isPaired (hpaired : s.IsPaired) :
    ∀ (node : Node) (list : CodeList) {pos : Nat} {captures : Captures} {way : Way},
      pos ≤ s.input.size → way ∈ node.ways s nesting? pos captures →
      let result := node.addLeadingCodes s.mapping s.flags.ignoreCase list
      result.1.enumerable = true → result.1.Covers result.2 s pos way.stop
  | literal c, list, _, _, _, _, h => by
    intro result _
    apply LeadingOutcome.Covers.take h
    intro other hmem hother
    have hpairs := CaseMapping.pairs_of_pairedAt (fun hignore => hpaired hignore other hmem) hother
    exact CodeList.mem_codes_addCased.mpr (.inr hpairs)
  | charClass set, list, _, _, _, _, h => by
    intro result henumerable
    by_cases hunbounded : set.isUnbounded = true
    · simp only [result, addLeadingCodes, if_pos hunbounded] at henumerable
      cases henumerable
    · have hresult : result.1 = .consumes := by
        simp only [result, addLeadingCodes, if_neg hunbounded]
      rw [hresult]
      exact .take h fun _ hc haccepts => mem_of_accepts hpaired hunbounded hc haccepts
  | anyChar, _, _, _, _, _, _ => nofun
  | backreference _, _, _, _, _, _, _ => nofun
  | anchor kind, _, _, _, _, _, h => by
    intro result _
    apply LeadingOutcome.Covers.empty
    rw [ways] at h
    split at h
    · rw [List.mem_singleton.mp h]
    · cases h
  | look kind inner, _, _, _, _, _, h => by
    intro result _
    rw [ways] at h
    exact .empty (Search.look_stop h)
  | group none inner, list, _, _, _, hpos, h => covers_of_isPaired hpaired inner list hpos h
  | group (some number) inner, list, _, _, _, hpos, h => by
    rw [ways] at h
    obtain ⟨inside, hinside, rfl⟩ := List.mem_map.mp h
    have hinner := covers_of_isPaired hpaired inner list hpos hinside
    exact hinner
  | concat items, list, _, _, _, hpos, h => coversSequence_of_isPaired hpaired items list hpos h
  | alternation branches, list, _, _, _, hpos, h =>
    coversBranches_of_isPaired hpaired branches list hpos h
  | repetition quantifier inner, list, pos, captures, way, hpos, h => by
    intro result henumerable
    have hlap : ∀ captures, ∀ next ∈ inner.ways s nesting? pos captures,
        (inner.addLeadingCodes s.mapping s.flags.ignoreCase list).1.Covers result.2 s pos
          next.stop :=
      fun captures next hnext => covers_of_isPaired hpaired inner list hpos hnext henumerable
    have hforward : Search.Forward (inner.ways s nesting?) s.input.size :=
      fun _ _ hstart _ hnext => stop_mem_ways inner hstart hnext
    rw [ways] at h
    constructor
    · exact LeadingOutcome.Covers.nullable_of_laps hforward hpos hlap h
    · exact LeadingOutcome.Covers.listed_of_laps hforward hpos hlap h

theorem coversSequence_of_isPaired (hpaired : s.IsPaired) :
    ∀ (items : List Node) (list : CodeList) {pos : Nat} {captures : Captures} {way : Way},
      pos ≤ s.input.size → way ∈ waysAll s items nesting? pos captures →
      let result := addSequenceCodes s.mapping s.flags.ignoreCase items list
      result.1.enumerable = true → result.1.Covers result.2 s pos way.stop
  | [], _, pos, _, way, _, h => by
    intro result _
    rw [waysAll, List.mem_singleton] at h
    rw [h]
    exact .empty rfl
  | item :: items, list, pos, captures, way, hpos, h => by
    intro result henumerable
    rw [waysAll, List.mem_flatMap] at h
    obtain ⟨first, hfirst, hway⟩ := h
    obtain ⟨hle, hsize⟩ := stop_mem_ways item hpos hfirst
    obtain ⟨hle', -⟩ := stop_mem_waysAll items hsize hway
    have hitem := covers_of_isPaired hpaired item list hpos hfirst
    simp only [result, addSequenceCodes] at henumerable ⊢
    split at henumerable
    · cases henumerable
    · next hlisted =>
      have hcovers := hitem (by simpa using hlisted)
      rw [if_neg hlisted]
      split
      · next hconsumes =>
        have hlt := hcovers.lt_of_not_nullable hle (by simpa using hconsumes)
        exact ⟨fun hstop => absurd hstop (by omega), fun _ => hcovers.listed hlt⟩
      · next hnullable =>
        rw [if_neg hnullable] at henumerable
        rcases Nat.eq_or_lt_of_le hle with hstop | hlt
        · rw [← hstop] at hway
          exact coversSequence_of_isPaired hpaired items _ hpos hway henumerable
        · obtain ⟨c, hc, hmem⟩ := hcovers.listed hlt
          exact ⟨fun hstop => absurd hstop (by omega),
            fun _ => ⟨c, hc, mem_addSequenceCodes items hmem⟩⟩

theorem coversBranches_of_isPaired (hpaired : s.IsPaired) :
    ∀ (branches : List Node) (list : CodeList) {pos : Nat} {captures : Captures} {way : Way},
      pos ≤ s.input.size → way ∈ waysAny s branches nesting? pos captures →
      let result := addBranchCodes s.mapping s.flags.ignoreCase branches list
      result.1.enumerable = true → result.1.Covers result.2 s pos way.stop
  | [], _, _, _, _, _, h => by cases h
  | branch :: branches, list, pos, captures, way, hpos, h => by
    intro result henumerable
    simp only [result, addBranchCodes, Bool.and_eq_true] at henumerable
    rw [waysAny, List.mem_append] at h
    rcases h with hfirst | hothers
    · have hcovers := covers_of_isPaired hpaired branch list hpos hfirst henumerable.1
      constructor
      · intro hstop
        exact Bool.or_eq_true_iff.mpr (.inl (hcovers.nullable hstop))
      · intro hlt
        obtain ⟨c, hc, hmem⟩ := hcovers.listed hlt
        exact ⟨c, hc, mem_addBranchCodes branches hmem⟩
    · have hcovers := coversBranches_of_isPaired hpaired branches _ hpos hothers henumerable.2
      exact ⟨fun hstop => Bool.or_eq_true_iff.mpr (.inr (hcovers.nullable hstop)), hcovers.listed⟩

end

theorem covers_addLeadingCodes (hpaired : s.mapping.IsPaired s.flags.ignoreCase) (node : Node)
    (list : CodeList) {pos : Nat} {captures : Captures} {way : Way} (hpos : pos ≤ s.input.size)
    (hway : way ∈ node.ways s nesting? pos captures)
    (henumerable :
      (node.addLeadingCodes s.mapping s.flags.ignoreCase list).1.enumerable = true) :
    (node.addLeadingCodes s.mapping s.flags.ignoreCase list).1.Covers
      (node.addLeadingCodes s.mapping s.flags.ignoreCase list).2 s pos way.stop :=
  covers_of_isPaired (Subject.isPaired_of_mapping hpaired) node list hpos hway henumerable

theorem exists_mem_leadingCodes (hpaired : s.mapping.IsPaired s.flags.ignoreCase) {node : Node}
    {pos : Nat} {captures : Captures} {way : Way} (hpos : pos ≤ s.input.size)
    (hway : way ∈ node.ways s nesting? pos captures)
    (henumerable : (node.leadingCodes s.mapping s.flags.ignoreCase).enumerable = true)
    (hlt : pos < way.stop) :
    ∃ c, s.input[pos]? = some c ∧
      c.toNat ∈ (node.leadingCodes s.mapping s.flags.ignoreCase).codes :=
  (covers_addLeadingCodes hpaired node {} hpos hway henumerable).listed hlt

end Node

theorem Pattern.exists_mem_leadingCodes {pattern : Pattern} {mapping : CaseMapping}
    {input : Array Char} {start stop : Nat}
    (hpaired : Subject.IsPaired ⟨mapping, pattern.flags, input⟩)
    (hlisted : (pattern.leadingCodes mapping none).isEmpty = false)
    (hmatch : pattern.program.matchAt? mapping input start = some stop) (hlt : start < stop) :
    ∃ c, input[start]? = some c ∧ c.toNat ∈ pattern.leadingCodes mapping none := by
  obtain ⟨hstart, way, hway, rfl⟩ := Program.exists_way_of_matchAt? hmatch
  unfold leadingCodes at hlisted ⊢
  simp only [Option.getD_none] at hlisted ⊢
  split at hlisted
  · next henumerable =>
    rw [if_pos henumerable]
    exact (Node.covers_of_isPaired hpaired pattern.root {} hstart hway henumerable).listed hlt
  · cases hlisted

/-- Where all first characters are listed, a match that takes up text begins with one of them, and
only a pattern that is said to match the empty text does. -/
theorem Pattern.leadingCodes_complete {pattern : Pattern} {mapping : CaseMapping}
    (hpaired : mapping.IsPaired pattern.flags.ignoreCase)
    (henumerable : (pattern.root.leadingCodes mapping pattern.flags.ignoreCase).enumerable = true)
    (input : Array Char) (start : Nat) :
    (∀ stop, pattern.program.matchAt? mapping input start = some stop → start < stop →
      ∃ c, input[start]? = some c ∧ c.toNat ∈ pattern.leadingCodes mapping none) ∧
    ((pattern.root.leadingCodes mapping pattern.flags.ignoreCase).nullable = false →
      pattern.program.matchAt? mapping input start ≠ some start) := by
  constructor
  · intro stop hmatch hlt
    obtain ⟨hstart, way, hway, rfl⟩ := Program.exists_way_of_matchAt? hmatch
    rw [leadingCodes, Option.getD_none, if_pos henumerable]
    exact Node.exists_mem_leadingCodes hpaired hstart hway henumerable hlt
  · intro hconsumes hmatch
    obtain ⟨hstart, way, hway, hempty⟩ := Program.exists_way_of_matchAt? hmatch
    have hcovers := Node.covers_addLeadingCodes hpaired pattern.root {} hstart hway henumerable
    exact absurd (hcovers.nullable hempty) (Bool.eq_false_iff.mp hconsumes)

/-- A letter in either case, behind laps that may take up nothing. -/
theorem Pattern.leadingCodes_complete_of_optional_laps :
    let pattern : Pattern :=
      ⟨.concat [.anchor .start,
        .repetition .star (.group none (.repetition .question (.literal 'x'))), .literal 'a'],
        { ignoreCase := true }, ⟨rfl, rfl⟩⟩
    let input : Array Char := #['X', 'A']
    CaseMapping.ascii.IsPaired pattern.flags.ignoreCase ∧
      (pattern.root.leadingCodes .ascii pattern.flags.ignoreCase).enumerable = true ∧
      pattern.program.matchAt? .ascii input 0 = some 2 ∧
      (∃ c, input[0]? = some c ∧ c.toNat ∈ pattern.leadingCodes .ascii none) ∧
      pattern.program.matchAt? .ascii input 0 ≠ some 0 := by
  intro pattern input
  have hpaired : CaseMapping.ascii.IsPaired pattern.flags.ignoreCase := fun _ => rfl
  have henumerable :
      (pattern.root.leadingCodes .ascii pattern.flags.ignoreCase).enumerable = true := rfl
  have hmatch : pattern.program.matchAt? .ascii input 0 = some 2 := by
    rw [Program.matchAt?_eq]
    decide +kernel
  obtain ⟨hlisted, hempty⟩ := leadingCodes_complete hpaired henumerable input 0
  exact ⟨hpaired, henumerable, hmatch, hlisted 2 hmatch (by decide), hempty rfl⟩

end TokenPatterns
