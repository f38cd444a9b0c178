import TokenPatterns.Analysis.Membership
import TokenPatterns.Proofs.Dispatching
import TokenPatterns.Proofs.Positions
import TokenPatterns.Search.Taken

/-!
# Line breaks in matches

Whether a match can hold line breaks is inferred from the leaves of a pattern, without a look at
references. That is right if references repeat parts of the match. What a lookaround captured may
lie outside of it, and a reference then brings in line breaks that no leaf of the match accepts.
-/
namespace TokenPatterns

namespace CaseMapping

/-- Whether no other character counts as the same letter, and none is paired with it. -/
structure IsCaseless (mapping : CaseMapping) (c : Char) : Prop where
  eq_of_canonical : ∀ other, mapping.canonical other = mapping.canonical c → other = c
  variant? : mapping.variant? c.toNat = none

theorem canonical_eq_or_mem_upper (mapping : CaseMapping) (c : Char) :
    mapping.canonical c = c ∨ mapping.canonical c ∈ mapping.upper c := by
  unfold canonical
  split
  · next image himage =>
    rw [himage]
    split
    · exact .inr (List.mem_singleton.mpr rfl)
    · exact .inl rfl
  · exact .inl rfl

theorem eq_of_mem_upper_of_isLineTerminator {mapping : CaseMapping} {c other : Char}
    (hc : isLineTerminator c = true) (h : c ∈ mapping.upper other) : other = c := by
  by_contra hne
  have hnamed := isLineTerminator_iff.mp hc
  cases mapping with
  | ascii =>
    obtain rfl := List.mem_singleton.mp h
    have hlower : other.isLower = true := by
      by_contra hlower
      exact hne (Char.toUpper_eq_of_not_isLower hlower).symm
    have hupper : other.toUpper.isUpper = true := by
      rw [Char.isUpper_toUpper_eq_isAlpha, Char.isAlpha, hlower, Bool.or_true]
    rcases hnamed with h | h | h | h <;> rw [h] at hupper <;> cases hupper
  | unicode =>
    have hzero : c.toNat ≠ 0 := by
      rcases hnamed with rfl | rfl | rfl | rfl <;> decide
    have hreach := Unicode.CaseTable.mayReach_of_mem_map h (Ne.symm hne) hzero
    have hunreached :
        ∀ code ∈ lineTerminators, Unicode.uppercaseTable.mayReach code = false := by
      decide +kernel
    rw [hunreached c.toNat (List.contains_iff_mem.mp hc)] at hreach
    cases hreach

theorem isCaseless_of_isLineTerminator (mapping : CaseMapping) {c : Char}
    (hc : isLineTerminator c = true) : mapping.IsCaseless c := by
  have hplain : mapping.canonical c = c ∧ mapping.variant? c.toNat = none := by
    rcases isLineTerminator_iff.mp hc with rfl | rfl | rfl | rfl <;> cases mapping <;>
      decide +kernel
  constructor
  · intro other h
    rw [hplain.1] at h
    rcases mapping.canonical_eq_or_mem_upper other with hself | hupper
    · exact hself.symm.trans h
    · rw [h] at hupper
      exact eq_of_mem_upper_of_isLineTerminator hc hupper
  · exact hplain.2

variable {mapping : CaseMapping} {ignoreCase : Bool} {c other : Char}

theorem IsCaseless.eq_of_agree (h : mapping.IsCaseless c)
    (hagree : mapping.agree ignoreCase other c = true) : other = c := by
  cases ignoreCase with
  | false => simpa using hagree
  | true => exact h.eq_of_canonical other (agree_true_iff.mp hagree)

end CaseMapping

/-- On a character without case the two readings of a class agree. -/
theorem CharClass.accepts_of_isCaseless {mapping : CaseMapping} {c : Char} (ignoreCase : Bool)
    (set : CharClass) (h : mapping.IsCaseless c) :
    set.accepts mapping ignoreCase c = set.matchesCode mapping ignoreCase c.toNat := by
  have hletter : set.containsLetter mapping c = true → set.contains c.toNat = true := by
    intro hletter
    obtain ⟨other, -, hother⟩ := List.any_eq_true.mp hletter
    rw [Bool.and_eq_true, beq_iff_eq] at hother
    rw [← h.eq_of_canonical other hother.1]
    exact hother.2
  unfold accepts matchesCode
  rw [h.variant?]
  cases hcontains : set.contains c.toNat with
  | true => simp
  | false =>
    have hnone : set.containsLetter mapping c = false := by
      rw [Bool.eq_false_iff]
      exact fun h => Bool.eq_false_iff.mp hcontains (hletter h)
    simp [hnone]

/-- Whether each leaf that accepts the character may contain a candidate. -/
structure Candidates.Answer (candidates : Candidates) (s : Subject) (c : Char) : Prop where
  literal : ∀ d, s.agree d c = true → candidates.hasLiteral d = true
  charClass : ∀ set, s.accepts set c = true → candidates.hasMember set = true
  anyChar : s.acceptsAny c = true → candidates.hasAnyChar = true

theorem Candidates.answer_of_isCaseless {s : Subject} {codes : List Nat} {c : Char}
    (hcode : c.toNat ∈ codes) (hc : s.mapping.IsCaseless c) :
    Answer ⟨codes, s.mapping, s.flags⟩ s c := by
  constructor
  · intro d hagree
    obtain rfl := hc.eq_of_agree hagree
    exact List.any_eq_true.mpr ⟨_, hcode, by simp⟩
  · intro set haccepts
    refine List.any_eq_true.mpr ⟨_, hcode, ?_⟩
    rw [← CharClass.accepts_of_isCaseless s.flags.ignoreCase set hc]
    exact haccepts
  · intro haccepts
    exact List.any_eq_true.mpr ⟨_, hcode, haccepts⟩

namespace Node

mutual

theorem mayContain_of_takes {candidates : Candidates} {s : Subject} {c : Char}
    (h : candidates.Answer s c) : ∀ node : Node, node.takes s c = true →
      node.mayContain candidates = true
  | literal d, htakes => h.literal d htakes
  | charClass set, htakes => h.charClass set htakes
  | anyChar, htakes => h.anyChar htakes
  | group _ inner, htakes => mayContain_of_takes h inner htakes
  | concat items, htakes => anyMayContain_of_anyTakes h items htakes
  | alternation branches, htakes => anyMayContain_of_anyTakes h branches htakes
  | repetition _ inner, htakes => mayContain_of_takes h inner htakes

theorem anyMayContain_of_anyTakes {candidates : Candidates} {s : Subject} {c : Char}
    (h : candidates.Answer s c) : ∀ nodes : List Node, anyTakes s c nodes = true →
      anyMayContain candidates nodes = true
  | node :: nodes, htakes => by
    rw [anyTakes, Bool.or_eq_true] at htakes
    rw [anyMayContain, Bool.or_eq_true]
    exact htakes.imp (mayContain_of_takes h node) (anyMayContain_of_anyTakes h nodes)

end

/-- Whether each reference outside of lookarounds names a group outside of them, so that it repeats
a part of the match. -/
def RepeatsOnlyMatched (node : Node) : Prop :=
  ∀ number ∈ node.outerReferences, number ∉ node.lookCaptures

instance : DecidablePred RepeatsOnlyMatched := fun node =>
  inferInstanceAs (Decidable (∀ number ∈ node.outerReferences, number ∉ node.lookCaptures))

end Node

namespace Pattern

variable {pattern : Pattern} {mapping : CaseMapping} {input : Array Char} {start stop : Nat}

/-- Each character of a match counts as the same letter as one that a leaf accepts. -/
theorem consistsOf_of_matchAt? (hrepeats : pattern.root.RepeatsOnlyMatched)
    (hmatch : pattern.program.matchAt? mapping input start = some stop) :
    let s : Subject := ⟨mapping, pattern.flags, input⟩
    ConsistsOf input (fun c => ∃ d, s.agree d c = true ∧ pattern.root.takes s d = true) start
      stop := by
  intro s
  obtain ⟨-, way, hway, rfl⟩ := Program.exists_way_of_matchAt? hmatch
  have hclosed : ∀ a b, s.agree a b = true →
      (∃ d, s.agree d a = true ∧ pattern.root.takes s d = true) →
        ∃ d, s.agree d b = true ∧ pattern.root.takes s d = true := by
    rintro a b hab ⟨d, hda, hd⟩
    exact ⟨d, CaseMapping.agree_trans hda hab, hd⟩
  have hbrings : pattern.root.BringsOnly s
      (fun c => ∃ d, s.agree d c = true ∧ pattern.root.takes s d = true)
      pattern.root.lookCaptures := by
    constructor
    · exact fun c hc => ⟨c, CaseMapping.agree_self _ _ c, hc⟩
    · exact hrepeats
    · exact fun _ => id
  exact (Node.consistsOf_of_mem_ways hclosed pattern.root hbrings
    (Captures.consistOf_none _ _ _) hway).text

theorem takes_of_matchAt? (hrepeats : pattern.root.RepeatsOnlyMatched)
    (hmatch : pattern.program.matchAt? mapping input start = some stop) {offset : Nat} {c : Char}
    (hle : start ≤ offset) (hlt : offset < stop) (hc : input[offset]? = some c)
    (hcaseless : mapping.IsCaseless c) :
    pattern.root.takes ⟨mapping, pattern.flags, input⟩ c = true := by
  obtain ⟨other, hother, d, hagree, htakes⟩ :=
    consistsOf_of_matchAt? hrepeats hmatch offset hle hlt
  obtain rfl := Option.some.inj (hother.symm.trans hc)
  obtain rfl := hcaseless.eq_of_agree hagree
  exact htakes

theorem canContain_of_takes {codes : List Nat} {c : Char} (hcode : c.toNat ∈ codes)
    (hcaseless : mapping.IsCaseless c)
    (htakes : pattern.root.takes ⟨mapping, pattern.flags, input⟩ c = true) :
    pattern.canContain mapping codes = true :=
  Node.mayContain_of_takes (Candidates.answer_of_isCaseless hcode hcaseless) pattern.root htakes

/-- If a match holds a line terminator, the pattern is known to match line terminators. -/
theorem canContain_lineTerminators (hrepeats : pattern.root.RepeatsOnlyMatched)
    (hmatch : pattern.program.matchAt? mapping input start = some stop)
    (hbreak : ∃ offset c, start ≤ offset ∧ offset < stop ∧ input[offset]? = some c ∧
      isLineTerminator c = true) :
    pattern.canContain mapping lineTerminators = true := by
  obtain ⟨offset, c, hle, hlt, hc, hterminator⟩ := hbreak
  have hcaseless := CaseMapping.isCaseless_of_isLineTerminator mapping hterminator
  exact canContain_of_takes (List.contains_iff_mem.mp hterminator) hcaseless
    (takes_of_matchAt? hrepeats hmatch hle hlt hc hcaseless)

/-- A class that is inverted, captured and repeated, under ignored case. -/
theorem canContain_lineTerminators_of_repeated_class :
    let pattern : Pattern :=
      ⟨.concat [.look ⟨false, true⟩ (.literal 'b'),
        .group (some 1) (.charClass { items := #[.single 97], negated := true }),
        .backreference 1], { ignoreCase := true }, ⟨rfl, rfl⟩⟩
    pattern.root.RepeatsOnlyMatched ∧
      pattern.program.matchAt? .unicode #['\n', '\n'] 0 = some 2 ∧
      pattern.canContain .unicode lineTerminators = true := by
  intro pattern
  have hrepeats : pattern.root.RepeatsOnlyMatched := by decide
  have hmatch : pattern.program.matchAt? .unicode #['\n', '\n'] 0 = some 2 := by
    rw [Program.matchAt?_eq]
    decide +kernel
  exact ⟨hrepeats, hmatch, canContain_lineTerminators hrepeats hmatch
    ⟨0, '\n', Nat.le_refl 0, by decide, rfl, by decide⟩⟩

/-- A reference brings in what a lookahead captured. -/
theorem not_canContain_of_repeated_look :
    ∃ pattern, ofSource? (.regex "(?=(\\n))\\1") {} = .ok pattern ∧
      pattern.program.matchAt? .unicode #['\n'] 0 = some 1 ∧
      pattern.canContain .unicode lineTerminators = false := by
  have hread : (ofSource? (.regex "(?=(\\n))\\1") {}).toOption.map
      (fun pattern => (pattern.root, pattern.flags)) =
        some (.concat [.look ⟨false, false⟩ (.group (some 1) (.literal '\n')), .backreference 1],
          {}) := by
    decide +kernel
  cases h : ofSource? (.regex "(?=(\\n))\\1") {} with
  | error mistake => simp [h, Except.toOption] at hread
  | ok pattern =>
    simp only [h, Except.toOption, Option.map_some, Option.some.injEq, Prod.mk.injEq] at hread
    obtain ⟨hroot, hflags⟩ := hread
    refine ⟨pattern, rfl, ?_, ?_⟩
    · rw [Program.matchAt?_eq]
      simp only [Pattern.program, hroot, hflags]
      decide +kernel
    · rw [canContain, hroot, hflags]
      rfl

end Pattern

namespace Tokenizer

variable {tokenizer : Tokenizer} {input : Array Char}

theorem matchesAt_of_mem_segments {type : Nat} {start last : Cursor}
    (h : Segment.found type start last ∈ tokenizer.segments input) :
    tokenizer.MatchesAt input start.offset type (last.offset + 1) := by
  obtain ⟨pieces, hpieces, hsplits⟩ :=
    exists_splits_segmentsFrom tokenizer input {} none #[] (Nat.zero_le _) nofun
  have hmem : Piece.found type start.offset (last.offset + 1) ∈ pieces := by
    have hpiece := List.mem_map_of_mem (f := Segment.piece) (Array.mem_toList_iff.mpr h)
    rwa [segments, hpieces] at hpiece
  obtain ⟨-, -, -, -, -, hmatches, -⟩ := hsplits.fits _ hmem
  exact hmatches

/-- If no type declares whether its matches hold line breaks, and none repeats what a lookaround
captured, lines are counted in all matches that hold a line terminator. -/
theorem countsBreaks_of_ofTypes? {types : List TokenType} {options : TokenizerOptions}
    (h : ofTypes? types options = .ok tokenizer)
    (hinferred : ∀ type ∈ types, type.lineBreaks? = none)
    (hrepeats : ∀ type ∈ types, type.pattern.root.RepeatsOnlyMatched) :
    tokenizer.CountsBreaks input := by
  obtain ⟨rfl, htypes⟩ := mem_of_ofTypes? h
  rintro (⟨type, start, last⟩ | _) hsegment
  · by_cases htracks : tokenizer.tracksLines type = true
    · exact .inl htracks
    · refine .inr fun offset hle hlt c hc => Bool.eq_false_iff.mpr fun hterminator => htracks ?_
      obtain ⟨analyzed, hanalyzed, hmatch, -⟩ := matchesAt_of_mem_segments hsegment
      obtain ⟨entry, hentry, hanalyze⟩ := htypes analyzed (Array.mem_of_getElem? hanalyzed)
      obtain ⟨hprogram, -, hcounts⟩ := TokenType.analyze_eq_ok hanalyze
      have hcaseless :=
        CaseMapping.isCaseless_of_isLineTerminator tokenizer.options.mapping hterminator
      rw [hprogram] at hmatch
      have htakes := Pattern.takes_of_matchAt? (hrepeats entry hentry) hmatch hle
        (Nat.lt_succ_of_le hlt) hc hcaseless
      rw [tracksLines, hanalyzed, Option.any_some, hcounts, hinferred entry hentry,
        Option.getD_none]
      exact Pattern.canContain_of_takes (List.contains_iff_mem.mp hterminator) hcaseless htakes
  · trivial

end Tokenizer
end TokenPatterns
