import TokenPatterns.Proofs.EmptyMatches
import TokenPatterns.Proofs.LeadingCodes
import TokenPatterns.Proofs.PartwiseCodes
import TokenPatterns.Proofs.RegularMatching

/-!
# Leading codes of regular patterns

The leading codes of a regular pattern are the first characters of its words, and none besides, if
no part of it is idle: each class accepts a character, and each repetition may have a lap. Then
every part has a word, so that what begins a word of a part can be carried on to a word of the
whole.
-/
namespace TokenPatterns

/-- Whether a word of the language begins with the character. -/
def Begins (language : Language Char) (c : Char) : Prop := ∃ word, c :: word ∈ language

section Words

variable {language other : Language Char} {c : Char} {quantifier : Quantifier}

theorem Begins.mul_right (h : Begins language c) (hother : ∃ word, word ∈ other) :
    Begins (language * other) c := by
  obtain ⟨first, hfirst⟩ := h
  obtain ⟨second, hsecond⟩ := hother
  exact ⟨first ++ second, Language.mem_mul.mpr ⟨c :: first, hfirst, second, hsecond, rfl⟩⟩

theorem Begins.mul_left (hempty : [] ∈ language) (h : Begins other c) :
    Begins (language * other) c := by
  obtain ⟨word, hword⟩ := h
  exact ⟨word, Language.mem_mul.mpr ⟨[], hempty, c :: word, hword, rfl⟩⟩

theorem exists_mem_pow (h : ∃ word, word ∈ language) (count : Nat) :
    ∃ word, word ∈ language ^ count := by
  induction count with
  | zero => exact ⟨[], by rw [pow_zero, Language.mem_one]⟩
  | succ count ih =>
    obtain ⟨first, hfirst⟩ := h
    obtain ⟨rest, hrest⟩ := ih
    rw [pow_succ']
    exact ⟨first ++ rest, Language.mem_mul.mpr ⟨first, hfirst, rest, hrest, rfl⟩⟩

theorem Quantifier.allows_min (horder : quantifier.inOrder = true) :
    quantifier.allows quantifier.min := by
  refine ⟨Nat.le_refl _, fun bound hbound => ?_⟩
  rw [Option.mem_def] at hbound
  simpa [inOrder, hbound] using horder

theorem Quantifier.exists_allows_succ (horder : quantifier.inOrder = true)
    (hmax : quantifier.max ≠ some 0) : ∃ count, quantifier.allows (count + 1) := by
  cases hmin : quantifier.min with
  | succ count => exact ⟨count, hmin ▸ allows_min horder⟩
  | zero =>
    refine ⟨0, by omega, fun bound hbound => ?_⟩
    have hne : bound ≠ 0 := by
      rintro rfl
      exact hmax hbound
    omega

theorem Begins.powers (h : Begins language c) (horder : quantifier.inOrder = true)
    (hmax : quantifier.max ≠ some 0) : Begins (quantifier.powers language) c := by
  obtain ⟨count, hcount⟩ := Quantifier.exists_allows_succ horder hmax
  obtain ⟨first, hfirst⟩ := h
  have hlaps : Begins (language * language ^ count) c :=
    .mul_right ⟨first, hfirst⟩ (exists_mem_pow ⟨c :: first, hfirst⟩ count)
  obtain ⟨word, hword⟩ := hlaps
  exact ⟨word, count + 1, hcount, by rwa [pow_succ']⟩

end Words

namespace Node

variable {mapping : CaseMapping} {flags : Flags} {captureCount : Nat} {c : Char}

/-- Whether, among the nodes, each class accepts a character and each repetition may have a lap. -/
structure AreFruitful (mapping : CaseMapping) (flags : Flags) (nodes : List Node) : Prop where
  accepts : ∀ set, charClass set ∈ nodes → ∃ c, set.accepts mapping flags.ignoreCase c = true
  laps : ∀ quantifier inner, repetition quantifier inner ∈ nodes → quantifier.max ≠ some 0

theorem AreFruitful.mono {nodes more : List Node} (h : AreFruitful mapping flags more)
    (hsubset : nodes ⊆ more) : AreFruitful mapping flags nodes where
  accepts set hset := h.accepts set (hsubset hset)
  laps quantifier inner hlaps := h.laps quantifier inner (hsubset hlaps)

section Fruitful

variable {node : Node} {nodes more : List Node}

theorem AreFruitful.tail (h : AreFruitful mapping flags (node :: nodes)) :
    AreFruitful mapping flags nodes :=
  h.mono (List.subset_cons_self node nodes)

theorem AreFruitful.left (h : AreFruitful mapping flags (nodes ++ more)) :
    AreFruitful mapping flags nodes :=
  h.mono (List.subset_append_left nodes more)

theorem AreFruitful.right (h : AreFruitful mapping flags (nodes ++ more)) :
    AreFruitful mapping flags more :=
  h.mono (List.subset_append_right nodes more)

end Fruitful

mutual

theorem exists_mem_language : ∀ node : Node, node.isRegular = true →
    node.isWellFormed captureCount = true → AreFruitful mapping flags node.subtrees →
    ∃ word, word ∈ node.language mapping flags
  | literal d, _, _, _ => ⟨[d], d, CaseMapping.agree_self _ _ d, rfl⟩
  | charClass set, _, _, hfruitful => by
    obtain ⟨d, hd⟩ := hfruitful.accepts set (mem_subtrees_self _)
    exact ⟨[d], d, hd, rfl⟩
  | anyChar, _, _, _ => ⟨['a'], 'a', by simp [isLineTerminator, lineTerminators], rfl⟩
  | group _ inner, hregular, hwf, hfruitful =>
    exists_mem_language inner hregular (isWellFormed_of_group hwf) hfruitful.tail
  | concat items, hregular, hwf, hfruitful =>
    exists_mem_sequenceLanguage items hregular hwf hfruitful.tail
  | alternation branches, hregular, hwf, hfruitful => by
    obtain ⟨hne, hbranches⟩ := isWellFormed_of_alternation hwf
    exact exists_mem_unionLanguage branches hne hregular hbranches hfruitful.tail
  | repetition quantifier inner, hregular, hwf, hfruitful => by
    obtain ⟨horder, hinner⟩ := isWellFormed_of_repetition hwf
    have hlap := exists_mem_language inner hregular hinner hfruitful.tail
    obtain ⟨word, hword⟩ := exists_mem_pow hlap quantifier.min
    exact ⟨word, quantifier.min, Quantifier.allows_min horder, hword⟩

theorem exists_mem_sequenceLanguage : ∀ items : List Node, allRegular items = true →
    allWellFormed captureCount items = true → AreFruitful mapping flags (subtreesAll items) →
    ∃ word, word ∈ sequenceLanguage mapping flags items
  | [], _, _, _ => ⟨[], Language.nil_mem_one⟩
  | item :: items, hregular, hwf, hfruitful => by
    obtain ⟨hitem, hitems⟩ := allRegular_cons.mp hregular
    obtain ⟨hwfItem, hwfItems⟩ := allWellFormed_cons.mp hwf
    obtain ⟨first, hfirst⟩ := exists_mem_language item hitem hwfItem hfruitful.left
    obtain ⟨rest, hrest⟩ := exists_mem_sequenceLanguage items hitems hwfItems hfruitful.right
    exact ⟨first ++ rest, Language.mem_mul.mpr ⟨first, hfirst, rest, hrest, rfl⟩⟩

theorem exists_mem_unionLanguage : ∀ branches : List Node, branches ≠ [] →
    allRegular branches = true → allWellFormed captureCount branches = true →
    AreFruitful mapping flags (subtreesAll branches) →
    ∃ word, word ∈ unionLanguage mapping flags branches
  | branch :: branches, _, hregular, hwf, hfruitful => by
    obtain ⟨word, hword⟩ := exists_mem_language branch (allRegular_cons.mp hregular).1
      (allWellFormed_cons.mp hwf).1 hfruitful.left
    exact ⟨word, (Language.mem_add _ _ _).mpr (.inl hword)⟩

end

mutual

theorem isAssertion_of_isRegular : ∀ node : Node, node.isRegular = true →
    ∀ part ∈ node.subtrees, part.isAssertion = false
  | literal _, _ => List.forall_mem_singleton.mpr rfl
  | charClass _, _ => List.forall_mem_singleton.mpr rfl
  | anyChar, _ => List.forall_mem_singleton.mpr rfl
  | group _ inner, h => List.forall_mem_cons.mpr ⟨rfl, isAssertion_of_isRegular inner h⟩
  | concat items, h => List.forall_mem_cons.mpr ⟨rfl, isAssertion_of_allRegular items h⟩
  | alternation branches, h => List.forall_mem_cons.mpr ⟨rfl, isAssertion_of_allRegular branches h⟩
  | repetition _ inner, h => List.forall_mem_cons.mpr ⟨rfl, isAssertion_of_isRegular inner h⟩

theorem isAssertion_of_allRegular : ∀ nodes : List Node, allRegular nodes = true →
    ∀ part ∈ subtreesAll nodes, part.isAssertion = false
  | [], _ => nofun
  | node :: nodes, h => by
    obtain ⟨hnode, hnodes⟩ := allRegular_cons.mp h
    exact List.forall_mem_append.mpr
      ⟨isAssertion_of_isRegular node hnode, isAssertion_of_allRegular nodes hnodes⟩

end

/-- The word of a text is in the language of a regular tree if a way leads through all of it. -/
theorem mem_language_iff {node : Node} (hregular : node.isRegular = true)
    (hwf : node.isWellFormed captureCount = true) (word : List Char) :
    word ∈ node.language mapping flags ↔
      ∃ way ∈ node.ways ⟨mapping, flags, word.toArray⟩ none 0 Captures.none,
        way.stop = word.length := by
  have hdecides : Search.Decides word.toArray
      (node.ways ⟨mapping, flags, word.toArray⟩ none) (node.language mapping flags) :=
    decides_ways (s := ⟨mapping, flags, word.toArray⟩) node hregular hwf
  rw [hdecides 0 word.length Captures.none (Nat.zero_le _)]
  have hall : (word.toArray.extract 0 word.length).toList = word := by simp
  constructor
  · intro hword
    exact ⟨Nat.zero_le _, Nat.le_refl _, hall.symm ▸ hword⟩
  · intro hspans
    exact hall ▸ hspans.mem

theorem nil_mem_language_iff {node : Node} (hregular : node.isRegular = true)
    (hwf : node.isWellFormed captureCount = true) :
    [] ∈ node.language mapping flags ↔ node.mayBeEmpty = true := by
  rw [mem_language_iff hregular hwf]
  constructor
  · rintro ⟨way, hway, hstop⟩
    exact mayBeEmpty_of_mem_ways node (Nat.zero_le _) hway hstop
  · intro hempty
    obtain ⟨way, hway, hwayEmpty⟩ := exists_isEmptyAt (Nat.zero_le _) node
      (isAssertion_of_isRegular node hregular) hempty Captures.areEmpty_none
    exact ⟨way, hway, hwayEmpty.stop⟩

theorem begins_of_mem_charClass (hcase : flags.ignoreCase = false) (set : CharClass)
    (h : c.toNat ∈ ((charClass set).partwiseCodes mapping false).codes) :
    Begins ((charClass set).language mapping flags) c := by
  rw [partwiseCodes] at h
  split at h
  · exact absurd h (Array.not_mem_empty _)
  · next hbounded =>
    have hnegated := CharClass.negated_of_not_isUnbounded hbounded
    rw [LeadingCodes.mem_ofCodes, List.mem_flatMap] at h
    obtain ⟨code, hcode, hform⟩ := h
    rw [CaseMapping.forms_false, List.mem_singleton] at hform
    rw [← hform, List.mem_flatMap] at hcode
    obtain ⟨item, hitem, hmem⟩ := hcode
    have hcontains : set.contains c.toNat = true :=
      Array.any_eq_true'.mpr ⟨item, Array.mem_toList_iff.mp hitem, ClassItem.mem_codes.mp hmem⟩
    refine ⟨[], c, ?_, rfl⟩
    rw [hcase, CharClass.accepts_false, hcontains, hnegated]
    rfl

mutual

/-- Each code that is listed begins a word. -/
theorem begins_of_mem_partwiseCodes (hcase : flags.ignoreCase = false) : ∀ node : Node,
    node.isRegular = true → node.isWellFormed captureCount = true →
    AreFruitful mapping flags node.subtrees →
    c.toNat ∈ (node.partwiseCodes mapping false).codes → Begins (node.language mapping flags) c
  | literal d, _, _, _, h => by
    rw [partwiseCodes, LeadingCodes.mem_ofCodes, CaseMapping.forms_false, List.mem_singleton,
      Char.toNat_inj] at h
    exact ⟨[], c, by rw [h, CaseMapping.agree_self], rfl⟩
  | charClass set, _, _, _, h => begins_of_mem_charClass hcase set h
  | anyChar, _, _, _, h => absurd h (Array.not_mem_empty _)
  | group _ inner, hregular, hwf, hfruitful, h =>
    begins_of_mem_partwiseCodes hcase inner hregular (isWellFormed_of_group hwf) hfruitful.tail h
  | concat items, hregular, hwf, hfruitful, h =>
    begins_of_mem_ofSequence hcase items hregular hwf hfruitful.tail h
  | alternation branches, hregular, hwf, hfruitful, h =>
    begins_of_mem_ofBranches hcase branches hregular (isWellFormed_of_alternation hwf).2
      hfruitful.tail h
  | repetition quantifier inner, hregular, hwf, hfruitful, h => by
    obtain ⟨horder, hinner⟩ := isWellFormed_of_repetition hwf
    have hmax := hfruitful.laps quantifier inner (mem_subtrees_self _)
    exact (begins_of_mem_partwiseCodes hcase inner hregular hinner hfruitful.tail h).powers
      horder hmax

theorem begins_of_mem_ofSequence (hcase : flags.ignoreCase = false) : ∀ items : List Node,
    allRegular items = true → allWellFormed captureCount items = true →
    AreFruitful mapping flags (subtreesAll items) →
    c.toNat ∈ (LeadingCodes.ofSequence (partwiseCodesAll mapping false items)).codes →
    Begins (sequenceLanguage mapping flags items) c
  | [], _, _, _, h => absurd h (Array.not_mem_empty _)
  | item :: items, hregular, hwf, hfruitful, h => by
    obtain ⟨hitem, hitems⟩ := allRegular_cons.mp hregular
    obtain ⟨hwfItem, hwfItems⟩ := allWellFormed_cons.mp hwf
    have hfirst : c.toNat ∈ (item.partwiseCodes mapping false).codes →
        Begins (sequenceLanguage mapping flags (item :: items)) c := fun hmem =>
      (begins_of_mem_partwiseCodes hcase item hitem hwfItem hfruitful.left hmem).mul_right
        (exists_mem_sequenceLanguage items hitems hwfItems hfruitful.right)
    rw [partwiseCodesAll] at h
    cases hpassed : (item.partwiseCodes mapping false).isPassed with
    | false =>
      rw [LeadingCodes.ofSequence_of_not_isPassed hpassed, LeadingCodes.mem_joined] at h
      obtain ⟨part, hpart, hmem⟩ := h
      rw [List.mem_singleton.mp hpart] at hmem
      exact hfirst hmem
    | true =>
      rw [LeadingCodes.ofSequence_of_isPassed hpassed, LeadingCodes.mem_joined] at h
      obtain ⟨part, hpart, hmem⟩ := h
      rcases List.mem_cons.mp hpart with rfl | hlater
      · exact hfirst hmem
      · obtain ⟨henumerable, hnullable⟩ := LeadingCodes.isPassed_iff.mp hpassed
        rw [← leadingCodes_eq_partwiseCodes] at henumerable hnullable
        have hempty : [] ∈ item.language mapping flags := by
          rw [nil_mem_language_iff hitem hwfItem, ← nullable_leadingCodes henumerable]
          exact hnullable
        have hrest := LeadingCodes.mem_joined.mpr ⟨part, hlater, hmem⟩
        exact .mul_left hempty
          (begins_of_mem_ofSequence hcase items hitems hwfItems hfruitful.right hrest)

theorem begins_of_mem_ofBranches (hcase : flags.ignoreCase = false) : ∀ branches : List Node,
    allRegular branches = true → allWellFormed captureCount branches = true →
    AreFruitful mapping flags (subtreesAll branches) →
    c.toNat ∈ (LeadingCodes.ofBranches (partwiseCodesAll mapping false branches)).codes →
    Begins (unionLanguage mapping flags branches) c
  | [], _, _, _, h => absurd h (Array.not_mem_empty _)
  | branch :: branches, hregular, hwf, hfruitful, h => by
    obtain ⟨hbranch, hbranches⟩ := allRegular_cons.mp hregular
    obtain ⟨hwfBranch, hwfBranches⟩ := allWellFormed_cons.mp hwf
    obtain ⟨part, hpart, hmem⟩ := LeadingCodes.mem_joined.mp h
    rcases List.mem_cons.mp hpart with rfl | hlater
    · obtain ⟨word, hword⟩ :=
        begins_of_mem_partwiseCodes hcase branch hbranch hwfBranch hfruitful.left hmem
      exact ⟨word, (Language.mem_add _ _ _).mpr (.inl hword)⟩
    · obtain ⟨word, hword⟩ := begins_of_mem_ofBranches hcase branches hbranches hwfBranches
        hfruitful.right (LeadingCodes.mem_joined.mpr ⟨part, hlater, hmem⟩)
      exact ⟨word, (Language.mem_add _ _ _).mpr (.inr hword)⟩

end

end Node

namespace Pattern

variable {pattern : Pattern} {mapping : CaseMapping}

/-- The leading codes of a regular pattern are those with which its words begin, and it is called
nullable if the empty word is among them, unless a class accepts nothing or a repetition may have no
lap. -/
theorem mem_leadingCodes_iff_begins (hcase : pattern.flags.ignoreCase = false)
    (hregular : pattern.root.isRegular = true)
    (hclasses : ∀ set, .charClass set ∈ pattern.root.subtrees →
      ∃ c, set.accepts mapping pattern.flags.ignoreCase c = true)
    (hlaps : ∀ quantifier inner, .repetition quantifier inner ∈ pattern.root.subtrees →
      quantifier.max ≠ some 0)
    (henumerable : (pattern.root.leadingCodes mapping pattern.flags.ignoreCase).enumerable = true) :
    (∀ c : Char, c.toNat ∈ pattern.leadingCodes mapping none ↔
      ∃ word, c :: word ∈ pattern.language mapping) ∧
    ((pattern.root.leadingCodes mapping pattern.flags.ignoreCase).nullable = true ↔
      [] ∈ pattern.language mapping) := by
  have hwf := pattern.isWellFormed_root
  constructor
  · intro c
    rw [leadingCodes, Option.getD_none, if_pos henumerable]
    constructor
    · intro hmem
      rw [Node.leadingCodes_eq_partwiseCodes, hcase] at hmem
      exact Node.begins_of_mem_partwiseCodes hcase pattern.root hregular hwf ⟨hclasses, hlaps⟩ hmem
    · rintro ⟨word, hword⟩
      obtain ⟨way, hway, hstop⟩ := (Node.mem_language_iff hregular hwf (c :: word)).mp hword
      have hpaired : mapping.IsPaired pattern.flags.ignoreCase := by
        intro hignore
        rw [hcase] at hignore
        cases hignore
      have hlt : 0 < way.stop := by
        rw [hstop]
        exact Nat.succ_pos _
      obtain ⟨first, hfirst, hlisted⟩ :=
        Node.exists_mem_leadingCodes hpaired (Nat.zero_le _) hway henumerable hlt
      cases hfirst
      exact hlisted
  · rw [language, Node.nil_mem_language_iff hregular hwf, Node.nullable_leadingCodes henumerable]

/-- Laps that may take up nothing, an empty branch, and a class that is inverted but never first. -/
theorem mem_leadingCodes_iff_begins_of_nullable_laps :
    let pattern : Pattern :=
      ⟨.concat [.repetition ⟨2, some 3, true⟩
          (.group (some 1) (.repetition .question (.literal 'a'))),
        .alternation [.charClass { items := #[.range 98 99] }, .concat []], .literal 'b',
        .charClass { items := #[.single 120], negated := true }], {}, ⟨rfl, rfl⟩⟩
    pattern.flags.ignoreCase = false ∧ pattern.root.isRegular = true ∧
      (∀ set, .charClass set ∈ pattern.root.subtrees →
        ∃ c, set.accepts .unicode pattern.flags.ignoreCase c = true) ∧
      (∀ quantifier inner, .repetition quantifier inner ∈ pattern.root.subtrees →
        quantifier.max ≠ some 0) ∧
      (pattern.root.leadingCodes .unicode pattern.flags.ignoreCase).enumerable = true ∧
      (∀ c : Char, c.toNat ∈ pattern.leadingCodes .unicode none ↔
        ∃ word, c :: word ∈ pattern.language .unicode) ∧
      [] ∉ pattern.language .unicode := by
  intro pattern
  have hclasses : ∀ set, .charClass set ∈ pattern.root.subtrees →
      ∃ c, set.accepts .unicode pattern.flags.ignoreCase c = true := by
    intro set hset
    refine ⟨'b', ?_⟩
    simp only [pattern, Node.subtrees, Node.subtreesAll, List.append_nil, List.cons_append,
      List.nil_append, List.mem_cons, List.not_mem_nil, reduceCtorEq, Node.charClass.injEq,
      false_or, or_false] at hset
    rw [CharClass.accepts_false]
    rcases hset with rfl | rfl <;> decide +kernel
  have hlaps : ∀ quantifier inner, .repetition quantifier inner ∈ pattern.root.subtrees →
      quantifier.max ≠ some 0 := by
    intro quantifier inner hlap
    simp only [pattern, Node.subtrees, Node.subtreesAll, List.append_nil, List.cons_append,
      List.nil_append, List.mem_cons, List.not_mem_nil, reduceCtorEq, Node.repetition.injEq,
      false_or, or_false] at hlap
    rcases hlap with ⟨rfl, -⟩ | ⟨rfl, -⟩ <;> decide
  have henumerable :
      (pattern.root.leadingCodes .unicode pattern.flags.ignoreCase).enumerable = true := rfl
  obtain ⟨hlisted, hnullable⟩ :=
    mem_leadingCodes_iff_begins rfl rfl hclasses hlaps henumerable
  exact ⟨rfl, rfl, hclasses, hlaps, henumerable, hlisted, fun h => nomatch hnullable.mpr h⟩

end Pattern
end TokenPatterns
