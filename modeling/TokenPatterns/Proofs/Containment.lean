import TokenPatterns.Proofs.LineBreaks

/-!
# Characters in matches

A leaf is asked for a character of a text when it is matched, and for a code point when candidates
are looked for. Where letters are paired the two answers agree, and none of them tells characters
apart that count as the same letter. So whatever a match takes up is found among the candidates, be
it accepted by a leaf or repeated from a part of the match that was.
-/
namespace TokenPatterns

namespace CaseMapping

variable {mapping : CaseMapping} {ignoreCase : Bool} {a b : Char}

theorem agree_symm (h : mapping.agree ignoreCase a b = true) :
    mapping.agree ignoreCase b a = true := by
  cases ignoreCase with
  | false =>
    rw [agree_false, beq_iff_eq] at h ⊢
    exact h.symm
  | true =>
    rw [agree_true_iff] at h ⊢
    exact h.symm

theorem isLineTerminator_of_agree (h : mapping.agree ignoreCase a b = true)
    (ha : isLineTerminator a = true) : isLineTerminator b = true := by
  rwa [(isCaseless_of_isLineTerminator mapping ha).eq_of_agree (agree_symm h)]

end CaseMapping

namespace CharClass

variable {mapping : CaseMapping} {ignoreCase : Bool}

theorem containsLetter_ascii (set : CharClass) (c : Char) : set.containsLetter .ascii c =
    (set.contains c.toUpper.toNat || set.contains c.toLower.toNat) := by
  simp [containsLetter, CaseMapping.simpleLower, CaseMapping.lower, CaseMapping.canonical_ascii]

/-- Where letters are paired, a class is asked for a character as for its code point. -/
theorem accepts_of_isPaired (hpaired : mapping.IsPaired ignoreCase) (set : CharClass) (c : Char) :
    set.accepts mapping ignoreCase c = set.matchesCode mapping ignoreCase c.toNat := by
  cases ignoreCase with
  | false => rw [accepts_false, matchesCode_false]
  | true =>
    obtain rfl := hpaired rfl
    simp only [accepts, matchesCode, containsLetter_ascii, CaseMapping.variant?_ascii]
    by_cases hupper : c.toUpper = c
    · by_cases hlower : c.toLower = c
      · simp [hupper, hlower]
      · simp [hupper, hlower]
    · have hlower := CaseMapping.toLower_eq_of_toUpper_ne hupper
      simp only [hupper, hlower, ne_eq, not_false_eq_true, if_true, Option.any_some, Bool.true_and]
      rw [Bool.or_comm (set.contains c.toUpper.toNat), ← Bool.or_assoc, Bool.or_self]

theorem matchesCode_of_pairs (hpaired : mapping.IsPaired ignoreCase) (set : CharClass)
    {code other : Nat} (h : mapping.Pairs ignoreCase code other) :
    set.matchesCode mapping ignoreCase code = set.matchesCode mapping ignoreCase other := by
  rcases h with rfl | ⟨rfl, hvariant⟩
  · rfl
  · obtain rfl := hpaired rfl
    simp only [matchesCode, hvariant, CaseMapping.variant?_ascii_symm hvariant, Option.any_some,
      Bool.true_and]
    rw [Bool.or_comm]

end CharClass

namespace Candidates

theorem hasLiteral_iff {candidates : Candidates} {c : Char} : candidates.hasLiteral c = true ↔
    ∃ code ∈ candidates.codes,
      candidates.mapping.Pairs candidates.flags.ignoreCase c.toNat code := by
  simp only [hasLiteral, List.any_eq_true, Bool.or_eq_true, beq_iff_eq, CaseMapping.Pairs]
  cases candidates.flags.ignoreCase <;> simp

theorem answer_of_agree {s : Subject} {codes : List Nat} {c d : Char}
    (hpaired : s.mapping.IsPaired s.flags.ignoreCase) (hcode : c.toNat ∈ codes)
    (hagree : s.agree d c = true) : Answer ⟨codes, s.mapping, s.flags⟩ s d := by
  constructor
  · intro e he
    have hpairs := CaseMapping.pairs_of_agree hpaired (CaseMapping.agree_trans he hagree)
    exact hasLiteral_iff.mpr ⟨_, hcode, hpairs⟩
  · intro set haccepts
    refine List.any_eq_true.mpr ⟨_, hcode, ?_⟩
    have hpairs := CaseMapping.pairs_of_agree hpaired hagree
    rwa [← CharClass.matchesCode_of_pairs hpaired set hpairs,
      ← CharClass.accepts_of_isPaired hpaired]
  · intro haccepts
    refine List.any_eq_true.mpr ⟨_, hcode, ?_⟩
    simp only [Subject.acceptsAny, Bool.or_eq_true, Bool.not_eq_true'] at haccepts ⊢
    refine haccepts.imp_right fun hd => ?_
    rw [Bool.eq_false_iff] at hd ⊢
    exact fun hc => hd (CaseMapping.isLineTerminator_of_agree (CaseMapping.agree_symm hagree) hc)

end Candidates

namespace Pattern

variable {pattern : Pattern} {mapping : CaseMapping} {input : Array Char} {start stop : Nat}

/-- If references repeat only parts of the match, each character of it is one that the pattern is
known to contain. -/
theorem canContain_of_repeatsOnlyMatched (hpaired : mapping.IsPaired pattern.flags.ignoreCase)
    (hrepeats : pattern.root.RepeatsOnlyMatched)
    (hmatch : pattern.program.matchAt? mapping input start = some stop) :
    ConsistsOf input (fun c => ∀ codes, c.toNat ∈ codes → pattern.canContain mapping codes = true)
      start stop := by
  intro offset hle hlt
  obtain ⟨c, hc, d, hagree, htakes⟩ := consistsOf_of_matchAt? hrepeats hmatch offset hle hlt
  refine ⟨c, hc, fun codes hcode => ?_⟩
  exact Node.mayContain_of_takes (Candidates.answer_of_agree hpaired hcode hagree) pattern.root
    htakes

/-- If no lookaround captures, each character of a match is one that the pattern is known to
contain, wherever references repeat it. -/
theorem canContain_of_matchAt? (hpaired : mapping.IsPaired pattern.flags.ignoreCase)
    (hlook : pattern.root.lookCaptures = [])
    (hmatch : pattern.program.matchAt? mapping input start = some stop) :
    ConsistsOf input (fun c => pattern.canContain mapping [c.toNat] = true) start stop := by
  have hrepeats : pattern.root.RepeatsOnlyMatched := by
    intro number _
    rw [hlook]
    exact List.not_mem_nil
  intro offset hle hlt
  obtain ⟨c, hc, hcodes⟩ :=
    canContain_of_repeatsOnlyMatched hpaired hrepeats hmatch offset hle hlt
  exact ⟨c, hc, hcodes _ (List.mem_singleton.mpr rfl)⟩

/-- A letter that is repeated in the other case, beside a lookaround that captures nothing. -/
theorem canContain_of_repeated_letter :
    let pattern : Pattern :=
      ⟨.concat [.group (some 1) (.charClass { items := #[.range 97 99] }),
        .look ⟨false, true⟩ (.literal 'x'), .backreference 1], { ignoreCase := true }, ⟨rfl, rfl⟩⟩
    CaseMapping.ascii.IsPaired pattern.flags.ignoreCase ∧ pattern.root.lookCaptures = [] ∧
      pattern.program.matchAt? .ascii #['B', 'b'] 0 = some 2 ∧
      pattern.canContain .ascii ['b'.toNat] = true := by
  intro pattern
  have hpaired : CaseMapping.ascii.IsPaired pattern.flags.ignoreCase := fun _ => rfl
  have hlook : pattern.root.lookCaptures = [] := rfl
  have hmatch : pattern.program.matchAt? .ascii #['B', 'b'] 0 = some 2 := by
    rw [Program.matchAt?_eq]
    decide +kernel
  obtain ⟨c, hc, hcontains⟩ :=
    canContain_of_matchAt? hpaired hlook hmatch 1 (by decide) (by decide)
  cases hc
  exact ⟨hpaired, hlook, hmatch, hcontains⟩

end Pattern
end TokenPatterns
