import TokenPatterns.Proofs.FirstHits

/-!
# Variants that are not returned

The list of first characters holds the variants of the members of a class, while a candidate is
looked up by its own variant. Where each of two letters is the variant of the other, both come to
the same. But the variant of `ß` is the first letter of its uppercase `SS`, and that of `S` is `s`.
-/
namespace TokenPatterns

namespace CaseMapping

/-- Whether two code points are the variants of each other, or neither is that of the other. -/
def AreMutual (mapping : CaseMapping) (code other : Nat) : Prop :=
  mapping.variant? code = some other ↔ mapping.variant? other = some code

instance (mapping : CaseMapping) (code other : Nat) : Decidable (mapping.AreMutual code other) :=
  inferInstanceAs (Decidable (_ ↔ _))

variable {mapping : CaseMapping} {code other : Nat}

theorem pairs_iff_of_ne (hne : other ≠ code) :
    mapping.Pairs true code other ↔ mapping.variant? code = some other := by
  simp [Pairs, hne]

theorem pairs_comm_iff_areMutual :
    (mapping.Pairs true code other ↔ mapping.Pairs true other code) ↔
      (other ≠ code → mapping.AreMutual code other) := by
  by_cases heq : other = code
  · simp [heq]
  · rw [pairs_iff_of_ne heq, pairs_iff_of_ne (Ne.symm heq), forall_prop_of_true heq]
    rfl

end CaseMapping

theorem CharClass.contains_single {member other : Nat} :
    contains { items := #[.single member] } other = true ↔ other = member := by
  have hcontains : contains { items := #[.single member] } other = (member == other) := by
    simp [contains, ClassItem.contains]
  rw [hcontains, beq_iff_eq]
  exact eq_comm

namespace Pattern

variable {mapping : CaseMapping} {code : Nat}

def ofMember (member : Nat) : Pattern :=
  ⟨.charClass { items := #[.single member] }, { ignoreCase := true }, ⟨rfl, rfl⟩⟩

section OfMember

variable {member : Nat}

theorem enumerable_ofMember :
    ((ofMember member).root.leadingCodes mapping (ofMember member).flags.ignoreCase).enumerable =
      true := rfl

theorem canStartWith_ofMember :
    (ofMember member).canStartWith mapping [code] = true ↔ mapping.Pairs true code member := by
  have hmatches : CharClass.matchesCode mapping true { items := #[.single member] } code = true ↔
      mapping.Pairs true code member := by
    rw [CharClass.matchesCode_iff rfl]
    simp only [CharClass.contains_single, exists_eq_left]
  have hhit : (ofMember member).canStartWith mapping [code] =
      CharClass.matchesCode mapping true { items := #[.single member] } code :=
    Bool.or_false _
  rw [hhit, hmatches]

theorem mem_leadingCodes_ofMember :
    code ∈ (ofMember member).leadingCodes mapping none ↔ mapping.Pairs true member code := by
  have hcodes : (ofMember member).leadingCodes mapping none =
      (CodeList.addCased mapping true {} member).codes := by
    rw [leadingCodes, Option.getD_none, if_pos enumerable_ofMember]
    rfl
  rw [hcodes, CodeList.mem_codes_addCased]
  simp

/-- Of a class of one member, the answer and the list agree on another code point just if each of
the two is the variant of the other or neither is, so what follows cannot do without this. -/
theorem ofMember_agrees_iff_areMutual :
    ((ofMember member).canStartWith mapping [code] = true ↔
      code ∈ (ofMember member).leadingCodes mapping none) ↔
        (member ≠ code → mapping.AreMutual code member) := by
  rw [canStartWith_ofMember, mem_leadingCodes_ofMember]
  exact CaseMapping.pairs_comm_iff_areMutual

end OfMember

/-- Where the first characters of a pattern are listed, the answer about a code point is whether it
is listed, if it and each other member of a class that comes first are variants of each other or
neither is of the other. -/
theorem canStartWith_iff_of_areMutual {pattern : Pattern}
    (hignore : pattern.flags.ignoreCase = true)
    (henumerable : (pattern.root.leadingCodes mapping pattern.flags.ignoreCase).enumerable = true)
    (hmutual : ∀ set ∈ pattern.root.leadingClasses, ∀ member, set.contains member = true →
      member ≠ code → mapping.AreMutual code member) :
    pattern.canStartWith mapping [code] = true ↔ code ∈ pattern.leadingCodes mapping none := by
  have hpaired : ∀ set ∈ pattern.root.leadingClasses,
      Candidates.ArePairedIn ⟨[code], mapping, pattern.flags⟩ set := by
    intro set hset other hother member hmember
    obtain rfl := List.mem_singleton.mp hother
    rw [hignore]
    exact CaseMapping.pairs_comm_iff_areMutual.mpr (hmutual set hset member hmember)
  rw [canStartWith_iff_of_arePairedIn hpaired henumerable]
  simp

/-- A letter in the other case than in its class, where `ß` is a member, too. -/
theorem canStartWith_iff_of_areMutual_of_umlaut :
    let pattern : Pattern :=
      ⟨.concat [.repetition .question (.literal 'x'),
        .charClass { items := #[.single 'ä'.toNat, .single 'ß'.toNat] },
        .charClass { items := #[.range 'A'.toNat 'Z'.toNat], negated := true }],
        { ignoreCase := true }, ⟨rfl, rfl⟩⟩
    pattern.flags.ignoreCase = true ∧
      (pattern.root.leadingCodes .unicode pattern.flags.ignoreCase).enumerable = true ∧
      (∀ set ∈ pattern.root.leadingClasses, ∀ member, set.contains member = true →
        member ≠ 'Ä'.toNat → CaseMapping.unicode.AreMutual 'Ä'.toNat member) ∧
      (pattern.canStartWith .unicode ['Ä'.toNat] = true ↔
        'Ä'.toNat ∈ pattern.leadingCodes .unicode none) := by
  intro pattern
  have henumerable :
      (pattern.root.leadingCodes .unicode pattern.flags.ignoreCase).enumerable = true := rfl
  have hmutual : ∀ set ∈ pattern.root.leadingClasses, ∀ member, set.contains member = true →
      member ≠ 'Ä'.toNat → CaseMapping.unicode.AreMutual 'Ä'.toNat member := by
    intro set hset member hmember _
    cases List.mem_singleton.mp hset
    have hcases : 'ä'.toNat = member ∨ 'ß'.toNat = member := by
      simpa [CharClass.contains, ClassItem.contains] using hmember
    rcases hcases with rfl | rfl <;> decide +kernel
  exact ⟨rfl, henumerable, hmutual, canStartWith_iff_of_areMutual rfl henumerable hmutual⟩

/-- The variant of `ß` is listed, but does not have it as its variant. -/
theorem not_canStartWith_of_sharp_s :
    let pattern := ofMember 'ß'.toNat
    (ofSource? (.regex "[ß]") { ignoreCase := true }).toOption = some pattern ∧
      (pattern.root.leadingCodes .unicode pattern.flags.ignoreCase).enumerable = true ∧
      'S'.toNat ∈ pattern.leadingCodes .unicode none ∧
      pattern.canStartWith .unicode ['S'.toNat] = false := by
  intro pattern
  have hread : (ofSource? (.regex "[ß]") { ignoreCase := true }).toOption = some pattern := by
    decide +kernel
  have hlisted : CaseMapping.unicode.variant? 'ß'.toNat = some 'S'.toNat := by decide +kernel
  have hvariant : CaseMapping.unicode.variant? 'S'.toNat = some 's'.toNat := by decide +kernel
  refine ⟨hread, rfl, mem_leadingCodes_ofMember.mpr (.inr ⟨rfl, hlisted⟩), ?_⟩
  rw [Bool.eq_false_iff, Ne, canStartWith_ofMember, CaseMapping.pairs_iff_of_ne (by decide),
    hvariant]
  decide

end Pattern
end TokenPatterns
