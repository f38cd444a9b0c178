import TokenPatterns.Dispatch.Listing

/-!
# What a dispatch table lists

A table is built in several passes, and looked up in three ways. Whatever is listed of its entries,
in any order and repeated at will, a look-up gives by priority the types that name the code or are
to be tried everywhere, and all types where there are none of these.
-/
namespace TokenPatterns
namespace DispatchTable

section Indices

variable {p : LeadingChars → Bool} {entries : List LeadingChars} {first index : Nat}

theorem mem_indicesWhere : index ∈ indicesWhere p first entries ↔
    ∃ (offset : Nat) (entry : LeadingChars), entries[offset]? = some entry ∧ p entry = true ∧
      first + offset = index := by
  induction entries generalizing first with
  | nil => simp [indicesWhere]
  | cons entry entries ih =>
    have hsplit : (∃ (offset : Nat) (other : LeadingChars), (entry :: entries)[offset]? = some other ∧
        p other = true ∧ first + offset = index) ↔
          (p entry = true ∧ first = index) ∨ index ∈ indicesWhere p (first + 1) entries := by
      rw [ih]
      constructor
      · rintro ⟨offset, other, hother, hp, rfl⟩
        cases offset with
        | zero =>
          obtain rfl := Option.some.inj hother
          exact .inl ⟨hp, rfl⟩
        | succ offset => exact .inr ⟨offset, other, hother, hp, by omega⟩
      · rintro (⟨hp, rfl⟩ | ⟨offset, other, hother, hp, rfl⟩)
        · exact ⟨0, entry, rfl, hp, rfl⟩
        · exact ⟨offset + 1, other, hother, hp, by omega⟩
    rw [hsplit, indicesWhere]
    by_cases hp : p entry = true
    · rw [if_pos hp, List.mem_cons, and_iff_right hp, eq_comm]
    · simp [hp]

theorem pairwise_indicesWhere (p : LeadingChars → Bool) (first : Nat)
    (entries : List LeadingChars) : (indicesWhere p first entries).Pairwise (· < ·) := by
  induction entries generalizing first with
  | nil => exact .nil
  | cons entry entries ih =>
    rw [indicesWhere]
    split
    · exact .cons (fun _ hlater => le_of_mem_indicesWhere hlater) (ih (first + 1))
    · exact ih (first + 1)

theorem isEmpty_indicesWhere : (indicesWhere p first entries).isEmpty = true ↔
    ∀ entry ∈ entries, p entry = false := by
  rw [List.isEmpty_iff]
  induction entries generalizing first with
  | nil => simp [indicesWhere]
  | cons entry entries ih => cases hp : p entry <;> simp [indicesWhere, hp, ih]

end Indices

/-- How a table answers for its entries. -/
structure Lists (table : DispatchTable) (entries : List LeadingChars) : Prop where
  candidates_ascend : ∀ code, (table.candidates code).Pairwise (· < ·)
  mem_candidates_iff : ∀ code, (∃ entry ∈ entries, entry.isTriedAt code = true) →
    ∀ index, index ∈ table.candidates code ↔
      ∃ entry, entries[index]? = some entry ∧ entry.isTriedAt code = true
  candidates_eq_range : ∀ code, (∀ entry ∈ entries, entry.isTriedAt code = false) →
    table.candidates code = List.range entries.length
  codes_ascend : table.codes.Pairwise (· < ·)
  mem_codes_iff : ∀ code, code ∈ table.codes ↔ ∃ entry ∈ entries, entry.names code = true
  isComplete_iff : table.isComplete = true ↔ ∀ entry ∈ entries, entry.isUnlisted = false

section Tables

variable {entries : List LeadingChars} {code : Nat}

/-- Where some type is to be tried, the types to try are the numbers of all such types. -/
theorem candidates_of_isTriedAt (h : ∃ entry ∈ entries, entry.isTriedAt code = true) :
    (ofEntries entries).candidates code =
      indicesWhere (LeadingChars.isTriedAt code) 0 entries := by
  obtain ⟨entry, hentry, htried⟩ := h
  have hsome : ¬ (indicesWhere (LeadingChars.isTriedAt code) 0 entries).isEmpty = true := by
    rw [isEmpty_indicesWhere]
    intro hnone
    rw [hnone entry hentry] at htried
    cases htried
  rw [candidates_ofEntries, bucket?, if_neg hsome, Option.getD_some]

theorem candidates_of_not_isTriedAt (h : ∀ entry ∈ entries, entry.isTriedAt code = false) :
    (ofEntries entries).candidates code = List.range entries.length := by
  rw [candidates_ofEntries, bucket?, if_pos (isEmpty_indicesWhere.mpr h), Option.getD_none]

theorem mem_codes_ofEntries :
    code ∈ (ofEntries entries).codes ↔ ∃ entry ∈ entries, entry.names code = true := by
  have hbucket : (bucket? (indicesWhere (LeadingChars.names code) 0 entries)).isSome = true ↔
      ¬ (indicesWhere (LeadingChars.names code) 0 entries).isEmpty = true := by
    rw [bucket?]
    split <;> simp_all
  rw [codes, Std.TreeMap.mem_keys, Std.TreeMap.mem_iff_isSome_getElem?]
  simp only [ofEntries, Std.TreeMap.getElem?_map, getElem?_namedBuckets, Option.isSome_map]
  rw [hbucket, isEmpty_indicesWhere]
  simp

theorem isComplete_ofEntries : (ofEntries entries).isComplete = true ↔
    ∀ entry ∈ entries, entry.isUnlisted = false := by
  have hempty : (unlistedFrom 0 entries).isEmpty = true ↔
      ∀ entry ∈ entries, entry.isUnlisted = false := by
    rw [unlistedFrom_eq, isEmpty_indicesWhere]
  rw [← hempty]
  simp only [isComplete, ofEntries]
  split <;> simp_all

end Tables

/-- A table lists the types of its entries, whatever these list. -/
theorem lists_ofEntries (entries : List LeadingChars) : (ofEntries entries).Lists entries where
  candidates_ascend code := by
    by_cases h : ∃ entry ∈ entries, entry.isTriedAt code = true
    · rw [candidates_of_isTriedAt h]
      exact pairwise_indicesWhere _ _ _
    · have hnone : ∀ entry ∈ entries, entry.isTriedAt code = false := by simpa using h
      rw [candidates_of_not_isTriedAt hnone]
      exact List.pairwise_lt_range
  mem_candidates_iff code h index := by
    rw [candidates_of_isTriedAt h, mem_indicesWhere]
    simp only [Nat.zero_add]
    constructor
    · rintro ⟨offset, entry, hentry, htried, rfl⟩
      exact ⟨entry, hentry, htried⟩
    · rintro ⟨entry, hentry, htried⟩
      exact ⟨index, entry, hentry, htried, rfl⟩
  candidates_eq_range code h := candidates_of_not_isTriedAt h
  codes_ascend := by
    have hkeys := Std.TreeMap.ordered_keys (t := (ofEntries entries).buckets)
    exact hkeys.imp Nat.compare_eq_lt.mp
  mem_codes_iff code := mem_codes_ofEntries
  isComplete_iff := isComplete_ofEntries

end DispatchTable
end TokenPatterns
