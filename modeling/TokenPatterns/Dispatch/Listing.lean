import TokenPatterns.Dispatch.Table

/-!
# Which types a dispatch table lists

The buckets of a table and the types with unknown leading characters are numbers of the same
entries, in ascending order. Merging the two gives the numbers of all the entries that are to be
tried at a code.
-/
namespace TokenPatterns

namespace LeadingChars

def names (code : Nat) (entry : LeadingChars) : Bool := entry.codes?.any (·.contains code)

def isUnlisted (entry : LeadingChars) : Bool := entry.codes?.isNone

/-- Whether a match of the type may begin with `code`, as far as is known. -/
def isTriedAt (code : Nat) (entry : LeadingChars) : Bool := entry.names code || entry.isUnlisted

theorem mem_getD_codes? {code : Nat} {entry : LeadingChars} :
    code ∈ (entry.codes?.getD #[]).toList ↔ entry.names code = true := by
  unfold names
  cases entry.codes? <;> simp

theorem names_of_isUnlisted {code : Nat} {entry : LeadingChars} (h : entry.isUnlisted = true) :
    entry.names code = false := by
  rw [isUnlisted, Option.isNone_iff_eq_none] at h
  rw [names, h, Option.any_none]

end LeadingChars

namespace DispatchTable

def indicesWhere (p : LeadingChars → Bool) (first : Nat) : List LeadingChars → List Nat
  | [] => []
  | entry :: entries =>
    if p entry then first :: indicesWhere p (first + 1) entries
    else indicesWhere p (first + 1) entries

section Indices

variable {p q : LeadingChars → Bool} {entries : List LeadingChars} {first index : Nat}

theorem le_of_mem_indicesWhere (h : index ∈ indicesWhere p first entries) : first ≤ index := by
  induction entries generalizing first with
  | nil => cases h
  | cons entry entries ih =>
    rw [indicesWhere] at h
    split at h
    · rcases List.mem_cons.mp h with rfl | hlater
      · exact Nat.le_refl _
      · exact Nat.le_of_succ_le (ih hlater)
    · exact Nat.le_of_succ_le (ih h)

theorem merge_cons_of_lt {rest others : List Nat} (h : ∀ other ∈ others, first < other) :
    (first :: rest).merge others = first :: rest.merge others := by
  cases others with
  | nil => simp
  | cons other others =>
    apply List.cons_merge_cons_pos
    simpa using Nat.le_of_lt (h other List.mem_cons_self)

theorem merge_cons_right_of_lt {rest others : List Nat} (h : ∀ other ∈ others, first < other) :
    others.merge (first :: rest) = first :: others.merge rest := by
  cases others with
  | nil => simp
  | cons other others =>
    apply List.cons_merge_cons_neg
    simpa using h other List.mem_cons_self

theorem merge_indicesWhere (hdisjoint : ∀ entry, q entry = true → p entry = false) :
    (indicesWhere p first entries).merge (indicesWhere q first entries) =
      indicesWhere (fun entry => p entry || q entry) first entries := by
  induction entries generalizing first with
  | nil => simp [indicesWhere]
  | cons entry entries ih =>
    have hlater : ∀ (r : LeadingChars → Bool), ∀ other ∈ indicesWhere r (first + 1) entries,
        first < other := fun r other hother => le_of_mem_indicesWhere hother
    by_cases hq : q entry = true
    · have hp := hdisjoint entry hq
      simp [indicesWhere, hq, hp, merge_cons_right_of_lt (hlater p), ih]
    · by_cases hp : p entry = true
      · simp [indicesWhere, hq, hp, merge_cons_of_lt (hlater q), ih]
      · simp [indicesWhere, hq, hp, ih]

/-- A search that finds something at chosen entries alone need not look at the others. -/
theorem findSome?_indicesWhere {β : Type} {f : Nat → Option β}
    (h : ∀ (offset : Nat) (entry : LeadingChars), entries[offset]? = some entry →
      p entry = false → f (first + offset) = none) :
    (indicesWhere p first entries).findSome? f =
      (List.range' first entries.length).findSome? f := by
  induction entries generalizing first with
  | nil => rfl
  | cons entry entries ih =>
    have hrest : (indicesWhere p (first + 1) entries).findSome? f =
        (List.range' (first + 1) entries.length).findSome? f := by
      apply ih
      intro offset other hother hskipped
      have hnone := h (offset + 1) other hother hskipped
      rwa [← Nat.add_assoc, Nat.add_right_comm] at hnone
    rw [indicesWhere, List.length_cons, List.range'_succ, List.findSome?_cons]
    split
    · rw [List.findSome?_cons, hrest]
    · next hskipped =>
      have hnone := h 0 entry rfl (by simpa using hskipped)
      rw [Nat.add_zero] at hnone
      rw [hnone, hrest]

end Indices

section Buckets

variable {buckets : Std.TreeMap Nat (List Nat)} {index code : Nat}

theorem getElem?_addCode (buckets : Std.TreeMap Nat (List Nat)) (index code named : Nat) :
    (addCode index buckets named)[code]? =
      if named = code then
        some (if buckets[code]?.bind List.head? = some index then buckets[code]?.getD []
          else index :: buckets[code]?.getD [])
      else buckets[code]? := by
  rw [addCode, Std.TreeMap.getElem?_alter]
  by_cases heq : named = code
  · subst heq
    cases hbucket : buckets[named]? with
    | none => simp
    | some bucket => simp [apply_ite]
  · simp [heq]

theorem getElem?_foldl_addCode_of_head {codes bucket : List Nat}
    (h : buckets[code]? = some (index :: bucket)) :
    (codes.foldl (addCode index) buckets)[code]? = some (index :: bucket) := by
  induction codes generalizing buckets with
  | nil => exact h
  | cons named codes ih =>
    apply ih
    rw [getElem?_addCode, h]
    simp

theorem getElem?_foldl_addCode {codes : List Nat}
    (hfresh : buckets[code]?.bind List.head? ≠ some index) :
    (codes.foldl (addCode index) buckets)[code]? =
      if code ∈ codes then some (index :: buckets[code]?.getD []) else buckets[code]? := by
  induction codes generalizing buckets with
  | nil => rfl
  | cons named codes ih =>
    have hnamed := getElem?_addCode buckets index code named
    rw [List.foldl_cons]
    by_cases heq : named = code
    · rw [if_pos heq, if_neg hfresh] at hnamed
      rw [getElem?_foldl_addCode_of_head hnamed, if_pos (heq ▸ List.mem_cons_self)]
    · rw [if_neg heq] at hnamed
      rw [ih (hnamed ▸ hfresh), hnamed]
      simp [Ne.symm heq]

end Buckets

def bucket? (indices : List Nat) : Option (List Nat) :=
  if indices.isEmpty then none else some indices

section Tables

variable {first code : Nat}

theorem getElem?_namedBuckets (entries : List LeadingChars) :
    (namedBuckets first entries)[code]? =
      bucket? (indicesWhere (LeadingChars.names code) first entries) := by
  induction entries generalizing first with
  | nil => simp [namedBuckets, indicesWhere, bucket?]
  | cons entry entries ih =>
    have hfresh : (namedBuckets (first + 1) entries)[code]?.bind List.head? ≠ some first := by
      rw [ih, bucket?]
      split
      · simp
      · intro hhead
        rw [Option.bind_some] at hhead
        have hle := le_of_mem_indicesWhere (List.mem_of_mem_head? hhead)
        omega
    rw [namedBuckets, ← Array.foldl_toList, getElem?_foldl_addCode hfresh]
    simp only [LeadingChars.mem_getD_codes?, ih, indicesWhere]
    split
    · cases indicesWhere (LeadingChars.names code) (first + 1) entries <;> rfl
    · rfl

theorem unlistedFrom_eq (entries : List LeadingChars) :
    unlistedFrom first entries = indicesWhere LeadingChars.isUnlisted first entries := by
  induction entries generalizing first with
  | nil => rfl
  | cons entry entries ih => rw [unlistedFrom, indicesWhere, ih, LeadingChars.isUnlisted]

/-- The types to try at a code are those of which a match may begin with it, or all if there are
none. -/
theorem candidates_ofEntries (entries : List LeadingChars) :
    (ofEntries entries).candidates code =
      (bucket? (indicesWhere (LeadingChars.isTriedAt code) 0 entries)).getD
        (List.range entries.length) := by
  have hmerge : (indicesWhere (LeadingChars.names code) 0 entries).merge
      (indicesWhere LeadingChars.isUnlisted 0 entries) =
        indicesWhere (LeadingChars.isTriedAt code) 0 entries :=
    merge_indicesWhere fun entry => LeadingChars.names_of_isUnlisted
  rw [← hmerge]
  simp only [candidates, ofEntries, Std.TreeMap.getElem?_map, getElem?_namedBuckets,
    unlistedFrom_eq]
  generalize indicesWhere (LeadingChars.names code) 0 entries = named
  generalize indicesWhere LeadingChars.isUnlisted 0 entries = unlisted
  cases named with
  | nil => cases unlisted <;> simp [bucket?]
  | cons index named =>
    have hmerged : ((index :: named).merge unlisted).isEmpty = false := by
      rw [List.isEmpty_eq_false_iff]
      exact List.ne_nil_of_mem (List.mem_merge_left _ List.mem_cons_self)
    simp [bucket?, hmerged]

theorem findSome?_candidates {β : Type} {f : Nat → Option β} {entries : List LeadingChars}
    (h : ∀ (index : Nat) (entry : LeadingChars), entries[index]? = some entry →
      entry.isTriedAt code = false → f index = none) :
    ((ofEntries entries).candidates code).findSome? f =
      (List.range entries.length).findSome? f := by
  rw [candidates_ofEntries, bucket?]
  split
  · rfl
  · rw [Option.getD_some, List.range_eq_range']
    apply findSome?_indicesWhere
    intro offset entry hentry hskipped
    rw [Nat.zero_add]
    exact h offset entry hentry hskipped

end Tables

end DispatchTable
end TokenPatterns
