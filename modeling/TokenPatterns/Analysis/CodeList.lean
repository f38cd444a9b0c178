import Std.Data.HashSet
import TokenPatterns.CaseMapping

/-!
# Lists of code points without repeats
-/
namespace TokenPatterns

/-- Code points in the order of their first arrival, with an index of those that have arrived. -/
structure CodeList where
  codes : Array Nat := #[]
  index : Std.HashSet Nat := {}
  mem_index : ∀ code, code ∈ index ↔ code ∈ codes := by simp

namespace CodeList

def add (list : CodeList) (code : Nat) : CodeList :=
  if list.index.contains code then list
  else
    { codes := list.codes.push code
      index := list.index.insert code
      mem_index := by
        intro other
        rw [Std.HashSet.mem_insert, list.mem_index, Array.mem_push, beq_iff_eq, or_comm, eq_comm] }

theorem codes_add (list : CodeList) (code : Nat) :
    (list.add code).codes = if code ∈ list.codes then list.codes else list.codes.push code := by
  unfold add
  simp only [Std.HashSet.contains_iff_mem, list.mem_index]
  split <;> rfl

theorem mem_codes_add {list : CodeList} {code other : Nat} :
    other ∈ (list.add code).codes ↔ other ∈ list.codes ∨ other = code := by
  rw [codes_add]
  split
  · next hmem =>
    constructor
    · exact .inl
    · rintro (hother | rfl)
      · exact hother
      · exact hmem
  · exact Array.mem_push

/-- Adds a code point and, with `ignoreCase`, its variant after it. -/
def addCased (mapping : CaseMapping) (ignoreCase : Bool) (list : CodeList) (code : Nat) :
    CodeList :=
  let list := list.add code
  if ignoreCase then
    match mapping.variant? code with
    | some variant => list.add variant
    | none => list
  else list

theorem mem_codes_addCased {mapping : CaseMapping} {ignoreCase : Bool} {list : CodeList}
    {code other : Nat} : other ∈ (list.addCased mapping ignoreCase code).codes ↔
      other ∈ list.codes ∨ mapping.Pairs ignoreCase code other := by
  unfold addCased CaseMapping.Pairs
  cases ignoreCase with
  | false => simp [mem_codes_add]
  | true =>
    cases hvariant : mapping.variant? code with
    | none => simp [mem_codes_add]
    | some variant => simp [mem_codes_add, or_assoc, eq_comm]

theorem mem_codes_foldl_addCased {mapping : CaseMapping} {ignoreCase : Bool} {codes : List Nat}
    {list : CodeList} {other : Nat} :
    other ∈ (codes.foldl (addCased mapping ignoreCase) list).codes ↔
      other ∈ list.codes ∨ ∃ code ∈ codes, mapping.Pairs ignoreCase code other := by
  induction codes generalizing list with
  | nil => simp
  | cons code codes ih => simp [ih, mem_codes_addCased, or_assoc]

end CodeList
end TokenPatterns
