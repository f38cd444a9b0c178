import TokenPatterns.Unicode.Bisection

/-!
# Tables of case mappings

Most letters change case to one other letter, and neighbouring letters do so in step: such
stretches are listed as runs. The few characters that change to several are listed one by one.
-/
namespace TokenPatterns
namespace Unicode

/-- Every `step`-th character from `first` to `last`, mapped in step to those from `image` on. -/
structure CaseRun where
  first : Nat
  last : Nat
  step : Nat
  image : Nat

def CaseRun.image? (run : CaseRun) (code : Nat) : Option Nat :=
  if run.first ≤ code ∧ code ≤ run.last ∧ (code - run.first) % run.step = 0 then
    some (run.image + (code - run.first))
  else none

structure CaseTable where
  runs : Array CaseRun
  expansions : Array (Nat × List Nat)

namespace CaseTable

/-- What `code` maps to, or nothing if it keeps itself. -/
def images? (table : CaseTable) (code : Nat) : Option (List Nat) :=
  match (lastStarting? table.runs CaseRun.first code).bind (·.image? code) with
  | some image => some [image]
  | none =>
    ((lastStarting? table.expansions Prod.fst code).filter (·.1 == code)).map Prod.snd

def map (table : CaseTable) (c : Char) : List Char :=
  match table.images? c.toNat with
  | some codes => codes.map Char.ofNat
  | none => [c]

/-- Whether an entry can map a character to `code`. -/
def mayReach (table : CaseTable) (code : Nat) : Bool :=
  table.runs.any (fun run => run.image ≤ code && code ≤ run.image + (run.last - run.first)) ||
    table.expansions.any (·.2.contains code)

section Reach

variable {table : CaseTable} {code image : Nat}

theorem mayReach_of_run {run : CaseRun} (hrun : run ∈ table.runs)
    (h : run.image? code = some image) : table.mayReach image = true := by
  unfold CaseRun.image? at h
  split at h
  · next hin =>
    obtain rfl := Option.some.inj h
    rw [mayReach, Bool.or_eq_true]
    refine .inl (Array.any_eq_true'.mpr ⟨run, hrun, ?_⟩)
    simp only [Bool.and_eq_true, decide_eq_true_eq]
    omega
  · cases h

theorem mayReach_of_images? {images : List Nat} (h : table.images? code = some images)
    (hmem : image ∈ images) : table.mayReach image = true := by
  unfold images? at h
  split at h
  · next hrun =>
    obtain ⟨run, hlast, himage⟩ := Option.bind_eq_some_iff.mp hrun
    obtain rfl := Option.some.inj h
    rw [List.mem_singleton.mp hmem]
    exact mayReach_of_run (mem_of_lastStarting? hlast) himage
  · obtain ⟨expansion, hlast, rfl⟩ := Option.map_eq_some_iff.mp h
    have hexpansion := mem_of_lastStarting? (Option.filter_eq_some_iff.mp hlast).1
    rw [mayReach, Bool.or_eq_true]
    exact .inr (Array.any_eq_true'.mpr ⟨expansion, hexpansion, List.contains_iff_mem.mpr hmem⟩)

theorem mayReach_of_mem_map {c other : Char} (h : other ∈ table.map c) (hne : other ≠ c)
    (hzero : other.toNat ≠ 0) : table.mayReach other.toNat = true := by
  unfold map at h
  split at h
  · next images himages =>
    obtain ⟨image, himage, rfl⟩ := List.mem_map.mp h
    by_cases hvalid : image.isValidChar
    · rw [Char.ofNat, dif_pos hvalid]
      exact mayReach_of_images? himages himage
    · rw [Char.ofNat, dif_neg hvalid] at hzero
      exact absurd rfl hzero
  · exact absurd (List.mem_singleton.mp h) hne

end Reach

end CaseTable
end Unicode
end TokenPatterns
