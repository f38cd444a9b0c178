/-!
# Bisection of ascending tables

Tables of code points are arrays in ascending order of where their entries start. An entry
is found by halving the part of the table that is still in question.
-/
namespace TokenPatterns
namespace Unicode

/-- The first place from `lo` on, and before `hi`, where `below` fails. It is `hi` if there is
none. Only meaningful if `below` holds nowhere after it failed once. -/
def partitionPoint (below : Nat → Bool) (lo hi : Nat) : Nat :=
  if lo < hi then
    let middle := (lo + hi) / 2
    if below middle then partitionPoint below (middle + 1) hi
    else partitionPoint below lo middle
  else lo
termination_by hi - lo

/-- The entry that starts last among those that start at or before `code`. -/
def lastStarting? (entries : Array α) (start : α → Nat) (code : Nat) : Option α :=
  match partitionPoint (fun i => entries[i]?.any (start · ≤ code)) 0 entries.size with
  | 0 => none
  | i + 1 => entries[i]?

theorem mem_of_lastStarting? {entries : Array α} {start : α → Nat} {code : Nat} {entry : α}
    (h : lastStarting? entries start code = some entry) : entry ∈ entries := by
  unfold lastStarting? at h
  split at h
  · simp at h
  · exact Array.mem_of_getElem? h

end Unicode
end TokenPatterns
