import Std.Data.TreeMap
import TokenPatterns.Dispatch.LeadingChars

/-!
# Dispatch on the next character

Token types are numbered from 0 in the order of their priority. A dispatch table lists, for each
code point that some type names, the types worth trying there, in the same order. Types whose
leading characters are unknown are in every such bucket, and are all there is to try elsewhere.
Where each type names its characters and none names the one at hand, every type is tried.
-/
namespace TokenPatterns

structure DispatchTable where
  buckets : Std.TreeMap Nat (List Nat)
  /-- The types with unknown leading characters, if there are any. -/
  unlisted? : Option (List Nat)
  all : List Nat

namespace DispatchTable

/-- Puts a type in front of the bucket of a code, unless it is there already. -/
def addCode (index : Nat) (buckets : Std.TreeMap Nat (List Nat)) (code : Nat) :
    Std.TreeMap Nat (List Nat) :=
  buckets.alter code fun
    | none => some [index]
    | some bucket => if bucket.head? = some index then some bucket else some (index :: bucket)

/-- The buckets of the types from `first` on, each with the types that name its code. -/
def namedBuckets (first : Nat) : List LeadingChars → Std.TreeMap Nat (List Nat)
  | [] => {}
  | entry :: entries =>
    (entry.codes?.getD #[]).foldl (addCode first) (namedBuckets (first + 1) entries)

/-- The types from `first` on whose leading characters are unknown. -/
def unlistedFrom (first : Nat) : List LeadingChars → List Nat
  | [] => []
  | entry :: entries =>
    if entry.codes?.isNone then first :: unlistedFrom (first + 1) entries
    else unlistedFrom (first + 1) entries

def ofEntries (entries : List LeadingChars) : DispatchTable :=
  let unlisted := unlistedFrom 0 entries
  { buckets := (namedBuckets 0 entries).map fun _ bucket => bucket.merge unlisted
    unlisted? := if unlisted.isEmpty then none else some unlisted
    all := List.range entries.length }

/-- The types to try, by priority, where the text goes on with `code`. -/
def candidates (table : DispatchTable) (code : Nat) : List Nat :=
  (table.buckets[code]?).getD (table.unlisted?.getD table.all)

def codes (table : DispatchTable) : List Nat := table.buckets.keys

def isComplete (table : DispatchTable) : Bool := table.unlisted?.isNone

end DispatchTable
end TokenPatterns
