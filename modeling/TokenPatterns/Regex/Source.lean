/-!
# Text being read

A source is what is left of a text together with the number of characters read so far. Every
reader returns a source that the one it was given leads to, so positions only grow and nothing
is read twice.
-/
namespace TokenPatterns
namespace Regex

structure Source where
  pos : Nat
  rest : List Char
deriving DecidableEq

namespace Source

def ofString (text : String) : Source := ⟨0, text.toList⟩

def next? : Source → Option (Char × Source)
  | ⟨_, []⟩ => none
  | ⟨pos, c :: rest⟩ => some (c, ⟨pos + 1, rest⟩)

def skip? (c : Char) : Source → Option Source
  | ⟨_, []⟩ => none
  | ⟨pos, d :: rest⟩ => if d = c then some ⟨pos + 1, rest⟩ else none

/-- The longest stretch of characters that satisfy `p`, and the source after it. -/
def span (p : Char → Bool) (source : Source) : List Char × Source :=
  (source.rest.takeWhile p,
    ⟨source.pos + (source.rest.takeWhile p).length, source.rest.dropWhile p⟩)

/-- `later` is left of `source` when some of its characters have been read. -/
def LeadsTo (source later : Source) : Prop :=
  ∃ text, source.rest = text ++ later.rest ∧ later.pos = source.pos + text.length

namespace LeadsTo

theorem refl (source : Source) : source.LeadsTo source := ⟨[], rfl, rfl⟩

theorem trans {a b c : Source} (hab : a.LeadsTo b) (hbc : b.LeadsTo c) : a.LeadsTo c := by
  obtain ⟨s, hs, hb⟩ := hab
  obtain ⟨t, ht, hc⟩ := hbc
  exact ⟨s ++ t, by rw [hs, ht, List.append_assoc], by rw [hc, hb, List.length_append]; omega⟩

theorem length_le {a b : Source} (h : a.LeadsTo b) : b.rest.length ≤ a.rest.length := by
  obtain ⟨s, hs, -⟩ := h
  rw [hs, List.length_append]
  omega

end LeadsTo

/-- Whether a source is what is left of a text at its position. -/
def IsLeftOf (text : List Char) (source : Source) : Prop :=
  source.rest = text.drop source.pos

theorem IsLeftOf.later {text : List Char} {source later : Source} (h : source.IsLeftOf text)
    (hleads : source.LeadsTo later) : later.IsLeftOf text := by
  obtain ⟨word, hrest, hpos⟩ := hleads
  rw [IsLeftOf, hpos, ← List.drop_drop, ← h, hrest, List.drop_left]

theorem isLeftOf_ofString (text : String) : (ofString text).IsLeftOf text.toList := rfl

/-- A character that does not escape, stands at neither edge of a class and opens no group. -/
def isOrdinary (c : Char) : Bool := c != '\\' && c != '[' && c != ']' && c != '('

theorem isOrdinary_of {p : Char → Bool} {c : Char} (h : p c = true) (hslash : p '\\' = false)
    (hopen : p '[' = false) (hclose : p ']' = false) (hparen : p '(' = false) :
    isOrdinary c = true := by
  have hne : ∀ d, p d = false → c ≠ d := by
    rintro d hd rfl
    rw [h] at hd
    cases hd
  simp [isOrdinary, hne _ hslash, hne _ hopen, hne _ hclose, hne _ hparen]

/-- `later` is left of `source` when some ordinary characters have been read. -/
def SkipsTo (source later : Source) : Prop :=
  ∃ text : List Char, source.rest = text ++ later.rest ∧ later.pos = source.pos + text.length ∧
    text.all isOrdinary = true

namespace SkipsTo

theorem refl (source : Source) : source.SkipsTo source := ⟨[], rfl, rfl, rfl⟩

theorem trans {a b c : Source} (hab : a.SkipsTo b) (hbc : b.SkipsTo c) : a.SkipsTo c := by
  obtain ⟨s, hs, hb, hsOrdinary⟩ := hab
  obtain ⟨t, ht, hc, htOrdinary⟩ := hbc
  refine ⟨s ++ t, by rw [hs, ht, List.append_assoc], ?_, ?_⟩
  · rw [hc, hb, List.length_append]
    omega
  · rw [List.all_append, hsOrdinary, htOrdinary]
    rfl

theorem leadsTo {a b : Source} (h : a.SkipsTo b) : a.LeadsTo b := by
  obtain ⟨text, hrest, hpos, -⟩ := h
  exact ⟨text, hrest, hpos⟩

end SkipsTo

theorem next?_eq_some {source later : Source} {c : Char} (h : source.next? = some (c, later)) :
    source.rest = c :: later.rest ∧ later.pos = source.pos + 1 := by
  obtain ⟨pos, _ | ⟨d, rest⟩⟩ := source
  · simp [next?] at h
  · simp only [next?, Option.some.injEq, Prod.mk.injEq] at h
    obtain ⟨rfl, rfl⟩ := h
    exact ⟨rfl, rfl⟩

theorem next?_of_rest_eq {source : Source} {c : Char} {text : List Char}
    (h : source.rest = c :: text) : source.next? = some (c, ⟨source.pos + 1, text⟩) := by
  obtain ⟨pos, rest⟩ := source
  obtain rfl : rest = c :: text := h
  rfl

theorem leadsTo_of_next? {source later : Source} {c : Char} (h : source.next? = some (c, later)) :
    source.LeadsTo later :=
  ⟨[c], (next?_eq_some h).1, (next?_eq_some h).2⟩

theorem next?_eq_none {source : Source} (h : source.next? = none) : source.rest = [] := by
  obtain ⟨pos, _ | ⟨d, rest⟩⟩ := source
  · rfl
  · simp [next?] at h

theorem skip?_eq_some {source later : Source} {c : Char} (h : source.skip? c = some later) :
    source.rest = c :: later.rest ∧ later.pos = source.pos + 1 := by
  obtain ⟨pos, _ | ⟨d, rest⟩⟩ := source
  · simp [skip?] at h
  · simp only [skip?, Option.ite_none_right_eq_some, Option.some.injEq] at h
    obtain ⟨rfl, rfl⟩ := h
    exact ⟨rfl, rfl⟩

theorem skip?_eq_none {source : Source} {c : Char} (h : source.skip? c = none) :
    source.rest.head? ≠ some c := by
  obtain ⟨pos, _ | ⟨d, rest⟩⟩ := source
  · nofun
  · simpa [skip?] using h

theorem skipsTo_of_next? {source later : Source} {c : Char}
    (h : source.next? = some (c, later)) (hc : isOrdinary c = true) : source.SkipsTo later :=
  ⟨[c], (next?_eq_some h).1, (next?_eq_some h).2, by simp [hc]⟩

theorem skipsTo_of_skip? {source later : Source} {c : Char} (h : source.skip? c = some later)
    (hc : isOrdinary c = true) : source.SkipsTo later :=
  ⟨[c], (skip?_eq_some h).1, (skip?_eq_some h).2, by simp [hc]⟩

theorem skipsTo_span {p : Char → Bool} (hp : ∀ c, p c = true → isOrdinary c = true)
    (source : Source) : source.SkipsTo (source.span p).2 := by
  refine ⟨source.rest.takeWhile p, List.takeWhile_append_dropWhile.symm, rfl, ?_⟩
  have hall : (source.rest.takeWhile p).all p = true := List.all_takeWhile
  rw [List.all_eq_true] at hall ⊢
  intro c hc
  exact hp c (hall c hc)

end Source
end Regex
end TokenPatterns
