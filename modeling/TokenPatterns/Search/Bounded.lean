import Mathlib.Data.List.Forall2
import TokenPatterns.Regex.Openings
import TokenPatterns.Search.Taken

/-!
# What a bound on nesting does to a search

The body of a lookaround that is nested too deep does not match. So a positive lookaround fails there
and a negated one succeeds. What that does to the search depends on the negations around it: each of
them turns a way that is lost into one that is brought in, and the other way round. If all
lookarounds that are refused stand under an even number of negations, ways can only be lost.
-/
namespace TokenPatterns

open List (Forall₂ SublistForall₂)

section Lists

variable {α β γ δ : Type} {R : α → β → Prop} {S : γ → δ → Prop} {l l' : List α} {m m' : List β}

theorem sublistForall₂_append (h : SublistForall₂ R l m) (h' : SublistForall₂ R l' m') :
    SublistForall₂ R (l ++ l') (m ++ m') := by
  induction h with
  | @nil m =>
    induction m with
    | nil => exact h'
    | cons b m ih => exact .cons_right ih
  | cons hab _ ih => exact .cons hab ih
  | cons_right _ ih => exact .cons_right ih

theorem sublistForall₂_flatMap {f : α → List γ} {g : β → List δ} (h : SublistForall₂ R l m)
    (hfg : ∀ a b, R a b → SublistForall₂ S (f a) (g b)) :
    SublistForall₂ S (l.flatMap f) (m.flatMap g) := by
  induction h with
  | nil => exact .nil
  | cons hab _ ih => exact sublistForall₂_append (hfg _ _ hab) ih
  | cons_right _ ih => exact sublistForall₂_append .nil ih

theorem sublistForall₂_singleton {a : α} {b : β} (h : R a b) : SublistForall₂ R [a] [b] :=
  .cons h .nil

theorem sublistForall₂_of_length_le_one (hl : l.length ≤ 1) (hne : l ≠ [] → m ≠ [])
    (h : ∀ a ∈ l, ∀ b ∈ m, R a b) : SublistForall₂ R l m := by
  match l, m with
  | [], _ => exact .nil
  | [a], [] => exact absurd rfl (hne (List.cons_ne_nil a []))
  | [a], b :: _ => exact .cons (h a List.mem_cons_self b List.mem_cons_self) .nil
  | _ :: _ :: _, _ => simp at hl

theorem exists_mem_of_sublistForall₂ (h : SublistForall₂ R l m) {a : α} (ha : a ∈ l) :
    ∃ b ∈ m, R a b := by
  induction h with
  | nil => cases ha
  | cons hab _ ih =>
    rcases List.mem_cons.mp ha with rfl | hlater
    · exact ⟨_, List.mem_cons_self, hab⟩
    · obtain ⟨b, hb, hR⟩ := ih hlater
      exact ⟨b, List.mem_cons_of_mem _ hb, hR⟩
  | cons_right _ ih =>
    obtain ⟨b, hb, hR⟩ := ih ha
    exact ⟨b, List.mem_cons_of_mem _ hb, hR⟩

theorem length_le_of_sublistForall₂ (h : SublistForall₂ R l m) : l.length ≤ m.length := by
  obtain ⟨sub, hforall, hsub⟩ := List.sublistForall₂_iff.mp h
  rw [hforall.length_eq]
  exact hsub.length_le

theorem forall₂_of_sublistForall₂ (h : SublistForall₂ R l m) (hlength : m.length ≤ l.length) :
    Forall₂ R l m := by
  obtain ⟨sub, hforall, hsub⟩ := List.sublistForall₂_iff.mp h
  rw [hforall.length_eq] at hlength
  rwa [← hsub.eq_of_length_le hlength]

theorem rel_find? {p : α → Bool} {q : β → Bool} (h : Forall₂ R l m)
    (hpq : ∀ a b, R a b → p a = q b) : Option.Rel R (l.find? p) (m.find? q) := by
  induction h with
  | nil => exact .none
  | @cons a b _ _ hab _ ih =>
    rw [List.find?_cons, List.find?_cons, hpq a b hab]
    cases q b with
    | true => exact .some hab
    | false => exact ih

theorem rel_findSome? {f : γ → Option α} {g : γ → Option β} (h : ∀ c, Option.Rel R (f c) (g c))
    (starts : List γ) : Option.Rel R (starts.findSome? f) (starts.findSome? g) := by
  induction starts with
  | nil => exact .none
  | cons c starts ih =>
    rw [List.findSome?_cons, List.findSome?_cons]
    have hrel := h c
    generalize f c = found?, g c = other? at hrel
    cases hrel with
    | some hab => exact .some hab
    | none => exact ih

end Lists

def Captures.Alike (named : List Nat) (captures other : Captures) : Prop :=
  ∀ number ∈ named, captures number = other number

/-- Whether the ways end at the same place, and agree on the captures of the given numbers. -/
structure Way.Alike (named : List Nat) (way other : Way) : Prop where
  stop_eq : way.stop = other.stop
  captures : way.captures.Alike named other.captures

theorem Captures.Alike.symm {named : List Nat} {captures other : Captures}
    (h : captures.Alike named other) : other.Alike named captures :=
  fun number hnumber => (h number hnumber).symm

theorem Captures.Alike.keep {named : List Nat} {captures other : Captures}
    (h : captures.Alike named other) (number start stop : Nat) :
    (captures.keep number start stop).Alike named (other.keep number start stop) := by
  intro later hlater
  simp only [Captures.keep, h later hlater]

namespace Search

variable {named : List Nat}

section Laps

variable {lap next : Nat → Captures → List Way} {way other : Way}

/-- Whether the ways of one lap are among those of another, wherever both begin alike. -/
def LapsAmong (named : List Nat) (lap next : Nat → Captures → List Way) : Prop :=
  ∀ way other : Way, way.Alike named other →
    SublistForall₂ (Way.Alike named) (lap way.stop way.captures) (next other.stop other.captures)

theorem sublist_requiredLaps (hlap : LapsAmong named lap next) (halike : way.Alike named other)
    (count : Nat) : SublistForall₂ (Way.Alike named) (requiredLaps lap count way)
      (requiredLaps next count other) := by
  induction count generalizing way other with
  | zero => exact sublistForall₂_singleton halike
  | succ count ih => exact sublistForall₂_flatMap (hlap way other halike) fun _ _ hnext => ih hnext

theorem sublist_optionalLaps (hlap : LapsAmong named lap next) (halike : way.Alike named other)
    (greedy : Bool) (size : Nat) (left? : Option Nat) :
    SublistForall₂ (Way.Alike named) (optionalLaps lap greedy size left? way)
      (optionalLaps next greedy size left? other) := by
  induction hleft : size - way.stop using Nat.strongRecOn generalizing way other left? with
  | ind left ih =>
    rw [optionalLaps, optionalLaps]
    by_cases hzero : left? = some 0
    · rw [if_pos hzero, if_pos hzero]
      exact sublistForall₂_singleton halike
    · rw [if_neg hzero, if_neg hzero]
      have hfurther : SublistForall₂ (Way.Alike named)
          ((lap way.stop way.captures).flatMap fun later =>
            if way.stop < later.stop ∧ later.stop ≤ size then
              optionalLaps lap greedy size (left?.map (· - 1)) later
            else [])
          ((next other.stop other.captures).flatMap fun later =>
            if other.stop < later.stop ∧ later.stop ≤ size then
              optionalLaps next greedy size (left?.map (· - 1)) later
            else []) := by
        apply sublistForall₂_flatMap (hlap way other halike)
        intro later later' hlater
        rw [← halike.stop_eq, ← hlater.stop_eq]
        by_cases hstop : way.stop < later.stop ∧ later.stop ≤ size
        · rw [if_pos hstop, if_pos hstop]
          exact ih _ (by omega) hlater _ rfl
        · rw [if_neg hstop, if_neg hstop]
          exact .nil
      cases greedy with
      | true => exact sublistForall₂_append hfurther (sublistForall₂_singleton halike)
      | false => exact .cons halike hfurther

theorem sublist_laps (hlap : LapsAmong named lap next) (halike : way.Alike named other)
    (quantifier : Quantifier) (size : Nat) :
    SublistForall₂ (Way.Alike named) (laps lap quantifier size way)
      (laps next quantifier size other) :=
  sublistForall₂_flatMap (sublist_requiredLaps hlap halike _) fun _ _ hmiddle =>
    sublist_optionalLaps hlap hmiddle _ _ _

end Laps

section Look

variable {body other : Nat → List Way} {behind negated : Bool} {pos : Nat} {captures : Captures}
  {found? : Option Way}

theorem rel_beside? (h : ∀ start, Forall₂ (Way.Alike named) (body start) (other start))
    (behind : Bool) (pos : Nat) :
    Option.Rel (Way.Alike named) (beside? body behind pos) (beside? other behind pos) := by
  cases behind with
  | true =>
    apply rel_findSome?
    intro start
    apply rel_find? (h start)
    intro way way' halike
    rw [halike.stop_eq]
  | false =>
    have hways := h pos
    simp only [beside?, Bool.false_eq_true, if_false]
    generalize body pos = ways, other pos = ways' at hways
    cases hways with
    | nil => exact .none
    | cons halike _ => exact .some halike

theorem isSome_beside? : (beside? body behind pos).isSome = true ↔
    ∃ start, ∃ way ∈ body start, if behind then start ≤ pos ∧ way.stop = pos else start = pos := by
  cases behind with
  | true =>
    simp only [beside?, if_true, List.findSome?_isSome_iff, List.mem_reverse, List.mem_range,
      Nat.lt_succ_iff, List.find?_isSome, beq_iff_eq]
    constructor
    · rintro ⟨start, hle, way, hway, hstop⟩
      exact ⟨start, way, hway, hle, hstop⟩
    · rintro ⟨start, way, hway, hle, hstop⟩
      exact ⟨start, hle, way, hway, hstop⟩
  | false => simp [beside?, List.isSome_head?, List.eq_nil_iff_forall_not_mem]

theorem beside?_nil : beside? (fun _ => []) behind pos = none := by
  cases behind <;> simp [beside?]

theorem isSome_beside?_of_sublist
    (h : ∀ start, SublistForall₂ (Way.Alike named) (body start) (other start))
    (hsome : (beside? body behind pos).isSome = true) :
    (beside? other behind pos).isSome = true := by
  obtain ⟨start, way, hway, hbeside⟩ := isSome_beside?.mp hsome
  obtain ⟨way', hway', halike⟩ := exists_mem_of_sublistForall₂ (h start) hway
  rw [halike.stop_eq] at hbeside
  exact isSome_beside?.mpr ⟨start, way', hway', hbeside⟩

theorem look_ne_nil : look negated found? pos captures ≠ [] ↔ found?.isSome = !negated := by
  cases found? <;> cases negated <;> simp [look]

theorem length_look_le : (look negated found? pos captures).length ≤ 1 := by
  cases found? <;> cases negated <;> simp [look]

theorem captures_of_mem_look_true {way : Way} (h : way ∈ look true found? pos captures) :
    way.captures = captures := by
  cases found? with
  | none => rw [List.mem_singleton.mp h]
  | some inside => cases h

/-- What comes of two lookarounds that have found ways alike. -/
theorem sublist_look {other? : Option Way} {captures' : Captures}
    (hfound : Option.Rel (Way.Alike named) found? other?) (hcaptures : captures.Alike named captures')
    (negated : Bool) (pos : Nat) : SublistForall₂ (Way.Alike named)
      (look negated found? pos captures) (look negated other? pos captures') := by
  cases hfound with
  | none =>
    cases negated with
    | true => exact sublistForall₂_singleton ⟨rfl, hcaptures⟩
    | false => exact .nil
  | some halike =>
    cases negated with
    | true => exact .nil
    | false => exact sublistForall₂_singleton ⟨rfl, halike.captures⟩

end Look

end Search

namespace Node

mutual

/-- Whether each lookaround whose body is refused, since `nesting` allows for no other, stands under
an odd number of negations if `odd` is true, and under an even number otherwise. Its own negation
counts, too. A positive lookaround around it may hold no capture of the given numbers. -/
def Leans (named : List Nat) : Node → (odd : Bool) → (nesting : Nat) → Prop
  | look kind _, odd, 0 => kind.negated = odd
  | look kind inner, odd, deeper + 1 =>
    inner.lookDepth ≤ deeper ∨
      (kind.negated = true ∨ ∀ number ∈ inner.captures, number ∉ named) ∧
        Leans named inner (odd ^^ kind.negated) deeper
  | group _ inner, odd, nesting => Leans named inner odd nesting
  | concat items, odd, nesting => AllLean named items odd nesting
  | alternation branches, odd, nesting => AllLean named branches odd nesting
  | repetition _ inner, odd, nesting => Leans named inner odd nesting
  | _, _, _ => True

def AllLean (named : List Nat) : List Node → (odd : Bool) → (nesting : Nat) → Prop
  | [], _, _ => True
  | node :: nodes, odd, nesting => Leans named node odd nesting ∧ AllLean named nodes odd nesting

end

mutual

/-- Where lookarounds nest as deep as is allowed, none is refused. -/
theorem leans_of_lookDepth_le (named : List Nat) : ∀ (node : Node) {odd : Bool} {nesting : Nat},
    node.lookDepth ≤ nesting → node.Leans named odd nesting
  | literal _, _, _, _ => trivial
  | charClass _, _, _, _ => trivial
  | anyChar, _, _, _ => trivial
  | anchor _, _, _, _ => trivial
  | backreference _, _, _, _ => trivial
  | look _ _, _, 0, h => absurd h (Nat.not_succ_le_zero _)
  | look _ _, _, _ + 1, h => .inl (Nat.le_of_succ_le_succ h)
  | group _ inner, _, _, h => leans_of_lookDepth_le named inner h
  | concat items, _, _, h => allLean_of_lookDepth_le named items h
  | alternation branches, _, _, h => allLean_of_lookDepth_le named branches h
  | repetition _ inner, _, _, h => leans_of_lookDepth_le named inner h

theorem allLean_of_lookDepth_le (named : List Nat) : ∀ (nodes : List Node) {odd : Bool}
    {nesting : Nat}, lookDepthAll nodes ≤ nesting → AllLean named nodes odd nesting
  | [], _, _, _ => trivial
  | node :: nodes, _, _, h =>
    ⟨leans_of_lookDepth_le named node (Nat.le_trans (Nat.le_max_left _ _) h),
      allLean_of_lookDepth_le named nodes (Nat.le_trans (Nat.le_max_right _ _) h)⟩

end

/-- The bound on the side of a search with fewer ways: `nesting` if ways are lost, and none if ways
are brought in. -/
def bound (odd : Bool) (nesting : Nat) : Option Nat := if odd then none else some nesting

variable {s : Subject} {named : List Nat}

theorem sublist_take (p : Char → Bool) (pos : Nat) {captures other : Captures}
    (h : captures.Alike named other) : SublistForall₂ (Way.Alike named)
      (Search.take s p pos captures) (Search.take s p pos other) := by
  unfold Search.take
  split
  · exact sublistForall₂_singleton ⟨rfl, h⟩
  · exact .nil

section Look

variable {kind : Look} {inner : Node} {odd : Bool} {deeper pos : Nat} {captures other : Captures}

theorem ways_look_bound : (look kind inner).ways s (bound odd (deeper + 1)) pos captures =
    Search.look kind.negated
      (Search.beside? (inner.ways s (bound odd deeper) · captures) kind.behind pos) pos captures := by
  cases odd <;> rfl

theorem ways_bound_of_lookDepth_le (h : inner.lookDepth ≤ deeper) :
    inner.ways s (bound odd deeper) = inner.ways s none := by
  cases odd with
  | true => rfl
  | false => exact ways_of_lookDepth_le inner h

/-- Of what a lookaround does, only the captures in a positive one can be seen behind it. -/
theorem alike_of_mem_ways_look {nesting? : Option Nat} {way : Way}
    (hunnamed : kind.negated = true ∨ ∀ number ∈ inner.captures, number ∉ named)
    (h : way ∈ (look kind inner).ways s nesting? pos captures) :
    way.stop = pos ∧ way.captures.Alike named captures := by
  constructor
  · rw [ways] at h
    exact Search.look_stop h
  · intro number hnumber
    rcases hunnamed with hnegated | hunnamed
    · rw [ways, hnegated] at h
      rw [Search.captures_of_mem_look_true h]
    · have hinner : number ∉ (look kind inner).captures :=
        fun hmem => hunnamed number hmem hnumber
      exact captures_of_mem_ways _ hinner h

/-- A lookaround with no capture that matters is told apart by whether it succeeds at all. -/
theorem sublist_ways_look {left right : Option Nat}
    (hunnamed : kind.negated = true ∨ ∀ number ∈ inner.captures, number ∉ named)
    (hcaptures : captures.Alike named other)
    (hne : (look kind inner).ways s left pos captures ≠ [] →
      (look kind inner).ways s right pos other ≠ []) : SublistForall₂ (Way.Alike named)
        ((look kind inner).ways s left pos captures) ((look kind inner).ways s right pos other) := by
  have hlength : ((look kind inner).ways s left pos captures).length ≤ 1 := by
    rw [ways]
    exact Search.length_look_le
  apply sublistForall₂_of_length_le_one hlength hne
  intro way hway way' hway'
  obtain ⟨hstop, hkept⟩ := alike_of_mem_ways_look hunnamed hway
  obtain ⟨hstop', hkept'⟩ := alike_of_mem_ways_look hunnamed hway'
  refine ⟨hstop.trans hstop'.symm, fun number hnumber => ?_⟩
  rw [hkept number hnumber, hcaptures number hnumber, hkept' number hnumber]

theorem sublist_ways_look_of_refused (hodd : kind.negated = odd)
    (hcaptures : captures.Alike named other) : SublistForall₂ (Way.Alike named)
      ((look kind inner).ways s (bound odd 0) pos captures)
      ((look kind inner).ways s (bound (!odd) 0) pos other) := by
  cases odd with
  | false =>
    have hnone : (look kind inner).ways s (bound false 0) pos captures = [] := by
      simp [ways, bound, Search.beside?_nil, hodd, Search.look]
    rw [hnone]
    exact .nil
  | true =>
    have hone : (look kind inner).ways s (bound false 0) pos other ≠ [] := by
      simp [ways, bound, Search.beside?_nil, hodd, Search.look]
    exact sublist_ways_look (.inl hodd) hcaptures fun _ => hone

theorem sublist_ways_look_of_lookDepth_le (h : inner.lookDepth ≤ deeper)
    (hcaptures : captures.Alike named other)
    (hinner : ∀ {captures other : Captures}, captures.Alike named other →
      ∀ start, SublistForall₂ (Way.Alike named) (inner.ways s none start captures)
        (inner.ways s none start other)) : SublistForall₂ (Way.Alike named)
      ((look kind inner).ways s (bound odd (deeper + 1)) pos captures)
      ((look kind inner).ways s (bound (!odd) (deeper + 1)) pos other) := by
  rw [ways_look_bound, ways_look_bound, ways_bound_of_lookDepth_le h, ways_bound_of_lookDepth_le h]
  refine Search.sublist_look (Search.rel_beside? (fun start => ?_) _ _) hcaptures _ _
  exact forall₂_of_sublistForall₂ (hinner hcaptures start)
    (length_le_of_sublistForall₂ (hinner hcaptures.symm start))

theorem sublist_ways_look_of_leans
    (hunnamed : kind.negated = true ∨ ∀ number ∈ inner.captures, number ∉ named)
    (hcaptures : captures.Alike named other)
    (hinner : ∀ {captures other : Captures}, captures.Alike named other →
      ∀ start, SublistForall₂ (Way.Alike named)
        (inner.ways s (bound (odd ^^ kind.negated) deeper) start captures)
        (inner.ways s (bound (!(odd ^^ kind.negated)) deeper) start other)) :
    SublistForall₂ (Way.Alike named)
      ((look kind inner).ways s (bound odd (deeper + 1)) pos captures)
      ((look kind inner).ways s (bound (!odd) (deeper + 1)) pos other) := by
  apply sublist_ways_look hunnamed hcaptures
  rw [ways_look_bound, ways_look_bound, Search.look_ne_nil, Search.look_ne_nil]
  cases hnegated : kind.negated with
  | false =>
    rw [hnegated, Bool.xor_false] at hinner
    exact Search.isSome_beside?_of_sublist (hinner hcaptures)
  | true =>
    rw [hnegated, Bool.xor_true, Bool.not_not] at hinner
    have hback : (Search.beside? (inner.ways s (bound (!odd) deeper) · other) kind.behind
        pos).isSome = true →
          (Search.beside? (inner.ways s (bound odd deeper) · captures) kind.behind
            pos).isSome = true :=
      Search.isSome_beside?_of_sublist (hinner hcaptures.symm)
    intro hfailed
    rw [Bool.not_true, Bool.eq_false_iff] at hfailed ⊢
    exact fun hsome => hfailed (hback hsome)

end Look

mutual

/-- Of a node that leans to one side, the ways of the one search are among those of the other, in
their order. -/
theorem sublist_ways : ∀ (node : Node) {odd : Bool} {nesting pos : Nat} {captures other : Captures},
    (∀ number ∈ node.references, number ∈ named) → node.Leans named odd nesting →
    captures.Alike named other → SublistForall₂ (Way.Alike named)
      (node.ways s (bound odd nesting) pos captures) (node.ways s (bound (!odd) nesting) pos other)
  | literal _, _, _, _, _, _, _, _, hcaptures => sublist_take _ _ hcaptures
  | charClass _, _, _, _, _, _, _, _, hcaptures => sublist_take _ _ hcaptures
  | anyChar, _, _, _, _, _, _, _, hcaptures => sublist_take _ _ hcaptures
  | anchor kind, _, _, pos, _, _, _, _, hcaptures => by
    rw [ways, ways]
    split
    · exact sublistForall₂_singleton ⟨rfl, hcaptures⟩
    · exact .nil
  | look _ _, _, 0, _, _, _, _, hleans, hcaptures => sublist_ways_look_of_refused hleans hcaptures
  | look kind inner, odd, deeper + 1, _, _, _, hreferences, hleans, hcaptures => by
    rcases hleans with hfits | ⟨hunnamed, hdeeper⟩
    · apply sublist_ways_look_of_lookDepth_le hfits hcaptures
      intro captures other halike start
      have hwithin : inner.Leans named false inner.lookDepth :=
        leans_of_lookDepth_le named inner (Nat.le_refl _)
      have hbounded : SublistForall₂ (Way.Alike named)
          (inner.ways s (bound false inner.lookDepth) start captures)
          (inner.ways s (bound true inner.lookDepth) start other) :=
        sublist_ways inner hreferences hwithin halike
      rwa [ways_bound_of_lookDepth_le (Nat.le_refl _), ways_bound_of_lookDepth_le (Nat.le_refl _)]
        at hbounded
    · apply sublist_ways_look_of_leans hunnamed hcaptures
      intro captures other halike start
      exact sublist_ways inner hreferences hdeeper halike
  | group none inner, _, _, _, _, _, hreferences, hleans, hcaptures =>
    sublist_ways inner hreferences hleans hcaptures
  | group (some number) inner, _, _, pos, _, _, hreferences, hleans, hcaptures => by
    rw [ways, ways, List.map_eq_flatMap, List.map_eq_flatMap]
    apply sublistForall₂_flatMap (sublist_ways inner hreferences hleans hcaptures)
    intro way way' halike
    rw [halike.stop_eq]
    exact sublistForall₂_singleton ⟨rfl, halike.captures.keep _ _ _⟩
  | concat items, _, _, _, _, _, hreferences, hleans, hcaptures =>
    sublist_waysAll items hreferences hleans hcaptures
  | alternation branches, _, _, _, _, _, hreferences, hleans, hcaptures =>
    sublist_waysAny branches hreferences hleans hcaptures
  | repetition quantifier inner, _, _, _, _, _, hreferences, hleans, hcaptures => by
    rw [ways, ways]
    apply Search.sublist_laps
    · intro way way' halike
      rw [halike.stop_eq]
      exact sublist_ways inner hreferences hleans halike.captures
    · exact ⟨rfl, hcaptures⟩
  | backreference number, _, _, pos, captures, other, hreferences, _, hcaptures => by
    have hsame : captures number = other number :=
      hcaptures number (hreferences number (List.mem_singleton.mpr rfl))
    rw [ways, ways, hsame]
    cases s.repeatSpan? (other number) pos with
    | none => exact .nil
    | some stop => exact sublistForall₂_singleton ⟨rfl, hcaptures⟩

theorem sublist_waysAll : ∀ (items : List Node) {odd : Bool} {nesting pos : Nat}
    {captures other : Captures}, (∀ number ∈ referencesAll items, number ∈ named) →
    AllLean named items odd nesting → captures.Alike named other →
    SublistForall₂ (Way.Alike named) (waysAll s items (bound odd nesting) pos captures)
      (waysAll s items (bound (!odd) nesting) pos other)
  | [], _, _, _, _, _, _, _, hcaptures => sublistForall₂_singleton ⟨rfl, hcaptures⟩
  | item :: items, _, _, _, _, _, hreferences, hleans, hcaptures => by
    rw [referencesAll, List.forall_mem_append] at hreferences
    rw [waysAll, waysAll]
    apply sublistForall₂_flatMap (sublist_ways item hreferences.1 hleans.1 hcaptures)
    intro way way' halike
    rw [halike.stop_eq]
    exact sublist_waysAll items hreferences.2 hleans.2 halike.captures

theorem sublist_waysAny : ∀ (branches : List Node) {odd : Bool} {nesting pos : Nat}
    {captures other : Captures}, (∀ number ∈ referencesAll branches, number ∈ named) →
    AllLean named branches odd nesting → captures.Alike named other →
    SublistForall₂ (Way.Alike named) (waysAny s branches (bound odd nesting) pos captures)
      (waysAny s branches (bound (!odd) nesting) pos other)
  | [], _, _, _, _, _, _, _, _ => .nil
  | branch :: branches, _, _, _, _, _, hreferences, hleans, hcaptures => by
    rw [referencesAll, List.forall_mem_append] at hreferences
    exact sublistForall₂_append (sublist_ways branch hreferences.1 hleans.1 hcaptures)
      (sublist_waysAny branches hreferences.2 hleans.2 hcaptures)

end

/-- Where refusals can only lose ways, each way that is left ends where one does without a bound. -/
theorem exists_unbounded_way {node : Node} {nesting pos : Nat} {captures : Captures} {way : Way}
    (h : node.Leans node.references false nesting)
    (hway : way ∈ node.ways s (some nesting) pos captures) :
    ∃ unbounded ∈ node.ways s none pos captures, unbounded.stop = way.stop := by
  have hsame : captures.Alike node.references captures := fun _ _ => rfl
  obtain ⟨unbounded, hmem, halike⟩ :=
    exists_mem_of_sublistForall₂ (sublist_ways node (fun _ hnumber => hnumber) h hsame) hway
  exact ⟨unbounded, hmem, halike.stop_eq.symm⟩

end Node
end TokenPatterns
