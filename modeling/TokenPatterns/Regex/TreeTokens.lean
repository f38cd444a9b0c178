import TokenPatterns.Regex.Words

/-!
# The tokens of a tree

What the text of a normal tree is read as, one part of the tree after the other.
-/
namespace TokenPatterns

open Regex (Token)

def ClassItem.tokens : ClassItem → List Token
  | single code => [.escaped (Char.ofNat code)]
  | range first last => [.escaped (Char.ofNat first), .minus, .escaped (Char.ofNat last)]

def CharClass.tokens (set : CharClass) : List Token :=
  (if set.negated then [.caret] else []) ++ set.items.toList.flatMap ClassItem.tokens

def Quantifier.tokens (quantifier : Quantifier) : List Token :=
  .braces quantifier.min quantifier.max :: if quantifier.greedy then [] else [.question]

def Anchor.token : Anchor → Token
  | start => .caret
  | finish => .dollar
  | wordBoundary => .wordBoundary
  | nonWordBoundary => .nonWordBoundary

namespace Node

mutual

def tokens : Node → List Token
  | literal c => [.escaped c]
  | charClass set => .classOpen :: (set.tokens ++ [.classClose])
  | anyChar => [.any]
  | anchor kind => [kind.token]
  | look kind inner => .groupOpen (.look kind) :: (tokens inner ++ [.groupClose])
  | group none inner => .groupOpen .nonCapture :: (tokens inner ++ [.groupClose])
  | group (some _) inner => .groupOpen .capture :: (tokens inner ++ [.groupClose])
  | concat items => tokensAll items
  | alternation branches => tokensBranches branches
  | repetition quantifier inner => tokens inner ++ quantifier.tokens
  | backreference number => [.backreference number]

def tokensAll : List Node → List Token
  | [] => []
  | item :: items => tokens item ++ tokensAll items

def tokensBranches : List Node → List Token
  | [] => []
  | [branch] => tokens branch
  | branch :: branches => tokens branch ++ .pipe :: tokensBranches branches

end

end Node

namespace Regex

variable {survey : GroupSurvey} {first : Context}

section Classes

theorem standsApart_items (items : List ClassItem) {rest : List Char} (hrest : StandsApart rest) :
    StandsApart (items.flatMap ClassItem.written ++ rest) := by
  match items with
  | [] => exact hrest
  | .single _ :: _ => exact .cons (by decide) _
  | .range _ _ :: _ => exact .cons (by decide) _

theorem spells_item {item : ClassItem} (hfirst : first ≠ .outside) (h : item.isNormal = true) :
    Spells survey first .inClass item.written item.tokens := by
  have hbackslash : first.after '\\' = .inClass := by
    cases first with
    | outside => exact absurd rfl hfirst
    | _ => rfl
  rcases item.isNormal_cases h with ⟨c, rfl⟩ | ⟨c, d, rfl, -⟩
  · rw [ClassItem.tokens, Char.ofNat_toNat]
    exact spells_escapeOf hbackslash c
  · have hminus : Spells survey .inClass .inClass ['-'] [.minus] := .of_char rfl fun _ _ => rfl
    have hupper : StandsApart (escapeOf d.toNat) := .cons (by decide) _
    have hrest := hminus.append (spells_escapeOf rfl d) hupper
    have hall := (spells_escapeOf hbackslash c).append hrest (.cons (by decide) _)
    rw [ClassItem.tokens, Char.ofNat_toNat, Char.ofNat_toNat]
    exact hall

theorem spells_items {items : List ClassItem} (hfirst : first ≠ .outside)
    (h : ∀ item ∈ items, item.isNormal = true) :
    Spells survey first .outside (items.flatMap ClassItem.written ++ [']'])
      (items.flatMap ClassItem.tokens ++ [.classClose]) := by
  induction items generalizing first with
  | nil =>
    cases first with
    | outside => exact absurd rfl hfirst
    | _ => exact .of_char rfl fun _ _ => rfl
  | cons item items ih =>
    obtain ⟨hitem, hitems⟩ := List.forall_mem_cons.mp h
    have hclose : StandsApart [']'] := .cons (by decide) _
    have hall := (spells_item hfirst hitem).append (ih nofun hitems)
      (standsApart_items items hclose)
    simpa using hall

theorem spells_charClass {set : CharClass} (h : set.isNormal = true) :
    Spells survey .outside .outside set.written (.classOpen :: (set.tokens ++ [.classClose])) := by
  simp only [CharClass.isNormal, Bool.and_eq_true, Array.all_eq_true_iff_forall_mem] at h
  have hitems : ∀ item ∈ set.items.toList, item.isNormal = true :=
    fun item hitem => h.2 item (Array.mem_toList_iff.mp hitem)
  have hopen : Spells survey .outside .classStart ['['] [.classOpen] := .of_char rfl fun _ _ => rfl
  have hclose : StandsApart [']'] := .cons (by decide) _
  have hapart := standsApart_items set.items.toList hclose
  cases hnegated : set.negated with
  | false =>
    have hall := hopen.append (spells_items nofun hitems) hapart
    simpa [CharClass.written, CharClass.tokens, hnegated] using hall
  | true =>
    have hcaret : Spells survey .classStart .inClass ['^'] [.caret] := .of_char rfl fun _ _ => rfl
    have hrest := hcaret.append (spells_items nofun hitems) hapart
    have hall := hopen.append hrest (.cons (by decide) _)
    simpa [CharClass.written, CharClass.tokens, hnegated] using hall

end Classes

section Quantifiers

theorem spells_quantifier {quantifier : Quantifier} (h : quantifier.isNormal = true) :
    Spells survey .outside .outside quantifier.written quantifier.tokens := by
  simp only [Quantifier.isNormal, Bool.and_eq_true, decide_eq_true_eq, Option.all_eq_true] at h
  have hbraces : ∀ rest, ReadsAs survey .outside '\x7b' (Nat.toDigits 10 quantifier.min ++
      ',' :: ((quantifier.max.map (Nat.toDigits 10)).getD [] ++ '\x7d' :: rest))
      (.braces quantifier.min quantifier.max) rest := by
    intro rest pos
    obtain ⟨later, hread⟩ := readBraces?_written h.1.2 h.2 (pos + 1) rest
    exact ⟨later, by simp [readToken, readOutside, hread]⟩
  intro rest more _ hmore
  cases hgreedy : quantifier.greedy with
  | true =>
    have hall := Lexes.cons (hbraces rest) hmore
    simpa [Quantifier.written, Quantifier.tokens, hgreedy] using hall
  | false =>
    have hquestion : ReadsAs survey .outside '?' rest .question rest := fun _ => ⟨_, rfl⟩
    have hall := Lexes.cons (hbraces ('?' :: rest)) (Lexes.cons hquestion hmore)
    simpa [Quantifier.written, Quantifier.tokens, hgreedy] using hall

end Quantifiers

theorem spells_anchor (kind : Anchor) :
    Spells survey .outside .outside kind.written [kind.token] := by
  cases kind with
  | start => exact .of_char rfl fun _ _ => rfl
  | finish => exact .of_char rfl fun _ _ => rfl
  | wordBoundary => exact .of_readsAs rfl fun _ _ _ => ⟨_, rfl⟩
  | nonWordBoundary => exact .of_readsAs rfl fun _ _ _ => ⟨_, rfl⟩

section Trees

mutual

theorem standsApart_written : ∀ node : Node, StandsApart node.written
  | .literal _ => .cons (by decide) _
  | .charClass _ => .cons (by decide) _
  | .anyChar => .cons (by decide) _
  | .anchor .start => .cons (by decide) _
  | .anchor .finish => .cons (by decide) _
  | .anchor .wordBoundary => .cons (by decide) _
  | .anchor .nonWordBoundary => .cons (by decide) _
  | .look _ _ => .cons (by decide) _
  | .group none _ => .cons (by decide) _
  | .group (some _) _ => .cons (by decide) _
  | .concat items => standsApart_writtenAll items
  | .alternation branches => standsApart_writtenBranches branches
  | .repetition _ inner => (standsApart_written inner).append (.cons (by decide) _)
  | .backreference _ => .cons (by decide) _

theorem standsApart_writtenAll : ∀ items : List Node, StandsApart (Node.writtenAll items)
  | [] => .nil
  | item :: items => (standsApart_written item).append (standsApart_writtenAll items)

theorem standsApart_writtenBranches : ∀ branches : List Node,
    StandsApart (Node.writtenBranches branches)
  | [] => .nil
  | [branch] => standsApart_written branch
  | branch :: _ :: _ => (standsApart_written branch).append (.cons (by decide) _)

end

mutual

/-- The text of a normal tree that refers to groups of the survey is read as the tokens of the
tree. -/
theorem spells_written : ∀ node : Node, node.isNormal = true →
    (∀ number ∈ node.references, 1 ≤ number ∧ number ≤ survey.count) →
    Spells survey .outside .outside node.written node.tokens
  | .literal c, _, _ => spells_escapeOf rfl c
  | .charClass _, h, _ => spells_charClass h
  | .anyChar, _, _ => .of_char rfl fun _ _ => rfl
  | .anchor kind, _, _ => spells_anchor kind
  | .look kind inner, h, hrefers =>
    spells_inGroup (.look kind) (spells_written inner h hrefers) (standsApart_written inner)
  | .group none inner, h, hrefers =>
    spells_inGroup .nonCapture (spells_written inner h hrefers) (standsApart_written inner)
  | .group (some _) inner, h, hrefers =>
    spells_inGroup .capture (spells_written inner h hrefers) (standsApart_written inner)
  | .concat items, h, hrefers => by
    simp only [Node.isNormal, Bool.and_eq_true] at h
    exact spells_writtenAll items h.2 hrefers
  | .alternation branches, h, hrefers => by
    simp only [Node.isNormal, Bool.and_eq_true] at h
    exact spells_writtenBranches branches h.2 hrefers
  | .repetition _ inner, h, hrefers => by
    simp only [Node.isNormal, Bool.and_eq_true] at h
    exact (spells_written inner h.2 hrefers).append (spells_quantifier h.1.1.1)
      (.cons (by decide) _)
  | .backreference number, _, hrefers => by
    obtain ⟨hpos, hle⟩ := hrefers number (List.mem_singleton.mpr rfl)
    exact spells_reference hpos hle

theorem spells_writtenAll : ∀ items : List Node, Node.allNormal items = true →
    (∀ number ∈ Node.referencesAll items, 1 ≤ number ∧ number ≤ survey.count) →
    Spells survey .outside .outside (Node.writtenAll items) (Node.tokensAll items)
  | [], _, _ => .nil .outside
  | item :: items, h, hrefers => by
    rw [Node.allNormal, Bool.and_eq_true] at h
    rw [Node.referencesAll, List.forall_mem_append] at hrefers
    exact (spells_written item h.1 hrefers.1).append (spells_writtenAll items h.2 hrefers.2)
      (standsApart_writtenAll items)

theorem spells_writtenBranches : ∀ branches : List Node, Node.allNormal branches = true →
    (∀ number ∈ Node.referencesAll branches, 1 ≤ number ∧ number ≤ survey.count) →
    Spells survey .outside .outside (Node.writtenBranches branches) (Node.tokensBranches branches)
  | [], _, _ => .nil .outside
  | [branch], h, hrefers => by
    rw [Node.allNormal, Bool.and_eq_true] at h
    rw [Node.referencesAll, List.forall_mem_append] at hrefers
    exact spells_written branch h.1 hrefers.1
  | branch :: second :: branches, h, hrefers => by
    rw [Node.allNormal, Bool.and_eq_true] at h
    rw [Node.referencesAll, List.forall_mem_append] at hrefers
    have hbar : Spells survey .outside .outside ['|'] [.pipe] := .of_char rfl fun _ _ => rfl
    have hothers := spells_writtenBranches (second :: branches) h.2 hrefers.2
    have hrest := hbar.append hothers (standsApart_writtenBranches _)
    exact (spells_written branch h.1 hrefers.1).append hrest (.cons (by decide) _)

end

end Trees

end Regex
end TokenPatterns
