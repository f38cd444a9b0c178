import TokenPatterns.Pattern
import TokenPatterns.Regex.Completeness
import TokenPatterns.Regex.TreeTokens

/-!
# Trees are read back from their text

The tokens of a normal tree derive it. So the parser returns the tree, once the survey of groups is
known to count the captures of the tree.
-/
namespace TokenPatterns

open Regex

/-- Whether the numbers are those that follow `n`. -/
def IsNumbered (n : Nat) (numbers : List Nat) : Prop :=
  numbers = List.range' (n + 1) numbers.length

namespace IsNumbered

variable {n : Nat} {first second : List Nat}

theorem cons {number : Nat} (h : IsNumbered n (number :: second)) :
    number = n + 1 ∧ IsNumbered (n + 1) second := by
  rw [IsNumbered, List.length_cons, List.range'_succ] at h
  exact List.cons.inj h

theorem append (h : IsNumbered n (first ++ second)) :
    IsNumbered n first ∧ IsNumbered (n + first.length) second := by
  induction first generalizing n with
  | nil => exact ⟨rfl, h⟩
  | cons number first ih =>
    obtain ⟨rfl, hrest⟩ := h.cons
    obtain ⟨hfirst, hsecond⟩ := ih hrest
    refine ⟨congrArg (List.cons (n + 1)) hfirst, ?_⟩
    rwa [List.length_cons, Nat.add_comm first.length, ← Nat.add_assoc]

end IsNumbered

namespace Node

/-- What the tokens of a normal tree are a part of a pattern as. -/
def part : Node → Nonterminal
  | concat _ => .sequence
  | alternation _ => .alternation
  | repetition .. => .item
  | _ => .base

/-- The nodes that the part stands for. -/
def parts : Node → List Node
  | concat items => items
  | alternation branches => branches
  | node => [node]

end Node

namespace Regex
namespace Derives

variable {n k : Nat} {tokens : List Token} {node : Node}

theorem item_of_part (h : Derives node.part n tokens node.parts k) (hitem : node.isItem = true) :
    Derives .item n tokens [node] k := by
  cases node with
  | concat => cases hitem
  | alternation => cases hitem
  | repetition => exact h
  | _ => exact bare h

theorem base_of_part (h : Derives node.part n tokens node.parts k) (hitem : node.isItem = true)
    (hrepeatable : node.isRepeatable = true) : Derives .base n tokens [node] k := by
  cases node with
  | concat => cases hitem
  | alternation => cases hitem
  | repetition => cases hrepeatable
  | _ => exact h

theorem sequence_of_part (h : Derives node.part n tokens node.parts k)
    (hnormal : node.isNormal = true) (hbranch : node.isAlternation = false) :
    ∃ items, sequenceNode items = node ∧ Derives .sequence n tokens items k := by
  have hone : node.isItem = true →
      ∃ items, sequenceNode items = node ∧ Derives .sequence n tokens items k := by
    intro hitem
    have hitems := items (h.item_of_part hitem) (empty k)
    rw [List.append_nil] at hitems
    exact ⟨[node], rfl, hitems⟩
  cases node with
  | concat items =>
    simp only [Node.isNormal, Bool.and_eq_true, bne_iff_ne] at hnormal
    exact ⟨items, sequenceNode_of_length_ne hnormal.1.1, h⟩
  | alternation => cases hbranch
  | _ => exact hone rfl

theorem alternation_of_part (h : Derives node.part n tokens node.parts k)
    (hnormal : node.isNormal = true) :
    ∃ branches, alternationNode branches = node ∧ Derives .alternation n tokens branches k := by
  have hone : node.isAlternation = false →
      ∃ branches, alternationNode branches = node ∧ Derives .alternation n tokens branches k := by
    intro hbranch
    obtain ⟨items, hitems, hsequence⟩ := h.sequence_of_part hnormal hbranch
    exact ⟨[sequenceNode items], hitems, branch hsequence⟩
  cases node with
  | alternation branches =>
    simp only [Node.isNormal, Bool.and_eq_true, decide_eq_true_eq] at hnormal
    have hmany : branches.length ≠ 1 := by omega
    exact ⟨branches, alternationNode_of_length_ne hmany, h⟩
  | _ => exact hone rfl

theorem group_of_part {inner : Node} (kind : GroupKind)
    (h : Derives inner.part (n + (Opening.ofKind n kind).captures) tokens inner.parts k)
    (hnormal : inner.isNormal = true) :
    Derives .base n (.groupOpen kind :: (tokens ++ [.groupClose]))
      [(Opening.ofKind n kind).node inner] k := by
  obtain ⟨branches, hnode, hbranches⟩ := h.alternation_of_part hnormal
  have hgroup := group kind hbranches
  rwa [hnode] at hgroup

end Derives

section Classes

theorem startsRange_items (items : List ClassItem) :
    startsRange (items.flatMap ClassItem.tokens) = false := by
  match items with
  | [] => rfl
  | .single _ :: _ => rfl
  | .range _ _ :: _ => rfl

theorem members_items {items : List ClassItem} (h : ∀ item ∈ items, item.isNormal = true)
    (before : CharClass) : Members before (items.flatMap ClassItem.tokens)
      { before with items := before.items ++ items } := by
  induction items generalizing before with
  | nil =>
    have hitems : before.items ++ ([] : List ClassItem) = before.items := Array.appendList_nil
    rw [hitems]
    exact .done before
  | cons item items ih =>
    obtain ⟨hitem, hitems⟩ := List.forall_mem_cons.mp h
    rw [Array.appendList_cons]
    rcases item.isNormal_cases hitem with ⟨c, rfl⟩ | ⟨c, d, rfl, hle⟩
    · exact .char (congrArg some (Char.ofNat_toNat c)) (startsRange_items items)
        (ih hitems (before.addChar c))
    · have hrange : before.addRange c d =
          .ok { before with items := before.items.push (.range c.toNat d.toNat) } := if_pos hle
      exact .range (congrArg some (Char.ofNat_toNat c)) (congrArg some (Char.ofNat_toNat d)) hrange
        (ih hitems _)

theorem isClass_tokens {set : CharClass} (h : set.isNormal = true) : IsClass set.tokens set := by
  obtain ⟨items, negated, hasGaps⟩ := set
  simp only [CharClass.isNormal, Bool.and_eq_true, Bool.not_eq_true',
    Array.all_eq_true_iff_forall_mem] at h
  obtain ⟨rfl, hnormal⟩ := h
  have hitems : ∀ item ∈ items.toList, item.isNormal = true :=
    fun item hitem => hnormal item (Array.mem_toList_iff.mp hitem)
  have hmembers := members_items hitems .empty
  have hall : CharClass.empty.items ++ items.toList = items := by simp [CharClass.empty]
  rw [hall] at hmembers
  cases negated with
  | false => exact .plain hmembers
  | true => exact .inverted hmembers

end Classes

theorem isQuantifier_tokens {quantifier : Quantifier} (h : quantifier.isNormal = true) :
    IsQuantifier quantifier.tokens quantifier := by
  obtain ⟨min, max, greedy⟩ := quantifier
  simp only [Quantifier.isNormal, Bool.and_eq_true] at h
  have hbounds : IsBounds (.braces min max) ⟨min, max, true⟩ := .braces h.1.1
  cases greedy with
  | false => exact .lazy hbounds
  | true => exact .greedy hbounds

section Trees

mutual

/-- The tokens of a normal tree derive it where its captures are the next ones. -/
theorem derives_tokens : ∀ (node : Node) {n : Nat}, node.isNormal = true →
    IsNumbered n node.captures →
    Derives node.part n node.tokens node.parts (n + node.captures.length)
  | .literal c, _, _, _ => .leaf (.escaped c)
  | .charClass _, _, h, _ => .charClass (isClass_tokens h)
  | .anyChar, _, _, _ => .leaf .any
  | .anchor .start, _, _, _ => .leaf .caret
  | .anchor .finish, _, _, _ => .leaf .dollar
  | .anchor .wordBoundary, _, _, _ => .leaf .wordBoundary
  | .anchor .nonWordBoundary, _, _, _ => .leaf .nonWordBoundary
  | .look kind inner, _, h, hnumbers =>
    .group_of_part (.look kind) (derives_tokens inner h hnumbers) h
  | .group none inner, _, h, hnumbers =>
    .group_of_part .nonCapture (derives_tokens inner h hnumbers) h
  | .group (some number) inner, n, h, hnumbers => by
    obtain ⟨rfl, hinner⟩ := IsNumbered.cons hnumbers
    have hgroup := Derives.group_of_part .capture (derives_tokens inner h hinner) h
    rw [Nat.add_right_comm] at hgroup
    exact hgroup
  | .concat items, _, h, hnumbers => by
    simp only [Node.isNormal, Bool.and_eq_true, List.all_eq_true] at h
    exact derives_tokensAll items h.1.2 h.2 hnumbers
  | .alternation branches, _, h, hnumbers => by
    simp only [Node.isNormal, Bool.and_eq_true, decide_eq_true_eq, Bool.not_eq_true',
      List.any_eq_false, Bool.not_eq_true] at h
    have hne : branches ≠ [] := by
      rintro rfl
      cases h.1.1
    exact derives_tokensBranches branches hne h.1.2 h.2 hnumbers
  | .repetition _ inner, _, h, hnumbers => by
    simp only [Node.isNormal, Bool.and_eq_true] at h
    have hbase := (derives_tokens inner h.2 hnumbers).base_of_part h.1.1.2 h.1.2
    exact .repeated hbase h.1.2 (isQuantifier_tokens h.1.1.1)
  | .backreference number, _, _, _ => .leaf (.backreference number)

theorem derives_tokensAll : ∀ (items : List Node) {n : Nat}, (∀ item ∈ items, item.isItem = true) →
    Node.allNormal items = true → IsNumbered n (Node.capturesAll items) →
    Derives .sequence n (Node.tokensAll items) items (n + (Node.capturesAll items).length)
  | [], n, _, _, _ => .empty n
  | item :: items, n, hitems, h, hnumbers => by
    rw [Node.allNormal, Bool.and_eq_true] at h
    obtain ⟨hfirst, hothers⟩ := IsNumbered.append hnumbers
    have hitem := (derives_tokens item h.1 hfirst).item_of_part (hitems item List.mem_cons_self)
    have hrest := derives_tokensAll items (fun other hother => hitems other (.tail _ hother)) h.2
      hothers
    have hall := Derives.items hitem hrest
    rwa [Nat.add_assoc, ← List.length_append] at hall

theorem derives_tokensBranches : ∀ (branches : List Node) {n : Nat}, branches ≠ [] →
    (∀ branch ∈ branches, branch.isAlternation = false) → Node.allNormal branches = true →
    IsNumbered n (Node.capturesAll branches) →
    Derives .alternation n (Node.tokensBranches branches) branches
      (n + (Node.capturesAll branches).length)
  | [], _, hne, _, _, _ => absurd rfl hne
  | [branch], n, _, hbranches, h, hnumbers => by
    rw [Node.allNormal, Bool.and_eq_true] at h
    obtain ⟨hfirst, -⟩ := IsNumbered.append hnumbers
    obtain ⟨items, rfl, hsequence⟩ := (derives_tokens branch h.1 hfirst).sequence_of_part h.1
      (hbranches branch List.mem_cons_self)
    rw [Node.capturesAll, Node.capturesAll, List.append_nil]
    exact .branch hsequence
  | branch :: second :: branches, n, _, hbranches, h, hnumbers => by
    rw [Node.allNormal, Bool.and_eq_true] at h
    obtain ⟨hfirst, hothers⟩ := IsNumbered.append hnumbers
    obtain ⟨items, hnode, hsequence⟩ := (derives_tokens branch h.1 hfirst).sequence_of_part h.1
      (hbranches branch List.mem_cons_self)
    have hrest := derives_tokensBranches (second :: branches) nofun
      (fun other hother => hbranches other (.tail _ hother)) h.2 hothers
    have hall := Derives.branches hsequence hrest
    rwa [hnode, Nat.add_assoc, ← List.length_append] at hall

end

end Trees

section Texts

variable {root : Node}

theorem derivesTree_tokens (h : root.IsNormalRoot) : DerivesTree root.tokens root := by
  have hnumbers : IsNumbered 0 root.captures := h.captures_eq
  obtain ⟨branches, hroot, hbranches⟩ :=
    (derives_tokens root h.isNormal hnumbers).alternation_of_part h.isNormal
  exact ⟨branches, _, hbranches, hroot⟩

theorem captureOpenings_tokens (h : root.IsNormalRoot) :
    captureOpenings root.tokens = root.captures.length := by
  have hnumbers : IsNumbered 0 root.captures := h.captures_eq
  have hcount := (derives_tokens root h.isNormal hnumbers).numbers.after_eq
  omega

theorem exists_yields_written (h : root.IsNormalRoot) (survey : GroupSurvey)
    (hcount : root.captures.length ≤ survey.count) : ∃ placed : List PlacedToken,
      placed.map PlacedToken.token = root.tokens ∧
        Lexer.Yields { survey, source := .ofString (String.ofList root.written) } placed none := by
  have hrefers : ∀ number ∈ root.references, 1 ≤ number ∧ number ≤ survey.count := by
    intro number hnumber
    have hwithin := h.references_within number hnumber
    exact ⟨hwithin.1, Nat.le_trans hwithin.2 hcount⟩
  obtain ⟨placed, htokens, hyields⟩ := (spells_written root h.isNormal hrefers).lexes 0
  refine ⟨placed, htokens, ?_⟩
  rwa [Source.ofString, String.toList_ofList]

/-- The survey counts the captures of the tree, since it counts what is opened for a lexer that is
told their number. -/
theorem count_ofText_written (h : root.IsNormalRoot) :
    (GroupSurvey.ofText root.written).count = root.captures.length := by
  -- The survey of the text cannot be used here: its count is what is to be shown.
  let survey : GroupSurvey := ⟨root.captures.length, #[]⟩
  have hsurvey : survey.Numbered := by simp [GroupSurvey.Numbered, survey]
  obtain ⟨placed, htokens, hyields⟩ := exists_yields_written h survey (Nat.le_refl _)
  have hcount := hyields.count_ofText hsurvey
  rwa [String.toList_ofList, htokens, captureOpenings_tokens h] at hcount

theorem lex_written (h : root.IsNormalRoot) :
    (lex (String.ofList root.written)).tokens.map PlacedToken.token = root.tokens ∧
      (lex (String.ofList root.written)).mistake = none := by
  have hcount := count_ofText_written h
  obtain ⟨placed, htokens, hyields⟩ :=
    exists_yields_written h (.ofText root.written) (Nat.le_of_eq hcount.symm)
  have hlex := yields_lex (String.ofList root.written)
  rw [Lexer.ofString, String.toList_ofList] at hlex
  obtain ⟨hplaced, hmistake⟩ := hlex.unique hyields
  exact ⟨hplaced ▸ htokens, hmistake⟩

theorem parse_written (h : root.IsNormalRoot) : parse (String.ofList root.written) = .ok root := by
  obtain ⟨htokens, hmistake⟩ := lex_written h
  exact parse_of_derivesTree hmistake (htokens ▸ derivesTree_tokens h)

end Texts

end Regex

namespace Pattern

/-- A normal tree that is written as text is read back as it was, with all its captures. -/
theorem ofSource?_written {root : Node} (h : root.IsNormalRoot) (flags : Flags) :
    ∃ pattern, ofSource? (.regex (String.ofList root.written)) flags = .ok pattern ∧
      pattern.root = root ∧ pattern.flags = flags ∧
        pattern.captureCount = root.captures.length := by
  have hread : ∃ pattern, ofSource? (.regex (String.ofList root.written)) flags = .ok pattern ∧
      pattern.root = root ∧ pattern.flags = flags := ofSource?_regex_iff.mpr (parse_written h)
  obtain ⟨pattern, hpattern, rfl, hflags⟩ := hread
  exact ⟨pattern, hpattern, rfl, hflags, pattern.isRoot.lastCapture_eq⟩

/-- A repeated class in a capture, which is referred to, or nothing. -/
theorem ofSource?_written_of_repeated_class :
    let set : CharClass := ⟨#[.range 0x61 0x7A, .single 0x2D], true, false⟩
    let capture : Node := .group (some 1) (.repetition ⟨2, some 3, false⟩ (.charClass set))
    let root : Node := .alternation [.concat [capture, .backreference 1], .concat []]
    root.IsNormalRoot ∧
      root.written = "([^\\u\x7b61\x7d-\\u\x7b7a\x7d\\u\x7b2d\x7d]\x7b2,3\x7d?)\\1|".toList ∧
      ∃ pattern, ofSource? (.regex (String.ofList root.written)) {} = .ok pattern ∧
        pattern.root = root ∧ pattern.flags = {} ∧ pattern.captureCount = 1 := by
  intro set capture root
  have hnormal : root.IsNormalRoot := by decide +kernel
  exact ⟨hnormal, by decide +kernel, ofSource?_written hnormal {}⟩

end Pattern
end TokenPatterns
