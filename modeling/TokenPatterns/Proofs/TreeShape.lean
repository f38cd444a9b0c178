import TokenPatterns.Pattern.Subtrees
import TokenPatterns.Proofs.Groups
import TokenPatterns.Regex.ClassSources
import TokenPatterns.Regex.Writing

/-!
# The shape of trees that are read

Sequences and alternations are flat and of more than one node, what is repeated may have a
quantifier behind it, and the items of classes are in order. That holds of each node on its own, so
it is carried from the parts of a derivation to the whole. So are the classes, with what each of
them is read from.
-/
namespace TokenPatterns
namespace Node

def class? : Node → Option CharClass
  | charClass set => some set
  | _ => none

/-- The classes in the tree, from left to right. -/
def classes (node : Node) : List CharClass := node.subtrees.filterMap class?

/-- Whether the node has the form in which it is read, whatever those within it are like. -/
def IsFormed : Node → Prop
  | alternation branches =>
    2 ≤ branches.length ∧ ∀ branch ∈ branches, branch.isAlternation = false
  | concat items => items.length ≠ 1 ∧ ∀ item ∈ items, item.isItem = true
  | repetition quantifier inner =>
    quantifier.inOrder = true ∧ inner.isItem = true ∧ inner.isRepeatable = true
  | charClass set => set.InOrder
  | _ => True

theorem isAlternation_of_isItem {node : Node} (h : node.isItem = true) :
    node.isAlternation = false := by
  cases node <;> first | rfl | cases h

theorem subtreesAll_append (first second : List Node) :
    subtreesAll (first ++ second) = subtreesAll first ++ subtreesAll second := by
  induction first with
  | nil => rfl
  | cons node nodes ih => rw [List.cons_append, subtreesAll, ih, subtreesAll, List.append_assoc]

theorem subtreesAll_singleton (node : Node) : subtreesAll [node] = node.subtrees :=
  List.append_nil _

end Node

namespace Regex

/-- Whether nodes can stand for such a part of a pattern. -/
def Nonterminal.Fits : Nonterminal → List Node → Prop
  | alternation, branches => branches ≠ [] ∧ ∀ branch ∈ branches, branch.isAlternation = false
  | _, nodes => ∀ node ∈ nodes, node.isItem = true

theorem isAlternation_sequenceNode {items : List Node} (h : ∀ item ∈ items, item.isItem = true) :
    (sequenceNode items).isAlternation = false := by
  unfold sequenceNode
  split
  · exact Node.isAlternation_of_isItem (h _ List.mem_cons_self)
  · rfl

theorem IsLeaf.isItem {token : Token} {node : Node} (h : IsLeaf token node) :
    node.isItem = true := by
  cases h <;> rfl

theorem Derives.fits {part : Nonterminal} {n k : Nat} {tokens : List Token} {nodes : List Node}
    (h : Derives part n tokens nodes k) : part.Fits nodes := by
  induction h with
  | leaf hleaf => exact List.forall_mem_singleton.mpr hleaf.isItem
  | charClass => exact List.forall_mem_singleton.mpr rfl
  | capture => exact List.forall_mem_singleton.mpr rfl
  | nonCapture => exact List.forall_mem_singleton.mpr rfl
  | look => exact List.forall_mem_singleton.mpr rfl
  | bare _ ih => exact ih
  | repeated => exact List.forall_mem_singleton.mpr rfl
  | empty => exact nofun
  | items _ _ ihfirst ihothers =>
    exact List.forall_mem_cons.mpr ⟨ihfirst _ List.mem_cons_self, ihothers⟩
  | branch _ ih =>
    exact ⟨nofun, List.forall_mem_singleton.mpr (isAlternation_sequenceNode ih)⟩
  | branches _ _ ihfirst ihothers =>
    exact ⟨nofun, List.forall_mem_cons.mpr ⟨isAlternation_sequenceNode ihfirst, ihothers.2⟩⟩

/-- The nodes and all within them have their form, and their classes are those of the tokens. -/
structure IsShaped (tokens : List Token) (nodes : List Node) : Prop where
  formed : ∀ part ∈ Node.subtreesAll nodes, part.IsFormed
  classes : HoldsClasses tokens ((Node.subtreesAll nodes).filterMap Node.class?)

namespace IsShaped

variable {tokens others : List Token} {node : Node} {nodes more branches : List Node}

theorem append (h : IsShaped tokens nodes) (hmore : IsShaped others more) :
    IsShaped (tokens ++ others) (nodes ++ more) := by
  constructor
  · rw [Node.subtreesAll_append]
    exact List.forall_mem_append.mpr ⟨h.formed, hmore.formed⟩
  · rw [Node.subtreesAll_append, List.filterMap_append]
    exact h.classes.append hmore.classes

theorem cons {token : Token} (htoken : token.beginsClass = false) (h : IsShaped tokens nodes) :
    IsShaped (token :: tokens) nodes :=
  ⟨h.formed, h.classes.cons htoken⟩

theorem followed (h : IsShaped tokens nodes)
    (hothers : ∀ token ∈ others, token.beginsClass = false) : IsShaped (tokens ++ others) nodes :=
  ⟨h.formed, h.classes.followed hothers⟩

/-- A node that holds the nodes and no more than that. -/
theorem holder (h : IsShaped tokens nodes)
    (hsubtrees : node.subtrees = node :: Node.subtreesAll nodes) (hclass : node.class? = none)
    (hformed : node.IsFormed) : IsShaped tokens [node] := by
  constructor
  · rw [Node.subtreesAll_singleton, hsubtrees]
    exact List.forall_mem_cons.mpr ⟨hformed, h.formed⟩
  · rw [Node.subtreesAll_singleton, hsubtrees, List.filterMap_cons_none hclass]
    exact h.classes

theorem wrapper {inner : Node} (h : IsShaped tokens [inner])
    (hsubtrees : node.subtrees = node :: inner.subtrees) (hclass : node.class? = none)
    (hformed : node.IsFormed) : IsShaped tokens [node] := by
  rw [← Node.subtreesAll_singleton inner] at hsubtrees
  exact h.holder hsubtrees hclass hformed

theorem sequenceNode (h : IsShaped tokens nodes) (hitems : ∀ node ∈ nodes, node.isItem = true) :
    IsShaped tokens [sequenceNode nodes] := by
  by_cases hlength : nodes.length = 1
  · obtain ⟨node, rfl⟩ := List.length_eq_one_iff.mp hlength
    exact h
  · rw [sequenceNode_of_length_ne hlength]
    exact h.holder rfl rfl ⟨hlength, hitems⟩

theorem alternationNode (h : IsShaped tokens branches)
    (hfits : Nonterminal.alternation.Fits branches) :
    IsShaped tokens [alternationNode branches] := by
  obtain ⟨hne, hbranches⟩ := hfits
  by_cases hlength : branches.length = 1
  · obtain ⟨branch, rfl⟩ := List.length_eq_one_iff.mp hlength
    exact h
  · have hpos := List.length_pos_iff.mpr hne
    rw [alternationNode_of_length_ne hlength]
    exact h.holder rfl rfl ⟨by omega, hbranches⟩

theorem enclosed (h : IsShaped tokens branches) (hfits : Nonterminal.alternation.Fits branches)
    (kind : GroupKind) (opening : Opening) :
    IsShaped (.groupOpen kind :: (tokens ++ [.groupClose]))
      [opening.node (Regex.alternationNode branches)] := by
  have hinner : IsShaped (.groupOpen kind :: (tokens ++ [.groupClose]))
      [Regex.alternationNode branches] :=
    cons rfl ((h.alternationNode hfits).followed (List.forall_mem_singleton.mpr rfl))
  cases opening with
  | group => exact hinner.wrapper rfl rfl trivial
  | look => exact hinner.wrapper rfl rfl trivial

theorem of_isLeaf {token : Token} (h : IsLeaf token node) : IsShaped [token] [node] := by
  cases h with
  | shorthand hset =>
    exact ⟨List.forall_mem_singleton.mpr (.shorthand? hset), .shorthand hset⟩
  | _ =>
    exact ⟨List.forall_mem_singleton.mpr trivial,
      .of_not_beginsClass (List.forall_mem_singleton.mpr rfl)⟩

end IsShaped

theorem IsQuantifier.not_beginsClass {marks : List Token} {quantifier : Quantifier}
    (h : IsQuantifier marks quantifier) : ∀ token ∈ marks, token.beginsClass = false :=
  h.forall_tokens fun token bounds hbounds => by cases hbounds <;> rfl

/-- The parts of a derivation are shaped, from the tokens up to the whole. -/
theorem Derives.isShaped {part : Nonterminal} {n k : Nat} {tokens : List Token}
    {nodes : List Node} (h : Derives part n tokens nodes k) : IsShaped tokens nodes := by
  -- What stands inside is shaped by induction. That it may stand there is known from `fits`.
  induction h with
  | leaf hleaf => exact .of_isLeaf hleaf
  | charClass hclass =>
    exact ⟨List.forall_mem_singleton.mpr hclass.inOrder, .brackets hclass⟩
  | @capture n _ _ _ hinner ih => exact ih.enclosed hinner.fits .capture (.group (some (n + 1)))
  | nonCapture hinner ih => exact ih.enclosed hinner.fits .nonCapture (.group none)
  | look kind hinner ih => exact ih.enclosed hinner.fits (.look kind) (.look kind)
  | bare _ ih => exact ih
  | @repeated _ _ _ _ node quantifier hbase hrepeatable hmarks ih =>
    have hformed : (Node.repetition quantifier node).IsFormed :=
      ⟨hmarks.inOrder, hbase.fits _ List.mem_cons_self, hrepeatable⟩
    exact (ih.wrapper rfl rfl hformed).followed hmarks.not_beginsClass
  | empty => exact ⟨nofun, .of_not_beginsClass nofun⟩
  | items _ _ ihfirst ihothers => exact ihfirst.append ihothers
  | branch hsequence ih => exact ih.sequenceNode hsequence.fits
  | branches hfirst _ ihfirst ihothers =>
    exact (ihfirst.sequenceNode hfirst.fits).append (.cons rfl ihothers)

end Regex

namespace Pattern

/-- Each node of a tree that is read has its form, and its classes stand in the order of what they
are read from. A class is unbounded if it is inverted or an inverted shorthand stands between its
brackets, and in no other case. -/
theorem isFormed_of_ofSource? {text : String} {flags : Flags} {pattern : Pattern}
    (h : ofSource? (.regex text) flags = .ok pattern) :
    (∀ node ∈ pattern.root.subtrees, node.IsFormed) ∧
      List.Forall₂ (fun source set => source.Denotes set ∧
          (set.isUnbounded = true ↔ set.negated = true ∨ source.holdsInverted = true))
        (Regex.ClassSource.ofTokens none ((Regex.lex text).tokens.map Regex.PlacedToken.token))
        pattern.root.classes := by
  obtain ⟨-, branches, count, hderives, hroot⟩ :=
    Regex.derivesTree_of_parse (parse_of_ofSource? h)
  have hshaped := hderives.isShaped.alternationNode hderives.fits
  rw [hroot] at hshaped
  obtain ⟨hformed, hclasses⟩ := hshaped
  rw [Node.subtreesAll_singleton] at hformed hclasses
  exact ⟨hformed, hclasses.forall₂_ofTokens.imp fun _ _ hset => ⟨hset, hset.isUnbounded_iff⟩⟩

/-- Classes between brackets, inverted or not, within a group, a lazy repetition and a lookahead. -/
theorem isFormed_of_bracketed_shorthands :
    let text := "(?:[^\\D-]*?|(?=[\\W])+)[\\w-]\\S"
    ∃ pattern, ofSource? (.regex text) {} = .ok pattern ∧
      ((∀ node ∈ pattern.root.subtrees, node.IsFormed) ∧
        List.Forall₂ (fun source set => source.Denotes set ∧
            (set.isUnbounded = true ↔ set.negated = true ∨ source.holdsInverted = true))
          (Regex.ClassSource.ofTokens none ((Regex.lex text).tokens.map Regex.PlacedToken.token))
          pattern.root.classes) ∧
      pattern.root.classes.map CharClass.isUnbounded = [true, true, false, true] := by
  intro text
  have hread : (ofSource? (.regex text) {}).toOption.map
      (fun pattern => pattern.root.classes.map CharClass.isUnbounded) =
        some [true, true, false, true] := by
    decide +kernel
  cases h : ofSource? (.regex text) {} with
  | error mistake => simp [h, Except.toOption] at hread
  | ok pattern =>
    simp only [h, Except.toOption, Option.map_some, Option.some.injEq] at hread
    exact ⟨pattern, rfl, isFormed_of_ofSource? h, hread⟩

end Pattern
end TokenPatterns
