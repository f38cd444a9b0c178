import TokenPatterns.Regex.Lexed
import TokenPatterns.Regex.Parser

/-!
# What the parser reads derives its tree

At every token the drafts hold what the grammar makes of the tokens that were read so far: the
innermost draft those since the last open parenthesis, and each open group those before it.
-/
namespace TokenPatterns
namespace Regex

section Classes

variable {set result : CharClass} {letter : Char} {token : Token}

theorem exists_addShorthand? (h : Shorthand.isLetter letter = true) (set : CharClass) :
    ∃ next, set.addShorthand? letter = some next := by
  obtain ⟨ranges, hranges⟩ := Option.isSome_iff_exists.mp h
  simp [CharClass.addShorthand?, hranges]

theorem bracketed_outside_tail {tokens : List Token}
    (h : bracketed .outside (token :: tokens) = true) (hopen : token ≠ .classOpen) :
    bracketed .outside tokens = true := by
  simp only [bracketed, Bool.and_eq_true] at h
  cases token <;> first | exact absurd rfl hopen | exact h.2

theorem bracketed_outside_append {marks tokens : List Token} (hopen : .classOpen ∉ marks)
    (h : bracketed .outside (marks ++ tokens) = true) : bracketed .outside tokens = true := by
  induction marks with
  | nil => exact h
  | cons mark marks ih =>
    simp only [List.mem_cons, not_or] at hopen
    exact ih hopen.2 (bracketed_outside_tail h (Ne.symm hopen.1))

theorem bracketed_after_open {tokens : List Token}
    (h : bracketed .outside (.classOpen :: tokens) = true) :
    bracketed .classStart tokens = true := by
  simp only [bracketed, Bool.and_eq_true] at h
  exact h.2

theorem bracketed_after_close {tokens : List Token}
    (h : bracketed .inClass (.classClose :: tokens) = true) :
    bracketed .outside tokens = true := by
  simp only [bracketed, Bool.and_eq_true] at h
  exact h.2

theorem bracketed_after_shorthand {tokens : List Token}
    (h : bracketed .inClass (.shorthand letter :: tokens) = true) :
    Shorthand.isLetter letter = true ∧ bracketed .inClass tokens = true := by
  simp only [bracketed, Bool.and_eq_true] at h
  exact h

theorem bracketed_after_char {tokens : List Token}
    (h : bracketed .inClass (token :: tokens) = true) (hclose : token ≠ .classClose)
    (hshorthand : ∀ letter, token ≠ .shorthand letter) :
    token.classChar? = some token.char ∧ bracketed .inClass tokens = true := by
  simp only [bracketed, Bool.and_eq_true] at h
  obtain ⟨hadmits, htokens⟩ := h
  cases token with
  | literal c => exact ⟨rfl, htokens⟩
  | escaped c => exact ⟨rfl, htokens⟩
  | minus => exact ⟨rfl, htokens⟩
  | classClose => exact absurd rfl hclose
  | shorthand letter => exact absurd rfl (hshorthand letter)
  | _ => cases hadmits

theorem bracketed_after_minus {tokens : List Token}
    (h : bracketed .inClass (.minus :: tokens) = true) : bracketed .inClass tokens = true :=
  (bracketed_after_char h nofun nofun).2

theorem classChar?_of_not_endsRange (h : ¬ token.endsRange = true) : token.classChar? = none := by
  cases token with
  | classClose => rfl
  | shorthand letter => rfl
  | _ => exact absurd rfl h

theorem startsRange_of_ne_minus {tokens : List Token} (h : token ≠ .minus) :
    startsRange (token :: tokens) = false := by
  cases token with
  | minus => exact absurd rfl h
  | _ => rfl

theorem members_of_readMembers {lexed : Lexed} {tokens rest : List PlacedToken}
    (h : readMembers lexed set tokens = .ok (result, rest))
    (hclass : bracketed .inClass (tokens.map PlacedToken.token) = true) :
    ∃ inner, tokens.map PlacedToken.token = inner ++ .classClose :: rest.map PlacedToken.token ∧
      Members set inner result ∧ bracketed .outside (rest.map PlacedToken.token) = true := by
  fun_induction readMembers lexed set tokens with
  | case1 => simp at h
  | case2 set pos after =>
    cases h
    exact ⟨[], rfl, .done _, bracketed_after_close hclass⟩
  | case3 set pos letter after ih =>
    obtain ⟨hletter, hafter⟩ := bracketed_after_shorthand hclass
    obtain ⟨next, hnext⟩ := exists_addShorthand? hletter set
    rw [hnext, Option.getD_some] at ih h
    obtain ⟨inner, hinner, hmembers, hrest⟩ := ih h hafter
    exact ⟨.shorthand letter :: inner, by simp [hinner], .shorthand hnext hmembers, hrest⟩
  | case4 => simp at h
  | case5 => simp at h
  | case6 set pos first minusPos lastPos last after hclose hshorthand hends next hrange ih =>
    obtain ⟨hfirst, hminus⟩ := bracketed_after_char hclass hclose hshorthand
    have hlast := bracketed_after_minus hminus
    obtain ⟨hlast, hafter⟩ := bracketed_after_char hlast
      (by rintro rfl; cases hends) (by rintro letter rfl; cases hends)
    obtain ⟨inner, hinner, hmembers, hrest⟩ := ih h hafter
    exact ⟨first :: .minus :: last :: inner, by simp [hinner],
      .range hfirst hlast hrange hmembers, hrest⟩
  | case7 set pos first minusPos lastPos last after hclose hshorthand hends ih =>
    obtain ⟨hfirst, hminus⟩ := bracketed_after_char hclass hclose hshorthand
    have hlast := bracketed_after_minus hminus
    obtain ⟨inner, hinner, hmembers, hrest⟩ := ih h hlast
    have hstart : startsRange (.minus :: inner) = false ∧ startsRange inner = false := by
      cases inner with
      | nil => exact ⟨rfl, rfl⟩
      | cons token inner =>
        simp only [List.map_cons, List.cons_append, List.cons.injEq] at hinner
        have hlast := classChar?_of_not_endsRange hends
        rw [← hinner.1]
        refine ⟨Option.isSome_eq_false_iff.mpr (Option.isNone_iff_eq_none.mpr hlast), ?_⟩
        apply startsRange_of_ne_minus
        rintro rfl
        cases hlast
    exact ⟨first :: .minus :: inner, by simpa using hinner,
      .char hfirst hstart.1 (.char rfl hstart.2 hmembers), hrest⟩
  | case8 set pos token after hclose hshorthand hlast hmore ih =>
    obtain ⟨hchar, hafter⟩ := bracketed_after_char hclass hclose hshorthand
    obtain ⟨inner, hinner, hmembers, hrest⟩ := ih h hafter
    have hstart : startsRange inner = false := by
      rcases inner with _ | ⟨other, inner⟩
      · rfl
      · rcases after with _ | ⟨⟨pos, second⟩, _ | ⟨third, more⟩⟩
        · cases hinner
        · simp at hinner
        · simp only [List.map_cons, List.cons_append, List.cons.injEq] at hinner
          have hsecond : second ≠ .minus :=
            fun h => hmore pos third.pos third.token more (by rw [h])
          rw [← hinner.1]
          exact startsRange_of_ne_minus hsecond
    exact ⟨token :: inner, by simp [hinner], .char hchar hstart hmembers, hrest⟩

theorem bracketed_inClass_of_classStart {tokens : List Token}
    (h : bracketed .classStart tokens = true) (hcaret : ∀ rest, tokens ≠ .caret :: rest) :
    bracketed .inClass tokens = true := by
  cases tokens with
  | nil => rfl
  | cons token tokens =>
    have hne : token ≠ .caret := fun heq => hcaret tokens (by rw [heq])
    cases token <;> first | exact absurd rfl hne | exact h

theorem isClass_of_readClass {lexed : Lexed} {tokens rest : List PlacedToken}
    (h : readClass lexed tokens = .ok (set, rest))
    (hclass : bracketed .classStart (tokens.map PlacedToken.token) = true) :
    ∃ inner, tokens.map PlacedToken.token = inner ++ .classClose :: rest.map PlacedToken.token ∧
      IsClass inner set ∧ bracketed .outside (rest.map PlacedToken.token) = true := by
  unfold readClass at h
  split at h
  · next pos after =>
    have hafter : bracketed .inClass (after.map PlacedToken.token) = true := by
      simp only [List.map_cons, bracketed, Bool.and_eq_true] at hclass
      exact hclass.2
    cases hmembers : readMembers lexed .empty after with
    | error mistake => simp [hmembers, Except.map] at h
    | ok result =>
      simp only [hmembers, Except.map, Except.ok.injEq, Prod.mk.injEq] at h
      obtain ⟨rfl, rfl⟩ := h
      obtain ⟨inner, hinner, hset, hrest⟩ := members_of_readMembers hmembers hafter
      exact ⟨.caret :: inner, by simp [hinner], .inverted hset, hrest⟩
  · next hcaret =>
    have hstart : bracketed .inClass (tokens.map PlacedToken.token) = true := by
      apply bracketed_inClass_of_classStart hclass
      intro rest heq
      obtain ⟨first, after, rfl, hfirst, -⟩ := List.map_eq_cons_iff.mp heq
      exact hcaret first.pos after (by rw [← hfirst])
    obtain ⟨inner, hinner, hset, hrest⟩ := members_of_readMembers h hstart
    exact ⟨inner, hinner, .plain hset, hrest⟩

end Classes

theorem sequenceNode_of_length_ne : ∀ {items : List Node}, items.length ≠ 1 →
    sequenceNode items = .concat items
  | [], _ => rfl
  | [_], h => absurd rfl h
  | _ :: _ :: _, _ => rfl

theorem alternationNode_of_length_ne : ∀ {branches : List Node}, branches.length ≠ 1 →
    alternationNode branches = .alternation branches
  | [], _ => rfl
  | [_], h => absurd rfl h
  | _ :: _ :: _, _ => rfl

namespace Derives

theorem snoc {k l : Nat} {last : List Token} {node : Node} : ∀ {n tokens nodes},
    Derives .sequence n tokens nodes k → Derives .item k last [node] l →
    Derives .sequence n (tokens ++ last) (nodes ++ [node]) l
  | _, _, _, empty _, hlast => by simpa using items hlast (empty _)
  | _, _, _, items hfirst hothers, hlast => by
    rw [List.append_assoc]
    exact items hfirst (snoc hothers hlast)

theorem split_last {n k : Nat} {node : Node} {nodes : List Node} {tokens : List Token}
    (h : Derives .sequence n tokens (nodes ++ [node]) k) : ∃ first last m,
    tokens = first ++ last ∧ Derives .sequence n first nodes m ∧ Derives .item m last [node] k := by
  induction nodes generalizing n tokens with
  | nil =>
    cases h with
    | items hitem hothers =>
      cases hothers
      exact ⟨[], _, n, List.append_nil _, .empty n, hitem⟩
  | cons head nodes ih =>
    cases h with
    | items hitem hothers =>
      obtain ⟨first, last, m, rfl, hfirst, hlast⟩ := ih hothers
      exact ⟨_, last, m, (List.append_assoc ..).symm, .items hitem hfirst, hlast⟩

theorem snoc_branch {k l : Nat} {last : List Token} {nodes : List Node} : ∀ {n tokens branches},
    Derives .alternation n tokens branches k → Derives .sequence k last nodes l →
    Derives .alternation n (tokens ++ .pipe :: last) (branches ++ [sequenceNode nodes]) l
  | _, _, _, branch hfirst, hlast => branches hfirst (branch hlast)
  | _, _, _, branches hfirst hothers, hlast => by
    rw [List.append_assoc]
    exact branches hfirst (snoc_branch hothers hlast)

theorem group {n k : Nat} {tokens : List Token} {branches : List Node} (kind : GroupKind)
    (h : Derives .alternation (n + (Opening.ofKind n kind).captures) tokens branches k) :
    Derives .base n (.groupOpen kind :: (tokens ++ [.groupClose]))
      [(Opening.ofKind n kind).node (alternationNode branches)] k := by
  cases kind with
  | capture => exact capture h
  | nonCapture => exact nonCapture h
  | look kind => exact look kind h

end Derives

namespace Draft

theorem branch_eq (draft : Draft) : draft.branch = sequenceNode draft.items.reverse := by
  unfold branch
  split
  · next heq => rw [heq]; rfl
  · next hone =>
    refine (sequenceNode_of_length_ne ?_).symm
    rw [List.length_reverse]
    intro hlength
    obtain ⟨item, hitem⟩ := List.length_eq_one_iff.mp hlength
    exact hone item hitem

theorem node_eq (draft : Draft) :
    draft.node = alternationNode (draft.branch :: draft.branches).reverse := by
  unfold node
  split
  · next heq => rw [heq]; rfl
  · next hmany =>
    refine (alternationNode_of_length_ne ?_).symm
    simpa using hmany

/-- The tokens that a draft was read from. -/
inductive Reads (n : Nat) : List Token → Draft → Nat → Prop
  | first {tokens items k} : Derives .sequence n tokens items.reverse k → Reads n tokens ⟨[], items⟩ k
  | next {tokens branches k others items l} : Derives .alternation n tokens branches.reverse k →
      Derives .sequence k others items.reverse l →
      Reads n (tokens ++ .pipe :: others) ⟨branches, items⟩ l

namespace Reads

variable {n k l : Nat} {draft : Draft} {tokens : List Token}

theorem empty (n : Nat) : Reads n [] {} n := first (.empty n)

theorem add {last : List Token} {node : Node} (h : draft.Reads n tokens k)
    (hlast : Derives .item k last [node] l) : (draft.add node).Reads n (tokens ++ last) l := by
  cases h with
  | first hitems =>
    apply first
    rw [List.reverse_cons]
    exact hitems.snoc hlast
  | next hbranches hitems =>
    rw [List.append_assoc]
    apply next hbranches
    rw [List.reverse_cons]
    exact hitems.snoc hlast

theorem finish (h : draft.Reads n tokens k) :
    Derives .alternation n tokens (draft.branch :: draft.branches).reverse k := by
  rw [draft.branch_eq, List.reverse_cons]
  cases h with
  | first hitems => exact .branch hitems
  | next hbranches hitems => exact hbranches.snoc_branch hitems

theorem nextBranch (h : draft.Reads n tokens k) :
    draft.nextBranch.Reads n (tokens ++ [.pipe]) k :=
  next h.finish (.empty k)

theorem split_last {items : List Node} {item : Node} (h : draft.Reads n tokens k)
    (hitems : draft.items = item :: items) : ∃ first last m, tokens = first ++ last ∧
      { draft with items := items }.Reads n first m ∧ Derives .item m last [item] k := by
  cases h with
  | first hsequence =>
    subst hitems
    rw [List.reverse_cons] at hsequence
    obtain ⟨first, last, m, rfl, hfirst, hlast⟩ := hsequence.split_last
    exact ⟨first, last, m, rfl, .first hfirst, hlast⟩
  | next hbranches hsequence =>
    subst hitems
    rw [List.reverse_cons] at hsequence
    obtain ⟨first, last, m, rfl, hfirst, hlast⟩ := hsequence.split_last
    exact ⟨_, last, m, by simp, .next hbranches hfirst, hlast⟩

end Reads
end Draft

theorem isBounds_of_quantifier? {token : Token} {quantifier : Quantifier}
    (h : token.quantifier? = some quantifier) (horder : quantifier.inOrder = true) :
    IsBounds token quantifier := by
  cases token with
  | star => cases h; exact .star
  | plus => cases h; exact .plus
  | question => cases h; exact .question
  | braces min max => cases h; exact .braces horder
  | _ => cases h

theorem isLeaf_of_node? {token : Token} {node : Node} (h : token.node? = some node) :
    IsLeaf token node := by
  cases token with
  | literal c => cases h; exact .literal c
  | escaped c => cases h; exact .escaped c
  | any => cases h; exact .any
  | shorthand letter =>
    obtain ⟨set, hset, rfl⟩ := Option.map_eq_some_iff.mp h
    exact .shorthand hset
  | caret => cases h; exact .caret
  | dollar => cases h; exact .dollar
  | wordBoundary => cases h; exact .wordBoundary
  | nonWordBoundary => cases h; exact .nonWordBoundary
  | backreference index => cases h; exact .backreference index
  | _ => cases h

theorem IsBounds.ne_classOpen {token : Token} {quantifier : Quantifier}
    (h : IsBounds token quantifier) : .classOpen ≠ token := by
  cases h <;> exact nofun

theorem IsQuantifier.not_mem {marks : List Token} {quantifier : Quantifier}
    (h : IsQuantifier marks quantifier) : .classOpen ∉ marks := by
  have hne : ∀ token ∈ marks, .classOpen ≠ token :=
    h.forall_tokens fun _ _ hbounds => hbounds.ne_classOpen
  exact fun hmem => hne _ hmem rfl

theorem isQuantifier_of_readLaziness {lexed : Lexed} {quantifier result : Quantifier}
    {token : Token} {tokens rest : List PlacedToken} (hbounds : IsBounds token quantifier)
    (h : readLaziness lexed quantifier tokens = .ok (result, rest)) : ∃ marks,
    token :: tokens.map PlacedToken.token = marks ++ rest.map PlacedToken.token ∧
      IsQuantifier marks result := by
  unfold readLaziness at h
  split at h
  · cases h
    exact ⟨[token, .question], rfl, .lazy hbounds⟩
  · split at h
    · cases h
    · cases h
      exact ⟨[token], rfl, .greedy hbounds⟩
  · cases h
    exact ⟨[token], rfl, .greedy hbounds⟩

theorem Draft.Reads.repeatLast {n k pos : Nat} {draft result : Draft} {before : List Token}
    {lexed : Lexed} {token : Token} {quantifier : Quantifier} {tokens rest : List PlacedToken}
    (h : draft.Reads n before k) (htoken : token.quantifier? = some quantifier)
    (hrepeat : draft.repeatLast pos lexed quantifier tokens = .ok (result, rest)) : ∃ marks,
    token :: tokens.map PlacedToken.token = marks ++ rest.map PlacedToken.token ∧
      .classOpen ∉ marks ∧ result.Reads n (before ++ marks) k := by
  unfold Draft.repeatLast at hrepeat
  split at hrepeat
  · cases hrepeat
  · next item items hitems =>
    split at hrepeat
    · next horder =>
      split at hrepeat
      · cases hrepeat
      · next lazy after hlazy =>
        split at hrepeat
        · next hrepeatable =>
          cases hrepeat
          obtain ⟨marks, hmarks, hquantifier⟩ :=
            isQuantifier_of_readLaziness (isBounds_of_quantifier? htoken horder) hlazy
          obtain ⟨first, last, m, rfl, hfirst, hlast⟩ := h.split_last hitems
          cases hlast with
          | bare hbase =>
            refine ⟨marks, hmarks, hquantifier.not_mem, ?_⟩
            rw [List.append_assoc]
            exact hfirst.add (.repeated hbase hrepeatable hquantifier)
          | repeated => cases hrepeatable
        · cases hrepeat
    · cases hrepeat

/-- The tokens that the open groups were read from, the last of them the one that opened the
innermost, and the captures that they opened. -/
inductive GroupsRead : List OpenGroup → List Token → Nat → Prop
  | none : GroupsRead [] [] 0
  | group {groups before draft tokens n k} (kind : GroupKind) : GroupsRead groups before n →
      draft.Reads n tokens k →
      GroupsRead (⟨Opening.ofKind k kind, draft⟩ :: groups) (before ++ tokens ++ [.groupOpen kind])
        (k + (Opening.ofKind k kind).captures)

theorem GroupsRead.close {n k : Nat} {group : OpenGroup} {groups : List OpenGroup} {draft : Draft}
    {before tokens : List Token} (h : GroupsRead (group :: groups) before n)
    (hdraft : draft.Reads n tokens k) : ∃ outer inner m, GroupsRead groups outer m ∧
      (group.before.add (group.opening.node draft.node)).Reads m inner k ∧
      outer ++ inner = before ++ tokens ++ [.groupClose] := by
  cases h with
  | @group _ outer _ inner m l kind houter hinner =>
    have hgroup := Derives.group kind hdraft.finish
    rw [← draft.node_eq] at hgroup
    exact ⟨outer, _, m, houter, hinner.add (.bare hgroup), by simp⟩

/-- What stands for a tree was read without a mistake up to its end. -/
theorem derivesTree_of_parseFrom {lexed : Lexed} {draft : Draft} {groups : List OpenGroup}
    {n captures : Nat} {before inner : List Token} {tokens : List PlacedToken} {tree : Node}
    (hgroups : GroupsRead groups before n) (hdraft : draft.Reads n inner captures)
    (houtside : bracketed .outside (tokens.map PlacedToken.token) = true)
    (h : parseFrom lexed draft groups captures tokens = .ok tree) :
    lexed.mistake = none ∧
      DerivesTree (before ++ inner ++ tokens.map PlacedToken.token) tree := by
  fun_induction parseFrom lexed draft groups captures tokens generalizing before n inner with
  | case1 => cases h
  | case2 draft captures hmistake =>
    cases h
    cases hgroups
    refine ⟨hmistake, _, captures, ?_, draft.node_eq.symm⟩
    simpa using hdraft.finish
  | case3 => cases h
  | case4 draft groups captures pos rest ih =>
    have hrest := ih hgroups hdraft.nextBranch (bracketed_outside_tail houtside nofun) h
    simpa using hrest
  | case5 draft groups captures pos rest kind =>
    rename_i ih
    have hrest := ih (.group kind hgroups hdraft) (.empty _)
      (bracketed_outside_tail houtside nofun) h
    simpa using hrest
  | case6 => cases h
  | case7 draft captures pos rest group groups ih =>
    obtain ⟨outer, last, m, houter, hlast, heq⟩ := hgroups.close hdraft
    have hrest := ih houter hlast (bracketed_outside_tail houtside nofun) h
    rw [heq] at hrest
    simpa using hrest
  | case8 => cases h
  | case9 draft groups captures pos rest set after hclass ih =>
    obtain ⟨members, hmembers, hset, hafter⟩ :=
      isClass_of_readClass hclass (bracketed_after_open houtside)
    have hrest := ih hgroups (hdraft.add (.bare (.charClass hset))) hafter h
    rw [List.map_cons, hmembers]
    simpa using hrest
  | case10 => cases h
  | case11 draft groups captures pos rest token _ _ _ hopen quantifier hquantifier result after
      hrepeat ih =>
    obtain ⟨marks, hmarks, houter, hresult⟩ := hdraft.repeatLast hquantifier hrepeat
    rw [List.map_cons, hmarks] at houtside ⊢
    have hrest := ih hgroups hresult (bracketed_outside_append houter houtside) h
    simpa using hrest
  | case12 draft groups captures pos rest token _ _ _ hopen _ node hnode ih =>
    have hrest := ih hgroups (hdraft.add (.bare (.leaf (isLeaf_of_node? hnode))))
      (bracketed_outside_tail houtside hopen) h
    simpa using hrest
  | case13 => cases h

/-- A tree that the parser returns is derived by all tokens of the text. -/
theorem derivesTree_of_parse {text : String} {tree : Node} (h : parse text = .ok tree) :
    (lex text).mistake = none ∧
      DerivesTree ((lex text).tokens.map PlacedToken.token) tree :=
  derivesTree_of_parseFrom .none (.empty 0) (bracketed_lex text) h

end Regex
end TokenPatterns
