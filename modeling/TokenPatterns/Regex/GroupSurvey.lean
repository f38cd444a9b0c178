import TokenPatterns.Unicode.Alphanumeric

/-!
# The groups of a whole pattern

Whether `\2` is a reference or an octal escape, and whether `\k` begins a named reference, hangs
on groups that may only open later in the text. So the opening parentheses of captures are
surveyed before the text is split into tokens.
-/
namespace TokenPatterns
namespace Regex

/-- The characters that the name of a group may hold. -/
def isNameChar (c : Char) : Bool := c == '_' || c == '$' || Unicode.isAlphanumeric c

structure GroupSurvey where
  /-- How many groups capture. -/
  count : Nat := 0
  /-- The names of groups with their numbers, in the order of the text. -/
  names : Array (List Char × Nat) := #[]
deriving DecidableEq

namespace GroupSurvey

/-- Counts the group that a parenthesis opens, given the text after the parenthesis. -/
def addOpening (survey : GroupSurvey) : List Char → GroupSurvey
  | '?' :: '<' :: '=' :: _ => survey
  | '?' :: '<' :: '!' :: _ => survey
  | '?' :: '<' :: rest =>
    ⟨survey.count + 1, survey.names.push (rest.takeWhile isNameChar, survey.count + 1)⟩
  | '?' :: _ => survey
  | _ => { survey with count := survey.count + 1 }

/-- Counts the groups that open in a text, given whether it starts inside a class. -/
def addText (survey : GroupSurvey) (inClass : Bool) : List Char → GroupSurvey
  | [] => survey
  | '\\' :: [] => survey
  | '\\' :: _ :: rest => survey.addText inClass rest
  | '[' :: rest => survey.addText true rest
  | ']' :: rest => survey.addText false rest
  | '(' :: rest =>
    if inClass then survey.addText inClass rest
    else (survey.addOpening rest).addText inClass rest
  | _ :: rest => survey.addText inClass rest

def ofText (text : List Char) : GroupSurvey := addText {} false text

/-- The number of the first group with the given name. -/
def indexOf? (survey : GroupSurvey) (name : List Char) : Option Nat :=
  (survey.names.find? (·.1 == name)).map Prod.snd

/-- How many groups have the given name. -/
def uses (survey : GroupSurvey) (name : List Char) : Nat :=
  survey.names.countP (·.1 == name)

end GroupSurvey
end Regex
end TokenPatterns
