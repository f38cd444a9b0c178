import TokenPatterns.Analysis.CodeList
import TokenPatterns.Analysis.LeadingCodes
import TokenPatterns.Analysis.Membership
import TokenPatterns.Analysis.PartwiseCodes
import TokenPatterns.CaseMapping
import TokenPatterns.CharClass
import TokenPatterns.CharClass.Edits
import TokenPatterns.CharClass.Order
import TokenPatterns.Dispatch.LeadingChars
import TokenPatterns.Dispatch.Listing
import TokenPatterns.Dispatch.Table
import TokenPatterns.Machine.Calls
import TokenPatterns.Machine.Control
import TokenPatterns.Machine.Frames
import TokenPatterns.Machine.Instr
import TokenPatterns.Machine.Iteration
import TokenPatterns.Machine.Nested
import TokenPatterns.Machine.Placement
import TokenPatterns.Machine.Registers
import TokenPatterns.Machine.Run
import TokenPatterns.Machine.Simulation
import TokenPatterns.Machine.Slots
import TokenPatterns.Machine.Step
import TokenPatterns.Pattern
import TokenPatterns.Pattern.Beginnings
import TokenPatterns.Pattern.Flags
import TokenPatterns.Pattern.Language
import TokenPatterns.Pattern.Leaves
import TokenPatterns.Pattern.Node
import TokenPatterns.Pattern.Quantifier
import TokenPatterns.Pattern.Subtrees
import TokenPatterns.Proofs.Bounds
import TokenPatterns.Proofs.Buckets
import TokenPatterns.Proofs.ClassLetters
import TokenPatterns.Proofs.Containment
import TokenPatterns.Proofs.Dispatching
import TokenPatterns.Proofs.EmptyMatches
import TokenPatterns.Proofs.FailedRuns
import TokenPatterns.Proofs.FirstHits
import TokenPatterns.Proofs.Groups
import TokenPatterns.Proofs.LeadingCodes
import TokenPatterns.Proofs.LeadingWords
import TokenPatterns.Proofs.LetterForms
import TokenPatterns.Proofs.LetterPairs
import TokenPatterns.Proofs.LexerCalls
import TokenPatterns.Proofs.LineBreaks
import TokenPatterns.Proofs.LookingAhead
import TokenPatterns.Proofs.Matching
import TokenPatterns.Proofs.NestingBound
import TokenPatterns.Proofs.Parsing
import TokenPatterns.Proofs.PartwiseCodes
import TokenPatterns.Proofs.PlainTexts
import TokenPatterns.Proofs.Positions
import TokenPatterns.Proofs.RegularMatching
import TokenPatterns.Proofs.Rereading
import TokenPatterns.Proofs.SeveralCandidates
import TokenPatterns.Proofs.SplitRepetitions
import TokenPatterns.Proofs.Termination
import TokenPatterns.Proofs.TextsAlike
import TokenPatterns.Proofs.Tokenizing
import TokenPatterns.Proofs.TreeShape
import TokenPatterns.Proofs.VariantPairs
import TokenPatterns.Regex.ClassSources
import TokenPatterns.Regex.Completeness
import TokenPatterns.Regex.Digits
import TokenPatterns.Regex.Error
import TokenPatterns.Regex.Escape
import TokenPatterns.Regex.Grammar
import TokenPatterns.Regex.GroupCount
import TokenPatterns.Regex.GroupSurvey
import TokenPatterns.Regex.Lexed
import TokenPatterns.Regex.Lexer
import TokenPatterns.Regex.Numeral
import TokenPatterns.Regex.Parser
import TokenPatterns.Regex.Protected
import TokenPatterns.Regex.Soundness
import TokenPatterns.Regex.Source
import TokenPatterns.Regex.Token
import TokenPatterns.Regex.TreeTokens
import TokenPatterns.Regex.WellFormed
import TokenPatterns.Regex.Words
import TokenPatterns.Regex.Writing
import TokenPatterns.Search.Bounded
import TokenPatterns.Search.Moved
import TokenPatterns.Search.Subject
import TokenPatterns.Search.Taken
import TokenPatterns.Search.Ways
import TokenPatterns.Text.Characters
import TokenPatterns.Text.Cursor
import TokenPatterns.Text.Placing
import TokenPatterns.Text.Quoted
import TokenPatterns.Tokenizer.Definition
import TokenPatterns.Tokenizer.Segment
import TokenPatterns.Tokenizer.Token
import TokenPatterns.Unicode.Alphanumeric
import TokenPatterns.Unicode.Bisection
import TokenPatterns.Unicode.CaseTable
import TokenPatterns.Unicode.CodeRanges
import TokenPatterns.Unicode.Extending
import TokenPatterns.Unicode.Ignorable
import TokenPatterns.Unicode.Lowercase
import TokenPatterns.Unicode.Printable
import TokenPatterns.Unicode.Scalar
import TokenPatterns.Unicode.Uppercase
import TokenPatterns.CharClass.Gaps
import TokenPatterns.Proofs.CodeGaps
import TokenPatterns.Proofs.BraceBounds
import TokenPatterns.Proofs.ClassUnions
import TokenPatterns.Proofs.NumericEscapes
