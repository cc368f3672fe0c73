import AgentRules.Fixture
import AgentRules.Proofs.PrefixTree
import AgentRules.Proofs.Place
import AgentRules.Proofs.RouteIndex
import AgentRules.Proofs.Walk
import AgentRules.Proofs.MatchState
import AgentRules.Proofs.Numbering
import AgentRules.Proofs.Outline
import AgentRules.Proofs.Classification
import AgentRules.Proofs.Landing
import AgentRules.Proofs.Rule
import AgentRules.Proofs.RuleSet
import AgentRules.Proofs.Isolation
import AgentRules.Proofs.Building
import AgentRules.Proofs.Variables
import AgentRules.Proofs.Gate
import AgentRules.Proofs.Trace
import AgentRules.Proofs.Listeners
import AgentRules.Proofs.Owners
import AgentRules.Proofs.Repetition
import AgentRules.Proofs.Reuse
import AgentRules.Proofs.FiniteMap
import AgentRules.Proofs.PrefixShape
import AgentRules.Expr.WellFormed
import AgentRules.Expr.Grammar
import AgentRules.Proofs.Blank
import AgentRules.Proofs.Lexeme
import AgentRules.Proofs.RangeText
import AgentRules.Proofs.WellFormed
import AgentRules.Proofs.Grammar
import AgentRules.Proofs.Writing
import AgentRules.Proofs.Nesting
import AgentRules.Proofs.Compile
import AgentRules.Proofs.Offers
import AgentRules.Proofs.Trimming
import AgentRules.Proofs.Reach
import AgentRules.Proofs.Search
import AgentRules.Proofs.Exclusion
import AgentRules.Proofs.Segment
import AgentRules.Proofs.Nodes
import AgentRules.Proofs.Sharing
import AgentRules.Proofs.Quoted
import AgentRules.Proofs.Keys
import AgentRules.Proofs.Parts
import AgentRules.Proofs.Version
import AgentRules.Proofs.Words
import AgentRules.Proofs.Ranges
import AgentRules.Proofs.CursorReading
import AgentRules.Proofs.LetterForms
import AgentRules.Proofs.Brand
import AgentRules.Proofs.Case
import AgentRules.Proofs.Lookup
