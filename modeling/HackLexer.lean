import HackLexer.Session
import HackLexer.Batch
import HackLexer.Main
import HackLexer.Proofs.LineNumbers
import HackLexer.Proofs.ByteAccounting
import HackLexer.Proofs.LiteralRefinement
import HackLexer.Proofs.ModeStack.Safety
import HackLexer.Proofs.Exhaustion
import HackLexer.Proofs.MarkupFlattening
import HackLexer.Proofs.Relexing
import HackLexer.Proofs.Concatenation
import HackLexer.Proofs.Grammar
import HackLexer.Proofs.Grammar.Matchers
import HackLexer.Proofs.Grammar.Scans
import HackLexer.Proofs.Grammar.Tokens
import HackLexer.Proofs.Blame
import HackLexer.Proofs.MarkupNesting
import HackLexer.Proofs.LayoutGaps.Separators
import HackLexer.Proofs.LayoutGaps.Steps
import HackLexer.Proofs.LayoutGaps.Fillings
import HackLexer.Proofs.LayoutGaps.Twins
import HackLexer.Proofs.LayoutGaps.Behind
import HackLexer.Proofs.LayoutGaps.Front
import HackLexer.Proofs.LayoutGaps
import HackLexer.Proofs.Decoding
import HackLexer.Proofs.LoadedSources
import HackLexer.Proofs.DumpLines
import HackLexer.Proofs.ClosingNames
import HackLexer.Proofs.HarvestedComments
import HackLexer.Proofs.StringDecoding
import HackLexer.Proofs.DocStringLines
import HackLexer.Proofs.Locations
import HackLexer.Proofs.UnknownTokens
import HackLexer.Proofs.Excerpts
import HackLexer.Proofs.LongestMatches
import HackLexer.Proofs.LongestMatches.Numbers
import HackLexer.Proofs.LongestMatches.Words
