import SqlFilter.Main
import SqlFilter.Proofs.Lexemes
import SqlFilter.Proofs.Grammar
import SqlFilter.Proofs.Emptiness
import SqlFilter.Proofs.Meaning
import SqlFilter.Proofs.Readings
import SqlFilter.Proofs.Binding
import SqlFilter.Proofs.AllowedFields
import SqlFilter.Proofs.Redaction
import SqlFilter.Proofs.Hiding
import SqlFilter.Proofs.Quotation
import SqlFilter.Proofs.Preorder
import SqlFilter.Proofs.KeyValues
import SqlFilter.Proofs.QuotedNames
import SqlFilter.Proofs.PageLimits
import SqlFilter.Proofs.Alternatives
import SqlFilter.Proofs.Rearranging
import SqlFilter.Proofs.RoundTrip
import SqlFilter.Proofs.Scanning
import SqlFilter.Proofs.Unfiltered
import SqlFilter.Proofs.Renumbering
import SqlFilter.Proofs.Pruning
import SqlFilter.Proofs.PrunedQueries
import SqlFilter.Proofs.Layers
import SqlFilter.Proofs.Depth
import SqlFilter.Proofs.Json.Brackets
import SqlFilter.Proofs.Stencils
import SqlFilter.Proofs.Nesting
import SqlFilter.Proofs.Histories
import SqlFilter.Proofs.SettledPaths
import SqlFilter.Proofs.TopLevel
import SqlFilter.Proofs.TermCounts
import SqlFilter.Proofs.Drafts
