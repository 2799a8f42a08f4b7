import XQuery.Main
import XQuery.Proofs.Command.Names
import XQuery.Proofs.Context.Calls
import XQuery.Proofs.Context.Scoping
import XQuery.Proofs.Error.Codes
import XQuery.Proofs.Lexer.Checkpoints
import XQuery.Proofs.Lexer.Comments
import XQuery.Proofs.Lexer.Independence
import XQuery.Proofs.Lexer.NestedDocumentation
import XQuery.Proofs.Lexer.NestingDepth
import XQuery.Proofs.Lexer.Refinement
import XQuery.Proofs.Lexer.Relexing
import XQuery.Proofs.Lexer.Segments
import XQuery.Proofs.Name.Equality
import XQuery.Proofs.Name.RoundTrip
import XQuery.Proofs.Name.Tokens
import XQuery.Proofs.Report.DocumentationFlags
import XQuery.Proofs.Report.Listings
import XQuery.Proofs.Text.Decoding
import XQuery.Proofs.Value.DurationText
import XQuery.Proofs.Value.References
import XQuery.Value.Literal
