import DocModel.Main
import DocModel.Proofs.Display.RoundTrip
import DocModel.Proofs.Example.Lines
import DocModel.Proofs.Example.Written
import DocModel.Proofs.Library.Errors
import DocModel.Proofs.Library.Flags
import DocModel.Proofs.Library.Nesting
import DocModel.Proofs.Library.Reordering
import DocModel.TypeExpr.Data
import DocModel.Proofs.Name.Spelling
import DocModel.Proofs.Comment.Locality
import DocModel.Proofs.Grammar.BlankEnds
import DocModel.Proofs.Grammar.Braces
import DocModel.Proofs.Comment.BracedType
import DocModel.Proofs.Handler.Counts
import DocModel.Proofs.Example.Faults
import DocModel.Proofs.Library.Precedence
import DocModel.Proofs.Syntax.Parents
import DocModel.Proofs.Directive.Slashes
import DocModel.Proofs.Directive.Separation
import DocModel.Proofs.Directive.Scan
import DocModel.Proofs.Directive.Indentation
import DocModel.Proofs.Directive.Ownership
import DocModel.Proofs.Grammar.Wildcard
import DocModel.Proofs.Syntax.Climbing
import DocModel.Proofs.Syntax.ObjectLiterals
import DocModel.Proofs.Comment.Lookups
import DocModel.Proofs.Name.NormalForm
import DocModel.Proofs.Library.Elevation
import DocModel.Proofs.Library.ReferenceName
import DocModel.Proofs.Syntax.Indexing
import DocModel.Proofs.Example.Recognition
import DocModel.Proofs.Library.Refusals
import DocModel.Proofs.Markup.Escaping
import DocModel.Proofs.Directive.Continuation
import DocModel.Proofs.Example.LineBreaks
import DocModel.Proofs.Grammar.Progress
