import ResponseTypes.Generation
import ResponseTypes.Json.Writer
import ResponseTypes.Options.Interchange
import ResponseTypes.Proofs.Collection.Once
import ResponseTypes.Proofs.Collection.Following
import ResponseTypes.Proofs.Variant.Narrowing
import ResponseTypes.Proofs.Generation.Describing
import ResponseTypes.Proofs.Generation.Clashing
import ResponseTypes.Proofs.Generation.Failing
import ResponseTypes.Proofs.Generation.Referring
import ResponseTypes.Proofs.Generation.Discriminating
import ResponseTypes.Proofs.Compilation.Inserting
import ResponseTypes.Proofs.Generation.Ending
import ResponseTypes.Proofs.Generation.Sufficing
import ResponseTypes.Proofs.Generation.Accounting
import ResponseTypes.Proofs.Declaration.Confining
import ResponseTypes.Proofs.Collection.Reporting
import ResponseTypes.Proofs.Emission.Repeating
import ResponseTypes.Proofs.Compilation.Gathering
import ResponseTypes.Proofs.Generation.Reordering
import ResponseTypes.Proofs.Compilation.Accepting
import ResponseTypes.Proofs.Schema.Validating
import ResponseTypes.Proofs.Declaration.Displaying
import ResponseTypes.Proofs.Printer.Conserving
import ResponseTypes.Proofs.TypeRef.Spelling
import ResponseTypes.Proofs.TypeExpr.Reading
import ResponseTypes.Proofs.Emission.Framing
import ResponseTypes.Proofs.Name.Searching
import ResponseTypes.Proofs.Printer.Programs
import ResponseTypes.Proofs.Schema.Interchanging
