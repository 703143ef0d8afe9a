import DocPath.Main
import DocPath.Node.Compare
import DocPath.Typed.Person
import DocPath.Proofs.Path.Apart
import DocPath.Proofs.Path.Canonical
import DocPath.Proofs.Write.Fill
import DocPath.Proofs.Write.Frame
import DocPath.Proofs.Write.Failure
import DocPath.Proofs.Write.Sequence
import DocPath.Proofs.Write.Commute
import DocPath.Proofs.Document.Everywhere
import DocPath.Proofs.Document.Alike
import DocPath.Proofs.Flat.Leaves
import DocPath.Proofs.Flat.Build
import DocPath.Proofs.Flat.Order
import DocPath.Proofs.Flat.Pruned
import DocPath.Proofs.Flat.Compacted
import DocPath.Proofs.Flat.Copy
import DocPath.Proofs.Flat.Holding
import DocPath.Proofs.Flat.Dropped
import DocPath.Proofs.Flat.Renumbered
import DocPath.Proofs.Flat.Listing
import DocPath.Proofs.Document.Clean
import DocPath.Proofs.Flat.Updated
import DocPath.Proofs.Flat.Conflict
import DocPath.Proofs.Write.Obstructed
import DocPath.Proofs.Json.Lexemes
import DocPath.Proofs.Json.Reading
import DocPath.Proofs.Document.RoundTrip
import DocPath.Proofs.Document.Congruence
import DocPath.Proofs.Cli.Redirection
import DocPath.Proofs.Cli.Answer
import DocPath.Proofs.Cli.Effects
import DocPath.Proofs.Write.Nested
import DocPath.Proofs.Write.Overwrite
import DocPath.Proofs.Write.Bounded
import DocPath.Proofs.Path.Viable
import DocPath.Proofs.Path.Segments
import DocPath.Proofs.Document.Holes
import DocPath.Proofs.Document.Readers
import DocPath.Proofs.Document.Spaced
import DocPath.Proofs.Typed.Unordered
import DocPath.Proofs.Typed.Person
import DocPath.Proofs.Typed.Survival
