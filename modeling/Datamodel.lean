import Datamodel.Archive
import Datamodel.Files.Tree
import Datamodel.Main
import Datamodel.Proofs.Document.Uniqueness
import Datamodel.Proofs.Replay.Failure
import Datamodel.Proofs.Replay.Outcome
import Datamodel.Proofs.Replay.Rebuilding
import Datamodel.Proofs.Validation
import Datamodel.Proofs.Json.Reading
import Datamodel.Proofs.Schema.Storage
import Datamodel.Proofs.Plan.Storage
import Datamodel.Proofs.Replay.Interruption
import Datamodel.Proofs.Document.Layout
import Datamodel.Proofs.Document.Reading
import Datamodel.Proofs.Document.Closure
import Datamodel.Proofs.Schema.Session
import Datamodel.Proofs.Replay.Interleaving
import Datamodel.Proofs.Files.Tree
import Datamodel.Proofs.Command.Generation
import Datamodel.Proofs.Archive.Refinement
import Datamodel.Proofs.Archive.History
import Datamodel.Proofs.Relation.Inference
import Datamodel.Proofs.Document.Pinning
import Datamodel.Proofs.Relation.Canonical
import Datamodel.Proofs.Document.Joining
import Datamodel.Proofs.Document.Degradation
import Datamodel.Proofs.Document.Passes
import Datamodel.Proofs.Document.Composition
import Datamodel.Proofs.Schema.Growth
import Datamodel.Proofs.Schema.Keying
import Datamodel.Proofs.Schema.PrimaryKey
import Datamodel.Proofs.Relation.LetterCase
import Datamodel.Proofs.Config.Expansion
import Datamodel.Proofs.Value.Rearrangement
import Datamodel.Proofs.Plan.Rearrangement
