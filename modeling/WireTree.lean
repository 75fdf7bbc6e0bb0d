import WireTree.Main
import WireTree.Schema.Shared
import WireTree.Proofs.Tiling
import WireTree.Proofs.RoundTrip
import WireTree.Proofs.Schemaless
import WireTree.Proofs.Locality
import WireTree.Proofs.Outline
import WireTree.Proofs.TypeSoundness
import WireTree.Proofs.Packing
import WireTree.Proofs.Checked.Message
import WireTree.Proofs.Entering
import WireTree.Proofs.Embedding
import WireTree.Proofs.Pruning
import WireTree.Proofs.Truncation
import WireTree.Proofs.Isolation
import WireTree.Proofs.Candidates
import WireTree.Proofs.Concatenation
import WireTree.Proofs.Extending
import WireTree.Proofs.Editing
import WireTree.Proofs.Reordering
import WireTree.Proofs.MethodPath
import WireTree.Proofs.Shortage
import WireTree.Proofs.Stepping
import WireTree.Proofs.Unbroken
import WireTree.Proofs.Groups
