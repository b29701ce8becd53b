import Overlay.Main
import Overlay.Proofs.Frozen
import Overlay.Proofs.Isolation
import Overlay.Proofs.OneShadow
import Overlay.Proofs.Forwarding
import Overlay.Proofs.Lineage
import Overlay.Proofs.Building
import Overlay.Proofs.Raising
import Overlay.Proofs.Registration
import Overlay.Proofs.Mirror
import Overlay.Proofs.Keeping
import Overlay.Proofs.Legibility
import Overlay.Proofs.Handling
import Overlay.Proofs.Evaluation
import Overlay.Proofs.WellFormed
import Overlay.Proofs.Renaming
import Overlay.Proofs.Ahead
import Overlay.Proofs.Twins
import Overlay.Proofs.Lockstep
import Overlay.Proofs.Failure
import Overlay.Proofs.Views
import Overlay.Proofs.Laziness
import Overlay.Proofs.Grammar
import Overlay.Proofs.Redaction
import Overlay.Proofs.Contents
import Overlay.Proofs.Editing
import Overlay.Proofs.Listing
import Overlay.Proofs.Instances
import Overlay.Proofs.Depth
import Overlay.Proofs.Invocation
import Overlay.Proofs.Rendering
import Overlay.Proofs.Bindings
import Overlay.Proofs.Identity
import Overlay.Proofs.Endings
import Overlay.Proofs.Options
import Overlay.Proofs.Warnings
import Overlay.Proofs.Tags
import Overlay.Proofs.History
import Overlay.Proofs.Nearest
import Overlay.Proofs.Wording
import Overlay.Proofs.Assembly
