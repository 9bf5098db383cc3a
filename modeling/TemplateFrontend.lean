import TemplateFrontend.Main
import TemplateFrontend.Proofs.Answering
import TemplateFrontend.Proofs.Branching
import TemplateFrontend.Proofs.Ceilings
import TemplateFrontend.Proofs.Chaining
import TemplateFrontend.Proofs.Delimiters
import TemplateFrontend.Proofs.Derivations
import TemplateFrontend.Proofs.Diagnostics
import TemplateFrontend.Proofs.Dumping
import TemplateFrontend.Proofs.Gathering
import TemplateFrontend.Proofs.Logging
import TemplateFrontend.Proofs.Matching
import TemplateFrontend.Proofs.Munching
import TemplateFrontend.Proofs.Nesting
import TemplateFrontend.Proofs.Parsing
import TemplateFrontend.Proofs.Printing
import TemplateFrontend.Proofs.Programs
import TemplateFrontend.Proofs.Rebuilding
import TemplateFrontend.Proofs.Recording
import TemplateFrontend.Proofs.Recovering
import TemplateFrontend.Proofs.Respelling
import TemplateFrontend.Proofs.Restarting
import TemplateFrontend.Proofs.Resuming
import TemplateFrontend.Proofs.Shifting
import TemplateFrontend.Proofs.Subtrees
import TemplateFrontend.Proofs.Trimming
import TemplateFrontend.Proofs.Truncating
import TemplateFrontend.Proofs.Walking
