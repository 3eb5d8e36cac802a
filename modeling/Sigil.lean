import Sigil.CommandLine
import Sigil.Main
import Sigil.Proofs.Hoisting
import Sigil.Proofs.Validity
import Sigil.Text.Cursor
import Sigil.Proofs.Frame
import Sigil.Proofs.Limit
import Sigil.Proofs.Termination
import Sigil.Proofs.Inlining
import Sigil.Proofs.Automaton
import Sigil.Proofs.Blame
import Sigil.Proofs.Restoring
import Sigil.Proofs.Renaming
import Sigil.Proofs.Joining
import Sigil.Proofs.Printing
import Sigil.Proofs.Reporting
import Sigil.Proofs.Lifetime
import Sigil.Proofs.Dumping
import Sigil.Proofs.Streaming
import Sigil.Proofs.Capacity
import Sigil.Proofs.Depth
import Sigil.Proofs.Looping
import Sigil.Proofs.Unread
import Sigil.Proofs.Positions
import Sigil.Proofs.Brackets
import Sigil.Proofs.Failing
import Sigil.Proofs.Lines
import Sigil.Proofs.Copying
import Sigil.Proofs.Decoding
import Sigil.Proofs.Literals
import Sigil.Proofs.Exactness
import Sigil.Proofs.Shuffling
import Sigil.Proofs.Pulling
import Sigil.Proofs.Unreachable
import Sigil.Proofs.Rendering
import Sigil.Proofs.Numbering
import Sigil.Proofs.Scanning
import Sigil.Proofs.Variables
