import Forth.Main
import Forth.Proofs.CallChain
import Forth.Proofs.DepthGuard
import Forth.Proofs.Macros
import Forth.Proofs.Transcript
import Forth.Proofs.FullSink
import Forth.Proofs.Invocation
import Forth.Proofs.DispatchLog
import Forth.Proofs.Shutdown
import Forth.Proofs.Faults
import Forth.Proofs.Lockstep
import Forth.Proofs.Joining
import Forth.Proofs.FrameRule
import Forth.Proofs.RaisedLimit
import Forth.Proofs.StackHistory
import Forth.Proofs.ReportedValues
import Forth.Proofs.Reach
import Forth.Proofs.Decoding
import Forth.Proofs.ReportLines
import Forth.Proofs.Framing
import Forth.Proofs.Literals
import Forth.Proofs.Encoding
import Forth.Proofs.LineReader
import Forth.Proofs.Program
import Forth.Proofs.Validation
import Forth.Proofs.Answers
import Forth.Proofs.Splitting
import Forth.Proofs.StackEffects
import Forth.Proofs.Arithmetic
import Forth.Proofs.AbsoluteValue
import Forth.Proofs.Summaries
import Forth.Proofs.Definitions
import Forth.Proofs.Malformed
import Forth.Proofs.DistinctKeys
import Forth.Proofs.Reordering
import Forth.Proofs.Sections
import Forth.Proofs.Overlay
import Forth.Proofs.ListingLines
