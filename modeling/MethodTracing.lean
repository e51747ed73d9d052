import MethodTracing.Main
import MethodTracing.Proofs.Weaving.Attempts
import MethodTracing.Proofs.Weaving.Relocation
import MethodTracing.Proofs.Weaving.Stripping
import MethodTracing.Proofs.Weaving.Usage
import MethodTracing.Proofs.Machine.Soundness
import MethodTracing.Proofs.Machine.Limits
import MethodTracing.Proofs.Machine.Locals
import MethodTracing.Proofs.Trace.NestedRuns
import MethodTracing.Proofs.Trace.Peaks
import MethodTracing.Proofs.Trace.Transparency
import MethodTracing.Proofs.Pipeline.SinglePass
import MethodTracing.Proofs.Pipeline.Rounds
import MethodTracing.Proofs.Pipeline.VerifiedOutput
import MethodTracing.Proofs.Document.Reloading
import MethodTracing.Proofs.Annotation.Spellings
import MethodTracing.Proofs.Assembly.Collecting
import MethodTracing.Proofs.CommandLine.Arguments
import MethodTracing.Proofs.CommandLine.Calls
