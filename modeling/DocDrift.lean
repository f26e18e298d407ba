import DocDrift.Main
import DocDrift.Proofs.Check.Diagnostics
import DocDrift.Proofs.Check.Leniency
import DocDrift.Proofs.Check.Verdicts
import DocDrift.Proofs.Command.Configuration
import DocDrift.Proofs.Command.ExitCode
import DocDrift.Proofs.Docstring.Indentation
import DocDrift.Proofs.Docstring.Windows
import DocDrift.Proofs.Files.Discovery
import DocDrift.Proofs.Generated.Compliance
import DocDrift.Proofs.Run.Containment
import DocDrift.Proofs.Signature.Bodies
import DocDrift.Proofs.Signature.Brackets
import DocDrift.Proofs.Signature.Cursor
import DocDrift.Proofs.Signature.Faults
import DocDrift.Proofs.Signature.Grammar
import DocDrift.Proofs.Signature.Layout
import DocDrift.Proofs.Signature.ParameterList
import DocDrift.Proofs.Signature.Passages
import DocDrift.Proofs.Source.Conversions
import DocDrift.Proofs.Strategy.Defaults
import DocDrift.Proofs.Strategy.Places
import DocDrift.Proofs.Strategy.Variadics
import DocDrift.Proofs.Token.Cursor
import DocDrift.Proofs.Token.Literals
