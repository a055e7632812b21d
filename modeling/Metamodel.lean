import Metamodel.Attempt
import Metamodel.Binary.Basic
import Metamodel.Binary.Layout
import Metamodel.Binary.Rounding
import Metamodel.Binary.Shortest
import Metamodel.Command.Arguments
import Metamodel.Command.Files
import Metamodel.Command.Run
import Metamodel.Config.Basic
import Metamodel.Config.Form
import Metamodel.Config.Toml
import Metamodel.Declaration.Basic
import Metamodel.Declaration.Form
import Metamodel.Derivation.Default
import Metamodel.Derivation.Model
import Metamodel.Derivation.Naming
import Metamodel.Derivation.Overload
import Metamodel.Diagnostic
import Metamodel.Emitter
import Metamodel.Event
import Metamodel.Json.Basic
import Metamodel.Json.Decoder
import Metamodel.Json.Number
import Metamodel.Json.Printer
import Metamodel.Json.Reader
import Metamodel.Json.Token
import Metamodel.Literal
import Metamodel.Main
import Metamodel.Manifest
import Metamodel.Mark
import Metamodel.Model.Attribute
import Metamodel.Model.Basic
import Metamodel.Model.DefaultValue
import Metamodel.Model.Form
import Metamodel.Numeral
import Metamodel.Problems
import Metamodel.Proofs.Binary.Rounding
import Metamodel.Proofs.Command.Files
import Metamodel.Proofs.Command.Outcome
import Metamodel.Proofs.Command.Output
import Metamodel.Proofs.Config.Validity
import Metamodel.Proofs.Declaration.RoundTrip
import Metamodel.Proofs.Derivation.Default
import Metamodel.Proofs.Derivation.DefaultText
import Metamodel.Proofs.Event.Phases
import Metamodel.Proofs.Json.Numbers
import Metamodel.Proofs.Json.Reading
import Metamodel.Proofs.Json.Records
import Metamodel.Proofs.Json.Tokens
import Metamodel.Proofs.Literal.ReadBack
import Metamodel.Proofs.Literal.Spelling
import Metamodel.Proofs.Manifest.LimitedSpace
import Metamodel.Proofs.Manifest.RoundTrip
import Metamodel.Proofs.Manifest.Writing
import Metamodel.Proofs.Model.Attachment
import Metamodel.Proofs.Model.Attempts
import Metamodel.Proofs.Model.Fields
import Metamodel.Proofs.Model.Form
import Metamodel.Proofs.Model.Getters
import Metamodel.Proofs.Model.Overloads
import Metamodel.Proofs.Model.Respelling
import Metamodel.Proofs.Model.Synthesis
import Metamodel.Proofs.Naming.Origins
import Metamodel.Proofs.Naming.Shadowing
import Metamodel.Proofs.Registry.Index
import Metamodel.Proofs.Registry.Operations
import Metamodel.Proofs.Round.Accounting
import Metamodel.Proofs.Round.Clean
import Metamodel.Proofs.Round.Emission
import Metamodel.Proofs.Round.Internal
import Metamodel.Proofs.Round.Local
import Metamodel.Proofs.Round.Log
import Metamodel.Proofs.Round.Provenance
import Metamodel.Proofs.Round.Reordering
import Metamodel.Proofs.Round.Replay
import Metamodel.Proofs.Round.Scan
import Metamodel.Proofs.Round.Steps
import Metamodel.Proofs.Session.Rounds
import Metamodel.Proofs.Text.ByteOrder
import Metamodel.Proofs.Text.Trimming
import Metamodel.Proofs.TypeRef.Form
import Metamodel.Proofs.TypeRef.Parsing
import Metamodel.Proofs.TypeRef.QualifiedName
import Metamodel.Proofs.Writer.Limit
import Metamodel.Registry
import Metamodel.Rejection
import Metamodel.Round
import Metamodel.Rules.Component
import Metamodel.Rules.Member
import Metamodel.Session
import Metamodel.Text.Blank
import Metamodel.Text.Dotted
import Metamodel.Text.Upper
import Metamodel.TypeRef.Basic
import Metamodel.TypeRef.ClassRef
import Metamodel.TypeRef.Form
import Metamodel.TypeRef.Primitive
import Metamodel.Writer
