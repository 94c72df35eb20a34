import Elasto.Behaviour.Data
import Elasto.Behaviour.Decode
import Elasto.Behaviour.Description
import Elasto.Behaviour.Error
import Elasto.Behaviour.LocalData
import Elasto.Behaviour.Options
import Elasto.Behaviour.Property
import Elasto.Behaviour.Source
import Elasto.Behaviour.Types
import Elasto.Behaviour.Variable
import Elasto.Brick.Compile
import Elasto.Brick.Config
import Elasto.Brick.Declare
import Elasto.Brick.Degradation
import Elasto.Brick.Derivatives
import Elasto.Brick.Error
import Elasto.Brick.Hooks
import Elasto.Brick.Initialize
import Elasto.Brick.Jacobian
import Elasto.Brick.Names
import Elasto.Brick.Options
import Elasto.Brick.State
import Elasto.Cli
import Elasto.Code.Block
import Elasto.Code.Statement
import Elasto.Document.Node
import Elasto.Document.Scalar
import Elasto.Document.Yaml
import Elasto.Document.Yaml.Char
import Elasto.Document.Yaml.Token
import Elasto.Document.Yaml.Token.Block
import Elasto.Document.Yaml.Token.Plain
import Elasto.Document.Yaml.Token.Property
import Elasto.Document.Yaml.Token.Quoted
import Elasto.Document.Yaml.Token.Stream
import Elasto.Document.Yaml.Tree
import Elasto.Float64.Read
import Elasto.Float64.Shortest
import Elasto.Float64.Text
import Elasto.Float64.Word
import Elasto.Formula.Read
import Elasto.Formula.Token
import Elasto.Json.Numeral
import Elasto.Json.Read
import Elasto.Json.Value
import Elasto.Main
import Elasto.Mandel.Basic
import Elasto.Numeric.Check
import Elasto.Numeric.Lame
import Elasto.Session
import Elasto.Tensor.Build
import Elasto.Tensor.Deriv
import Elasto.Tensor.Error
import Elasto.Tensor.Eval
import Elasto.Tensor.Expr
import Elasto.Tensor.FiniteDiff
import Elasto.Tensor.Render
import Elasto.Tensor.Subst
import Elasto.Tensor.Symbols
import Elasto.Proofs.Mandel
import Elasto.Proofs.Except
import Elasto.Proofs.Exact
import Elasto.Proofs.Folding
import Elasto.Proofs.Substitution
import Elasto.Proofs.Lexing
import Elasto.Proofs.Grammar
import Elasto.Proofs.Calculus
import Elasto.Proofs.Derivative
import Elasto.Proofs.Gradient
import Elasto.Proofs.Workbench
import Elasto.Proofs.Edits
import Elasto.Proofs.Initialize
import Elasto.Proofs.Hooks
import Elasto.Proofs.Lifecycle
import Elasto.Proofs.Refusal
import Elasto.Proofs.Stress
import Elasto.Proofs.Stages
import Elasto.Proofs.Finalize
import Elasto.Proofs.IsotropicCalculus
import Elasto.Proofs.StressDerivatives
import Elasto.Proofs.OptionMaps
import Elasto.Proofs.EntryOrder
import Elasto.Proofs.ZeroDerivative
import Elasto.Proofs.HookFailure
import Elasto.Proofs.PositiveStiffness
import Elasto.Proofs.PropertyResolution
import Elasto.Proofs.NumberText
import Elasto.Proofs.RenderRoundTrip
import Elasto.Proofs.Termination
