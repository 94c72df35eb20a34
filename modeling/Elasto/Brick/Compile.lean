import Elasto.Brick.Hooks
import Elasto.Brick.Jacobian
import Elasto.Behaviour.Source

/-! # Compiling a stress potential

A behaviour is compiled by creating its stress potential, initializing it with the
options, running its hooks with a fresh local data structure and computing the stress
derivatives. The listing of a compiled behaviour is its generated code, its local data and
its stress derivatives. -/

namespace Elasto.Brick

open Elasto.Behaviour

structure Compiled where
  description : Description
  brick : Brick
  lds : LocalData
  derivatives : List DerivativeEntry

/-- Compiles the named stress potential with its options into a description. -/
def compile (d : Description) (potential : String) (options : DataMap) :
    Except BrickError Compiled := do
  let p ← Potential.create potential
  let work : Build Unit := do
    configure options
    modify fun w => { w with lds := {} }
    finalize
  let (r, w) := Build.run work { description := d, brick := Brick.new p }
  r
  let derivatives ← w.brick.stressDerivatives w.description
  pure { description := w.description, brick := w.brick, lds := w.lds, derivatives }

/-- Compiles a behaviour source: its description with its stress potential. -/
def compileSource (s : Source) : Except BrickError Compiled := do
  let d ← liftBehaviour s.toDescription
  compile d s.stressPotential.name s.stressPotential.options

namespace Compiled

/-- The listing of a compiled behaviour. -/
def listing (c : Compiled) : String :=
  let header := "// behaviour " ++ c.description.name ++ " (" ++ c.brick.origin ++ ")\n"
  let locals := if c.lds.entries.isEmpty then "" else
    "\n// local data\n" ++ String.join (c.lds.entries.map fun (t, n) => t.name ++ " " ++ n ++ ";\n")
  header ++ c.description.renderCode ++ locals ++ "\n// stress derivatives\n" ++
    String.join (c.derivatives.map (·.display ++ "\n"))

/-- The Jacobian block of an equation and a variable once the brick adds its code, or a
note that the stress does not depend on the variable. -/
def jacobianListing (c : Compiled) (equation target placeholder : String) (mode : JacobianMode) :
    Except BrickError String := do
  let code ← c.brick.equationDerivatives c.description equation target placeholder mode
  if code.isEmpty then
    pure ("// the stress does not depend on '" ++ target ++ "'\n")
  else
    let d ← liftBehaviour (c.description.addJacobianContribution c.brick.origin equation target code)
    pure (d.jacobianContribution equation target ++ "\n")

end Compiled

end Elasto.Brick
