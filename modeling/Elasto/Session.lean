import Elasto.Brick.Compile
import Elasto.Behaviour.Source

/-! # Sessions

A session builds one behaviour step by step: it declares variables and sets attributes on
the description, creates bricks and drives each through initialization and its hooks, and
asks for what they produce. The bricks share the description and one local data
structure. A step that fails leaves the session as the step left it. -/

namespace Elasto

/-- A session: the description it builds, its bricks, the local data structure they share,
and the source the description came from, if any. -/
structure Session where
  description : Behaviour.Description
  bricks : List Brick := []
  lds : Behaviour.LocalData := {}
  /-- The source the description came from, if any. -/
  source : Option Behaviour.Source := none

end Elasto

namespace Elasto.Session

open Elasto.Behaviour Elasto.Brick Elasto.Tensor Elasto.Code

/-- The hooks a step may run. -/
inductive HookStep where
  | elasticPrediction
  | stressWithStiffnessTensor
  | isotropicStress
  | tangentOperator
  | predictionOperator
  | finalize

def HookStep.run : HookStep → Build Unit
  | .elasticPrediction => declareElasticPrediction
  | .stressWithStiffnessTensor => declareStressWithStiffnessTensor
  | .isotropicStress => declareIsotropicStress
  | .tangentOperator => addTangentOperatorSupport
  | .predictionOperator => addPredictionOperatorSupport
  | .finalize => Brick.finalize

inductive Command where
  | declare (c : Category) (v : Variable)
  | setHypotheses (hs : List Hypothesis)
  | setSymmetry (s : Symmetry)
  | setAttribute (name : String) (a : Attribute)
  | attribute (name : String)
  | flag (name : String)
  | lookup (name : String)
  | create (name : Option String)
  | options (brick : Nat) (alreadyConfigured : Bool)
  /-- Initializes a brick with options, or with the source's options when none are given. -/
  | configure (brick : Nat) (options : Option DataMap)
  | stiffnessStorage (brick : Nat)
  | stressDerivatives (brick : Nat)
  | evalDerivatives (brick : Nat) (env : Env)
  | jacobian (brick : Nat) (equation target placeholder : String) (mode : JacobianMode)
  | hook (brick : Nat) (h : HookStep)
  | showBrick (brick : Nat)
  | describe
  | renderCode
  | addJacobianContribution (owner equation target code : String)
  | jacobianContribution (equation target : String)
  | execute (kinds : List BlockKind) (env : Env)
  | resolveProperty (option : String) (value : Data)
  | residual (equation : String)
  | elasticMaterialProperties
  | addLocal (t : VarType) (name : String)

inductive Reply where
  | unit
  | index (n : Nat)
  | schema (specs : List OptionSpec)
  | storage (s : Storage)
  | derivatives (entries : List DerivativeEntry)
  | values (vs : List (String × Value))
  | text (s : String)
  | brick (b : Brick)
  | describe (d : Description) (lds : LocalData)
  | attribute (a : Option Attribute)
  | flag (b : Bool)
  | lookup (v : Option (Category × Variable))
  | env (env : Env)
  /-- A resolved property: whether it is constant, its expression, whether it evolves during
  the step and the state variables it involves. -/
  | property (constant : Bool) (e : Scalar) (fieldDependent : Bool) (dependencies : List String)
  | name (n : Option String)
  | pair (p : Option (String × String))

inductive StepError where
  | brick (e : BrickError)
  | behaviour (e : BehaviourError)
  | expr (e : ExprError)
  /-- A step names a brick the session does not have. -/
  | noBrick (index : Nat)

/-- What a step gives: its reply or its error, and the session after it. -/
abbrev Outcome := Except StepError Reply × Session

/-- A session on a description. -/
def new (d : Description) : Session := { description := d }

/-- A session on the description of a source. -/
def ofSource (s : Source) : Except BehaviourError Session := do
  pure { description := ← s.toDescription, source := some s }

/-- Counts of declared variables, attributes, code blocks and local data. -/
def counts (s : Session) : List Nat :=
  [s.description.declarations.length, s.description.attributes.length,
    s.description.blocks.length, s.lds.size]

def brickAt (s : Session) (i : Nat) : Except StepError Brick :=
  match s.bricks[i]? with
  | some b => .ok b
  | none => .error (.noBrick i)

/-- Runs work of brick `i` on the session's description and local data. -/
def work (s : Session) (i : Nat) (m : Build Unit) : Outcome :=
  match s.brickAt i with
  | .error e => (.error e, s)
  | .ok b =>
    let (r, w) := Build.run m { description := s.description, lds := s.lds, brick := b }
    let s := { s with description := w.description, lds := w.lds, bricks := s.bricks.set i w.brick }
    (r.map (fun _ => .unit) |>.mapError .brick, s)

/-- A step that only reads the session. -/
def reading (s : Session) (r : Except StepError Reply) : Outcome := (r, s)

/-- A step that changes the description. -/
def editing (s : Session) (r : Except BehaviourError Description) : Outcome :=
  match r with
  | .ok d => (.ok .unit, { s with description := d })
  | .error e => (.error (.behaviour e), s)

def brickQuery {α : Type} (s : Session) (i : Nat) (f : Brick → Except BrickError α) :
    Except StepError α := do
  let b ← s.brickAt i
  (f b).mapError .brick

/-- Runs every block of the given kinds, kind by kind, against one environment. -/
def executeBlocks (d : Description) (kinds : List BlockKind) (env : Env) : Except ExprError Env :=
  kinds.foldlM (fun env k => (d.blocksOf k).foldlM (fun env b => b.execute env) env) env

/-- Runs one step. -/
def step (s : Session) : Command → Outcome
  | .declare c v => s.editing (s.description.declare c v)
  | .setHypotheses hs => (.ok .unit, { s with description := { s.description with hypotheses := hs } })
  | .setSymmetry y => (.ok .unit, { s with description := { s.description with symmetry := y } })
  | .setAttribute name a => s.editing (s.description.setAttribute name a)
  | .attribute name => s.reading (.ok (.attribute (s.description.attribute? name)))
  | .flag name => s.reading (.ok (.flag (s.description.flag name)))
  | .lookup name => s.reading (.ok (.lookup (s.description.declared? name)))
  | .create name =>
    let name := name.getD ((s.source.map (·.stressPotential.name)).getD "")
    match Potential.create name with
    | .ok p => (.ok (.index s.bricks.length), { s with bricks := s.bricks ++ [Brick.new p] })
    | .error e => (.error (.brick e), s)
  | .options i alreadyConfigured =>
    s.reading (do pure (.schema ((← s.brickAt i).potential.options alreadyConfigured)))
  | .configure i options =>
    let data := options.getD ((s.source.map (·.stressPotential.options)).getD [])
    s.work i (configure data)
  | .stiffnessStorage i => s.reading (do pure (.storage (← s.brickQuery i Brick.storage)))
  | .stressDerivatives i =>
    s.reading (do pure (.derivatives (← s.brickQuery i (·.stressDerivatives s.description))))
  | .evalDerivatives i env => s.reading do
    let entries ← s.brickQuery i (·.stressDerivatives s.description)
    let vs ← (entries.mapM fun (e : DerivativeEntry) => do
      pure (e.variable_, ← e.expression.eval env)).mapError StepError.expr
    pure (.values vs)
  | .jacobian i equation target placeholder mode => s.reading do
    pure (.text (← s.brickQuery i (·.equationDerivatives s.description equation target placeholder mode)))
  | .hook i h => s.work i h.run
  | .showBrick i => s.reading (do pure (.brick (← s.brickAt i)))
  | .describe => s.reading (.ok (.describe s.description s.lds))
  | .renderCode => s.reading (.ok (.text s.description.renderCode))
  | .addJacobianContribution owner equation target code =>
    -- a refused contribution still leaves its block made present
    { s with description := s.description.jacobianEntry (equation, target) }.editing
      (s.description.addJacobianContribution owner equation target code)
  | .jacobianContribution equation target =>
    s.reading (.ok (.text (s.description.jacobianContribution equation target)))
  | .execute kinds env =>
    s.reading ((executeBlocks s.description kinds env).map Reply.env |>.mapError .expr)
  | .resolveProperty option value => s.reading do
    let p ← (Property.ofData option value).mapError .behaviour
    let e ← (s.description.resolveProperty option p).mapError .behaviour
    pure (.property p.isConstant e (s.description.isFieldDependent e) (s.description.stateDependencies e))
  | .residual equation => s.reading (.ok (.name ((s.description.residualVariable? equation).map (·.name))))
  | .elasticMaterialProperties => s.reading (.ok (.pair s.description.elasticMaterialProperties))
  | .addLocal t name =>
    match s.lds.add t name with
    | .ok l => (.ok .unit, { s with lds := l })
    | .error e => (.error (.behaviour e), s)

/-- Runs steps in order: the outcome of each with the counts after it. -/
def run (s : Session) : List Command → List (Except StepError Reply × List Nat)
  | [] => []
  | c :: rest =>
    let (r, s) := s.step c
    (r, s.counts) :: run s rest

end Elasto.Session
