import Elasto.Brick.Config
import Elasto.Behaviour.LocalData

/-! # Bricks and their workbench

A brick is one of the stress potentials, with where it is in its life: the configuration
it resolved at initialization and the stress path a hook chose. A brick works on a
workbench: the behaviour description and the local data structure of the generated code.
Work that fails part way keeps what it did before failing, as the steps of a brick are
applied one after the other. -/

namespace Elasto.Brick

open Elasto.Behaviour

/-- The stress potentials a behaviour may use. -/
inductive Potential where
  | hooke
  | isotropicDamageHooke
  deriving DecidableEq, Repr

namespace Potential

def all : List Potential := [.hooke, .isotropicDamageHooke]

def name : Potential → String
  | .hooke => "Hooke"
  | .isotropicDamageHooke => "IsotropicDamageHooke"

/-- The potential of a name; an unknown name is a configuration error. -/
def create (name : String) : Except BrickError Potential :=
  match all.find? (·.name == name) with
  | some p => .ok p
  | none => .error (.configuration "stress_potential" ("unknown stress potential '" ++ name ++
      "', expected one of " ++ ", ".intercalate (all.map Potential.name)))

/-- The options of the potential. -/
def options (p : Potential) (alreadyConfigured : Bool) : List OptionSpec :=
  match p with
  | .hooke => hookeOptions alreadyConfigured
  | .isotropicDamageHooke => hookeOptions alreadyConfigured ++ damageOptions

end Potential

end Elasto.Brick

namespace Elasto

/-- A stress potential brick: the potential, its lifecycle, the configuration it resolved
at initialization and the stress path a hook chose. -/
structure Brick where
  potential : Brick.Potential
  tracker : Brick.Tracker := {}
  config : Option Brick.Config := none
  stressPath : Option Brick.StressPath := none

end Elasto

namespace Elasto.Brick

open Elasto.Behaviour

def new (p : Potential) : Brick := { potential := p }

/-- The name the brick signs its code with. -/
def origin (b : Brick) : String := b.potential.name

def initialized (b : Brick) : Bool := b.tracker.initialized

def getConfig (b : Brick) : Except BrickError Config :=
  match b.config with
  | some c => .ok c
  | none => .error (.state "brick is not initialized")

def storage (b : Brick) : Except BrickError Storage :=
  match b.config with
  | some c => .ok c.storage
  | none => .error (.state "stiffness_storage called before initialize")

/-- What a brick works on. -/
structure Workbench where
  description : Description
  lds : LocalData := {}
  brick : Brick

/-- Work of a brick: it may fail, and keeps the changes made before failing. -/
abbrev Build := ExceptT BrickError (StateM Workbench)

namespace Build

def ofExcept {α : Type} : Except BrickError α → Build α
  | .ok a => pure a
  | .error e => throw e

def description : Build Description := do pure (← get).description

def brick : Build Brick := do pure (← get).brick

/-- Changes the description, if the change succeeds. -/
def edit (f : Description → Except BrickError Description) : Build Unit := do
  let w ← get
  let d ← ofExcept (f w.description)
  set { w with description := d }

def appendBlock (kind : Code.BlockKind) (b : Code.Block) : Build Unit :=
  modify fun w => { w with description := w.description.appendBlock kind b }

/-- Adds an entry to the local data structure. -/
def addLocal (t : VarType) (name : String) : Build Unit := do
  let w ← get
  let l ← ofExcept (liftBehaviour (w.lds.add t name))
  set { w with lds := l }

def setBrick (b : Brick) : Build Unit := modify fun w => { w with brick := b }

/-- Runs work on a workbench: the result, and the workbench as the work left it. -/
def run {α : Type} (m : Build α) (w : Workbench) : Except BrickError α × Workbench :=
  (ExceptT.run m).run w

end Build

end Elasto.Brick
