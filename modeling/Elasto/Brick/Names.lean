/-! # Names in generated code

The members and temporaries a stress potential reads and writes in the code it generates.
They are reserved: a damage variable may not take one of them. -/

namespace Elasto.Brick.Ident

def elasticStrain : String := "eel"
def totalStrainIncrement : String := "deto"
def stress : String := "sig"
def stiffness : String := "D"
def lambda : String := "lambda"
def mu : String := "mu"
def tangentOperator : String := "Dt"
def axialStrain : String := "etozz"
def degradationFactor : String := "omega_d"
def lambdaEndOfStep : String := "lambda_ets"
def muEndOfStep : String := "mu_ets"
def lambdaBeginningOfStep : String := "lambda_bts"
def muBeginningOfStep : String := "mu_bts"
def thermalStrainIncrement : String := "dets"
def inverseJacobianEel : String := "iJ_eel_eel"

end Elasto.Brick.Ident

namespace Elasto.Brick

open Ident

/-- The identifiers a stress potential reserves. -/
def reservedNames : List String :=
  [elasticStrain, totalStrainIncrement, stress, stiffness, tangentOperator, lambda, mu,
    axialStrain, degradationFactor, lambdaEndOfStep, muEndOfStep, lambdaBeginningOfStep,
    muBeginningOfStep, thermalStrainIncrement, inverseJacobianEel]

/-- The name of the increment of a quantity over the step. -/
def increment (name : String) : String := "d" ++ name

/-- The opening line of the code computing secant operators. -/
def elasticBranch : String := "if ((smt == ELASTIC) || (smt == SECANTOPERATOR)) \x7b"

end Elasto.Brick
