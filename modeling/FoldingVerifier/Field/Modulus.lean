import FoldingVerifier.Fault
import FoldingVerifier.Field.Residue

/-! The two prime fields of the curve, and their arithmetic on plain integers:
operands of any size and sign are reduced, results are canonical. -/
namespace FoldingVerifier

/-- The order of the field of coordinates. -/
def baseOrder : Nat :=
  21888242871839275222246405745257275088696311157297823662689037894645226208583

/-- The order of both source groups, and of the field of scalars. -/
def scalarOrder : Nat :=
  21888242871839275222246405745257275088548364400416034343698204186575808495617

instance : Positive baseOrder := ⟨by decide⟩
instance : Positive scalarOrder := ⟨by decide⟩

abbrev Fq := Residue baseOrder
abbrev Fr := Residue scalarOrder

inductive Modulus where
  | base
  | scalar
deriving DecidableEq, Repr

namespace Modulus

def order : Modulus → Nat
  | base => baseOrder
  | scalar => scalarOrder

instance (m : Modulus) : Positive m.order := ⟨by cases m <;> decide⟩

def ofInt (p : Int) : Except Fault Modulus :=
  if p = baseOrder then .ok base
  else if p = scalarOrder then .ok scalar
  else .error (.value (.unsupportedModulus p))

/-- The canonical integer of the class of `a`. -/
def residue (m : Modulus) (a : Int) : Residue m.order := Residue.ofInt m.order a

end Modulus

namespace Modular

def add (p a b : Int) : Except Fault Int := do
  let m ← Modulus.ofInt p
  return (m.residue a + m.residue b).val

def mul (p a b : Int) : Except Fault Int := do
  let m ← Modulus.ofInt p
  return (m.residue a * m.residue b).val

def neg (p a : Int) : Except Fault Int := do
  let m ← Modulus.ofInt p
  return (-m.residue a).val

/-- Zero has no power with a negative exponent. -/
def exp (p a e : Int) : Except Fault Int := do
  let m ← Modulus.ofInt p
  let x := m.residue a
  if x = 0 ∧ e < 0 then throw .zeroInverse
  return (x.zpow e).val

end Modular

/-- Whether an integer is a canonical scalar. -/
def inScalarField (v : Int) : Bool :=
  decide (0 ≤ v ∧ v < scalarOrder)

end FoldingVerifier
