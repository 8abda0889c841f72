/-! Residues modulo a positive number, each held as its least non-negative representative,
with powers and, for a prime modulus, inverses. Powers climb a binary ladder, as scalar
multiples and Miller loops do: an operation iterated `n` times is computed from the binary
digits of `n`, the highest first, with a double at each digit and an addition at each digit
that is set. -/
namespace FoldingVerifier
namespace Ladder

universe u

/-- Zero has the single digit `false`. -/
def bits (n : Nat) : List Bool :=
  (List.range (n.log2 + 1)).reverse.map n.testBit

/-- One step of a climb: the digit decides whether the doubled value is added to. -/
def step {α : Type u} (double add : α → α) (a : α) : Bool → α
  | true => add (double a)
  | false => double a

def climb {α : Type u} (double add : α → α) (start : α) (digits : List Bool) : α :=
  digits.foldl (step double add) start

/-- The `n`-fold iterate, from the neutral value `start`. -/
def run {α : Type u} (double add : α → α) (start : α) (n : Nat) : α :=
  climb double add start (bits n)

@[simp] theorem climb_nil {α : Type u} (double add : α → α) (start : α) :
    climb double add start [] = start := rfl

@[simp] theorem climb_cons {α : Type u} (double add : α → α) (start : α) (d : Bool)
    (ds : List Bool) :
    climb double add start (d :: ds) = climb double add (step double add start d) ds := rfl

end Ladder

/-- A modulus that has residues. -/
class Positive (p : Nat) : Prop where
  pos : 0 < p

structure Residue (p : Nat) where
  val : Nat
  isLt : val < p
deriving DecidableEq

namespace Residue

variable {p : Nat}

@[ext] theorem ext {a b : Residue p} (h : a.val = b.val) : a = b := by
  cases a; cases b; cases h; rfl

theorem pos (a : Residue p) : 0 < p := Nat.lt_of_le_of_lt (Nat.zero_le _) a.isLt

def ofNat (p : Nat) [Positive p] (n : Nat) : Residue p :=
  ⟨n % p, Nat.mod_lt _ Positive.pos⟩

/-- The remainder of an integer is taken non-negative. -/
def ofInt (p : Nat) [Positive p] (z : Int) : Residue p :=
  ofNat p (z % p).toNat

instance [Positive p] : Zero (Residue p) := ⟨ofNat p 0⟩
instance [Positive p] : One (Residue p) := ⟨ofNat p 1⟩
instance [Positive p] : Inhabited (Residue p) := ⟨0⟩

/-- Sums and differences need no division: at most one modulus is taken off. -/
instance : Add (Residue p) := ⟨fun a b =>
  if h : a.val + b.val < p then ⟨a.val + b.val, h⟩
  else ⟨a.val + b.val - p, by have := a.isLt; have := b.isLt; omega⟩⟩

instance : Sub (Residue p) := ⟨fun a b =>
  if h : b.val ≤ a.val then ⟨a.val - b.val, Nat.lt_of_le_of_lt (Nat.sub_le _ _) a.isLt⟩
  else ⟨a.val + (p - b.val), by have := a.isLt; have := b.isLt; omega⟩⟩

instance : Neg (Residue p) := ⟨fun a =>
  if h : a.val = 0 then a
  else ⟨p - a.val, by have := a.isLt; omega⟩⟩

instance : Mul (Residue p) := ⟨fun a b => ⟨(a.val * b.val) % p, Nat.mod_lt _ a.pos⟩⟩

@[simp] theorem val_ofNat [Positive p] (n : Nat) : (ofNat p n).val = n % p := rfl
@[simp] theorem val_zero [Positive p] : (0 : Residue p).val = 0 := Nat.zero_mod p
@[simp] theorem val_one [Positive p] : (1 : Residue p).val = 1 % p := rfl
@[simp] theorem val_mul (a b : Residue p) : (a * b).val = (a.val * b.val) % p := rfl

@[simp] theorem val_add (a b : Residue p) : (a + b).val = (a.val + b.val) % p := by
  have ha := a.isLt
  have hb := b.isLt
  show (if h : a.val + b.val < p then _ else _ : Residue p).val = _
  split
  · rename_i h
    exact (Nat.mod_eq_of_lt h).symm
  · show a.val + b.val - p = _
    rw [Nat.mod_eq_sub_mod (by omega), Nat.mod_eq_of_lt (by omega)]

@[simp] theorem val_sub (a b : Residue p) : (a - b).val = (a.val + (p - b.val)) % p := by
  have ha := a.isLt
  have hb := b.isLt
  show (if h : b.val ≤ a.val then _ else _ : Residue p).val = _
  split
  · show a.val - b.val = _
    rw [Nat.mod_eq_sub_mod (by omega), Nat.mod_eq_of_lt (by omega)]
    omega
  · show a.val + (p - b.val) = _
    exact (Nat.mod_eq_of_lt (by omega)).symm

@[simp] theorem val_neg (a : Residue p) : (-a).val = (p - a.val) % p := by
  have ha := a.isLt
  show (if h : a.val = 0 then a else _ : Residue p).val = _
  split
  · rename_i h
    rw [h, Nat.sub_zero, Nat.mod_self]
  · show p - a.val = _
    exact (Nat.mod_eq_of_lt (by omega)).symm

theorem ofNat_val [Positive p] (a : Residue p) : ofNat p a.val = a :=
  ext (Nat.mod_eq_of_lt a.isLt)

/-- The representative of an integer is its remainder. -/
theorem val_ofInt [Positive p] (z : Int) : ((ofInt p z).val : Int) = z % p := by
  have hp : (0 : Int) < p := by
    have : 0 < p := Positive.pos
    omega
  have hn : 0 ≤ z % (p : Int) := Int.emod_nonneg _ (by omega)
  have hl : z % (p : Int) < p := Int.emod_lt_of_pos _ hp
  have ht : ((z % (p : Int)).toNat : Int) = z % p := Int.toNat_of_nonneg hn
  show (((z % (p : Int)).toNat % p : Nat) : Int) = z % p
  rw [Nat.mod_eq_of_lt (by omega), ht]

def pow [Positive p] (a : Residue p) (n : Nat) : Residue p :=
  Ladder.run (fun x => x * x) (· * a) 1 n

/-- The inverse modulo a prime is the power `p - 2`; zero has zero for inverse. -/
instance [Positive p] : Inv (Residue p) := ⟨fun a => a.pow (p - 2)⟩

/-- A negative exponent asks for a power of the inverse. -/
def zpow [Positive p] (a : Residue p) : Int → Residue p
  | .ofNat n => a.pow n
  | .negSucc n => a⁻¹.pow (n + 1)

end Residue
end FoldingVerifier
