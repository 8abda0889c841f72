import FoldingVerifier.Proofs.InputCombinations
import FoldingVerifier.Proofs.MalformedPoints
import FoldingVerifier.Proofs.Pairing.Bilinear

/-! How a call of the Groth16 verifier ends, whatever it is called with. The number of inputs
is looked at first, then whether they are canonical, then the points and last the equation, so
that an input out of range is a rejection also where a point is malformed. As the equation
counts the inputs modulo the group order, it is the second step alone that keeps a statement
from being accepted under other names. -/
namespace FoldingVerifier
namespace Groth16Key

/-- All inputs are canonical scalars. -/
def InputsInRange (xs : List ℤ) : Prop := ∀ x ∈ xs, 0 ≤ x ∧ x < scalarOrder

/-- All points of a proof are those of elements. -/
def PointsValid (p : Groth16Proof) : Prop := p.a.Valid ∧ p.b.Valid ∧ p.c.Valid

/-- The equation of a proof, between the elements that its points stand for. -/
def Balanced (e : Pairing) (k : Groth16Key) (p : Groth16Proof) (xs : List ℤ) : Prop :=
  e.pair p.a.element p.b.element =
    e.mul (e.mul (e.pair k.alpha k.beta) (e.pair (k.combination xs) k.gamma))
      (e.pair p.c.element k.delta)

/-- The four ways in which a call ends, each with all that is known when it is taken. -/
inductive Decision (e : Pairing) (k : Groth16Key) (p : Groth16Proof) (xs : List ℤ) :
    Except Fault Bool → Prop where
  | miscounted (hlen : xs.length ≠ k.inputCount) :
      Decision e k p xs (.error (.value (.inputCount k.inputCount xs.length)))
  | outOfRange (hlen : xs.length = k.inputCount) (hout : ¬InputsInRange xs) :
      Decision e k p xs (.ok false)
  | malformed (hlen : xs.length = k.inputCount) (hin : InputsInRange xs)
      (hinvalid : ¬PointsValid p) (c : PointFault) : Decision e k p xs (.error (.point c))
  | decided (hlen : xs.length = k.inputCount) (hin : InputsInRange xs) (hvalid : PointsValid p)
      (b : Bool) (hb : b = true ↔ Balanced e k p xs) : Decision e k p xs (.ok b)

variable {e : Pairing} {k : Groth16Key} {p : Groth16Proof} {xs ys : List ℤ}

namespace Decision

variable {r : Except Fault Bool} (d : Decision e k p xs r)

include d

theorem miscounted_iff :
    r = .error (.value (.inputCount k.inputCount xs.length)) ↔ xs.length ≠ k.inputCount := by
  cases d <;> simp_all

theorem value_iff : (∃ c, r = .error (.value c)) ↔ xs.length ≠ k.inputCount := by
  cases d <;> simp_all

theorem point_iff : (∃ c, r = .error (.point c)) ↔
    xs.length = k.inputCount ∧ InputsInRange xs ∧ ¬PointsValid p := by
  cases d <;> simp_all

theorem true_iff : r = .ok true ↔
    xs.length = k.inputCount ∧ InputsInRange xs ∧ PointsValid p ∧ Balanced e k p xs := by
  cases d <;> simp_all

theorem false_iff : r = .ok false ↔ xs.length = k.inputCount ∧
    (InputsInRange xs → PointsValid p ∧ ¬Balanced e k p xs) := by
  cases d with
  | decided hlen hin hvalid b hb => cases b <;> simp_all
  | _ => simp_all

end Decision

theorem verify_of_valid (e : Pairing) (hlen : xs.length = k.inputCount) (hin : InputsInRange xs)
    (hvalid : PointsValid p) :
    k.verify e p xs = .ok (k.accepts e p.a.element p.b.element p.c.element xs) := by
  obtain ⟨ha, hb, hc⟩ := hvalid
  rw [verify_of_inScalarField e k p hlen (all_inScalarField_iff.mpr hin),
    G1Coords.decode_of_valid ha, G2Coords.decode_of_valid hb, G1Coords.decode_of_valid hc]
  rfl

theorem verify_decided (h : e.Bilinear) (k : Groth16Key) (p : Groth16Proof) (xs : List ℤ) :
    Decision e k p xs (k.verify e p xs) := by
  by_cases hlen : xs.length = k.inputCount
  · by_cases hin : InputsInRange xs
    · by_cases hvalid : PointsValid p
      · rw [verify_of_valid e hlen hin hvalid]
        exact .decided hlen hin hvalid _ (accepts_iff h k _ _ _ xs)
      · obtain ⟨c, hc⟩ := (k.guarded_verify e p hlen hin).aborts_iff.mpr hvalid
        rw [hc]
        exact .malformed hlen hin hvalid c
    · have hout : ¬xs.all inScalarField = true := mt all_inScalarField_iff.mp hin
      simp only [verify, hlen, ne_eq, not_true_eq_false, if_false, hout]
      exact .outOfRange hlen hin
  · simp only [verify, ne_eq, hlen, not_false_eq_true, if_true]
    exact .miscounted hlen

/-- The equation does not tell apart inputs of the same classes. -/
theorem balanced_congr (hmod : List.Forall₂ (fun x y => x ≡ y [ZMOD scalarOrder]) xs ys) :
    Balanced e k p ys ↔ Balanced e k p xs := by
  rw [Balanced, Balanced, combination, combination, zipWith_congr k.ic hmod]

/-- The canonical representatives are the residues. -/
theorem InputsInRange.eq_residues (hys : InputsInRange ys)
    (hmod : List.Forall₂ (fun x y => x ≡ y [ZMOD scalarOrder]) xs ys) :
    ys = xs.map fun x : ℤ => x % scalarOrder := by
  induction hmod with
  | nil => rfl
  | cons hxy _ ih =>
    obtain ⟨⟨hy, hy'⟩, hrest⟩ := List.forall_mem_cons.mp hys
    rw [List.map_cons, ← ih hrest, hxy, Int.emod_eq_of_lt hy hy']

/-- A wrong number of inputs is refused, and nothing else is refused so. Inputs that are not
canonical are rejected whatever the points are; of canonical ones the points are looked at,
and where they are valid the equation decides. Of all the lists of the same classes no two
are accepted, not even with different proofs. -/
theorem verify_decision (h : e.Bilinear) (k : Groth16Key) (p : Groth16Proof) (xs : List ℤ) :
    k.verifyCoords e p xs = k.verify e p xs ∧
    (k.verify e p xs = .error (.value (.inputCount k.inputCount xs.length)) ↔
      xs.length ≠ k.inputCount) ∧
    ((∃ c, k.verify e p xs = .error (.value c)) ↔ xs.length ≠ k.inputCount) ∧
    (xs.length = k.inputCount → ¬InputsInRange xs → ∀ q, k.verify e q xs = .ok false) ∧
    ((∃ c, k.verify e p xs = .error (.point c)) ↔
      xs.length = k.inputCount ∧ InputsInRange xs ∧ ¬PointsValid p) ∧
    (k.verify e p xs = .ok true ↔
      xs.length = k.inputCount ∧ InputsInRange xs ∧ PointsValid p ∧ Balanced e k p xs) ∧
    (k.verify e p xs = .ok false ↔ xs.length = k.inputCount ∧
      (InputsInRange xs → PointsValid p ∧ ¬Balanced e k p xs)) ∧
    ∀ (q : Groth16Proof) (ys zs : List ℤ),
      List.Forall₂ (fun x y => x ≡ y [ZMOD scalarOrder]) xs ys →
      List.Forall₂ (fun x z => x ≡ z [ZMOD scalarOrder]) xs zs →
      k.verify e p ys = .ok true → k.verify e q zs = .ok true → ys = zs := by
  have hends := verify_decided h k p xs
  refine ⟨k.verifyCoords_eq e p xs, hends.miscounted_iff, hends.value_iff, ?_, hends.point_iff,
    hends.true_iff, hends.false_iff, ?_⟩
  · intro hlen hout q
    exact (verify_decided h k q xs).false_iff.mpr ⟨hlen, fun hin => absurd hin hout⟩
  · intro q ys zs hys hzs hy hz
    obtain ⟨-, hyr, -⟩ := (verify_decided h k p ys).true_iff.mp hy
    obtain ⟨-, hzr, -⟩ := (verify_decided h k q zs).true_iff.mp hz
    rw [hyr.eq_residues hys, hzr.eq_residues hzs]

/-- A proof of `3x + 5y = 17` for the key with these weights. -/
def weightedProof : Groth16Proof :=
  ⟨((21 : ℤ) • G1.generator).coords, G2.generator.coords, G1.generator.coords⟩

theorem balanced_weightedProof_iff (x y : ℤ) :
    Balanced .logarithmic weightedKey weightedProof [x, y] ↔
      3 * x + 5 * y ≡ 17 [ZMOD scalarOrder] := by
  have hb := Pairing.bilinear_logarithmic
  have hleft (P P' : G1) : Pairing.logarithmic.pair P G2.generator =
      Pairing.logarithmic.pair P' G2.generator ↔ P = P' := by
    constructor
    · exact hb.left_injective Pairing.nondegenerate_logarithmic G2.generator_ne_zero
    · rintro rfl
      rfl
  have hsum : weightedKey.alpha + weightedKey.combination [x, y] + G1.generator =
      (4 + 3 * x + 5 * y) • G1.generator := by
    change G1.generator + (2 • G1.generator +
      (x • 3 • G1.generator + (y • 5 • G1.generator + 0))) + G1.generator = _
    module
  have hdifference : (21 : ℤ) • G1.generator = (4 + 3 * x + 5 * y) • G1.generator ↔
      (scalarOrder : ℤ) ∣ 17 - (3 * x + 5 * y) := by
    have hmultiplier : 21 - (4 + 3 * x + 5 * y) = 17 - (3 * x + 5 * y) := by ring
    rw [← sub_eq_zero, ← sub_smul, hmultiplier, G1.zsmul_eq_zero_iff G1.generator_ne_zero]
  rw [Int.modEq_iff_dvd, ← hdifference, ← hsum, ← hleft, hb.add_left, hb.add_left, Balanced]
  simp only [weightedProof, G1Coords.element_coords, G2Coords.element_coords]
  rfl

/-- The proof with the inputs that it is for, with others, and with too few; and with a
malformed point, which is not looked at where an input is out of range. The equation also
holds of the inputs one modulus higher, which are rejected all the same. -/
theorem verify_decision_weightedProof :
    let malformed : Groth16Proof := { weightedProof with c := ⟨1, 3⟩ }
    weightedKey.verify .logarithmic weightedProof [4, 1] = .ok true ∧
    weightedKey.verify .logarithmic weightedProof [4, 2] = .ok false ∧
    weightedKey.verify .logarithmic weightedProof [4] = .error (.value (.inputCount 2 1)) ∧
    (∃ c, weightedKey.verify .logarithmic malformed [4, 1] = .error (.point c)) ∧
    weightedKey.verify .logarithmic malformed [4 + scalarOrder, 1] = .ok false ∧
    Balanced .logarithmic weightedKey weightedProof [4 + scalarOrder, 1] ∧
    weightedKey.verify .logarithmic weightedProof [4 + scalarOrder, 1] ≠ .ok true := by
  have hb := Pairing.bilinear_logarithmic
  have hvalid : PointsValid weightedProof :=
    ⟨G1Coords.valid_coords _, G2Coords.valid_coords _, G1Coords.valid_coords _⟩
  have hin : InputsInRange [4, 1] := by simp [InputsInRange, scalarOrder]
  have hin' : InputsInRange [4, 2] := by simp [InputsInRange, scalarOrder]
  have hout : ¬InputsInRange [4 + scalarOrder, 1] := by simp [InputsInRange]
  have hmalformed : ¬PointsValid { weightedProof with c := ⟨1, 3⟩ } := by
    rintro ⟨-, -, hc⟩
    revert hc
    unfold G1Coords.Valid
    decide
  obtain ⟨-, -, -, -, -, htrue, -, hunique⟩ := verify_decision hb weightedKey weightedProof [4, 1]
  obtain ⟨-, -, -, -, -, -, hfalse, -⟩ := verify_decision hb weightedKey weightedProof [4, 2]
  obtain ⟨-, hcount, -⟩ := verify_decision hb weightedKey weightedProof [4]
  obtain ⟨-, -, -, -, hpoint, -⟩ :=
    verify_decision hb weightedKey { weightedProof with c := ⟨1, 3⟩ } [4, 1]
  obtain ⟨-, -, -, hrejected, -⟩ :=
    verify_decision hb weightedKey weightedProof [4 + scalarOrder, 1]
  have hbalanced := (balanced_weightedProof_iff 4 1).mpr rfl
  have haccepted := htrue.mpr ⟨rfl, hin, hvalid, hbalanced⟩
  refine ⟨haccepted, ?_, hcount.mpr (by decide), hpoint.mpr ⟨rfl, hin, hmalformed⟩,
    hrejected rfl hout _, ?_, ?_⟩
  · refine hfalse.mpr ⟨rfl, fun _ => ⟨hvalid, ?_⟩⟩
    rw [balanced_weightedProof_iff]
    decide
  · exact (balanced_congr (by simp [Int.ModEq])).mpr hbalanced
  · intro halias
    have heq := hunique weightedProof [4, 1] [4 + scalarOrder, 1] (by simp)
      (by simp [Int.ModEq]) haccepted halias
    simp [scalarOrder] at heq

end Groth16Key
end FoldingVerifier
