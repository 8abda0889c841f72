import FoldingVerifier.Proofs.Decider.Acceptance

/-! Honest proofs are accepted. Who folds onto the commitments of two polynomials, opens these
with the quotients, and has Groth16 multipliers that solve the equation for the public inputs
passes every check. This holds of every setup and every length of the state. -/
namespace FoldingVerifier

/-- The scalars behind a key: the secret of the openings, and the multipliers of the points of
the Groth16 key. -/
structure Trapdoor where
  tau : ℤ
  alpha : ℤ
  beta : ℤ
  gamma : ℤ
  delta : ℤ
  constant : ℤ
  ic : List ℤ

namespace Trapdoor

def groth16 (t : Trapdoor) : Groth16Key where
  alpha := t.alpha • G1.generator
  beta := t.beta • G2.generator
  gamma := t.gamma • G2.generator
  delta := t.delta • G2.generator
  constant := t.constant • G1.generator
  ic := t.ic.map fun n => n • G1.generator

def kzg (t : Trapdoor) : KzgKey := ⟨G1.generator, G2.generator, t.tau • G2.generator⟩

/-- The key that is made from the coordinates of the points. -/
def key (t : Trapdoor) (hash z : ℤ) : Except Fault DeciderKey := do
  let groth16 ← Groth16Key.ofCoords (t.alpha • G1.generator).coords
    (t.beta • G2.generator).coords (t.gamma • G2.generator).coords
    (t.delta • G2.generator).coords
    ((t.constant :: t.ic).map fun n => (n • G1.generator).coords)
  let kzg ← KzgKey.ofCoords G1Coords.generator G2Coords.generator
    (t.tau • G2.generator).coords
  DeciderKey.make hash z groth16 kzg

/-- What the Groth16 scalars have to solve. -/
def Solves (t : Trapdoor) (inputs : List ℤ) (a b c : ℤ) : Prop :=
  a * b ≡ t.alpha * t.beta +
    (t.constant + (List.zipWith (fun x y => x * y) inputs t.ic).sum) * t.gamma +
      c * t.delta [ZMOD scalarOrder]

/-- A prover who knows the scalars can choose the first two points freely. -/
theorem exists_solves {t : Trapdoor} (hdelta : ¬t.delta ≡ 0 [ZMOD scalarOrder]) (inputs : List ℤ)
    (a b : ℤ) : ∃ c, t.Solves inputs a b c := by
  have hne : (t.delta : ZMod scalarOrder) ≠ 0 := by
    intro h0
    rw [← Int.cast_zero, ZMod.intCast_eq_intCast_iff] at h0
    exact hdelta h0
  obtain ⟨c, hc⟩ := ZMod.intCast_surjective
    (((a * b - (t.alpha * t.beta + (t.constant +
      (List.zipWith (fun x y => x * y) inputs t.ic).sum) * t.gamma) : ℤ) : ZMod scalarOrder) /
        (t.delta : ZMod scalarOrder))
  refine ⟨c, (ZMod.intCast_eq_intCast_iff _ _ _).mp ?_⟩
  rw [Int.cast_add, Int.cast_mul c, hc, div_mul_cancel₀ _ hne, ← Int.cast_add, add_sub_cancel]

end Trapdoor

/-- What an honest prover starts from, for a secret and states of `z` words. -/
structure HonestRun (tau : ℤ) (z : ℕ) where
  steps : ℤ
  initialState : List ℤ
  finalState : List ℤ
  /-- The polynomial that a folded commitment is one to. -/
  coefficients : Commitment → List ℤ
  randomness : ℤ
  /-- The multiplier of the commitment that is added. -/
  added : Commitment → ℤ
  challenge : Commitment → ℤ
  steps_inRange : 2 ≤ steps ∧ steps < scalarOrder
  initialState_length : initialState.length = z
  finalState_length : finalState.length = z
  initialState_inRange : ∀ n ∈ initialState, 0 ≤ n ∧ n < scalarOrder
  finalState_inRange : ∀ n ∈ finalState, 0 ≤ n ∧ n < scalarOrder
  challenge_inRange : ∀ c, 0 ≤ challenge c ∧ challenge c < scalarOrder
  challenge_ne : ∀ c, ¬challenge c ≡ tau [ZMOD scalarOrder]

namespace HonestRun

variable {tau : ℤ} {z : ℕ} (w : HonestRun tau z)

/-- The commitment that is to come out of the folding. -/
def commitment (c : Commitment) : G1 := polynomialValue (w.coefficients c) tau • G1.generator

/-- The commitment to fold the other into. -/
def running (c : Commitment) : G1 :=
  (polynomialValue (w.coefficients c) tau - w.randomness * w.added c) • G1.generator

def evaluation (c : Commitment) : ℤ := evalPolynomial (w.coefficients c) (w.challenge c)

def opening (c : Commitment) : G1 :=
  KzgKey.openingScalar (w.coefficients c) tau (w.challenge c) • G1.generator

def statement (hash : ℤ) : Statement where
  hash := hash
  steps := w.steps
  initialState := w.initialState
  finalState := w.finalState
  witness := (w.commitment .witness).coords
  errorTerm := (w.commitment .errorTerm).coords
  challengesAndEvals := [w.challenge .witness, w.challenge .errorTerm, w.evaluation .witness,
    w.evaluation .errorTerm]
  crossTerm := (w.added .errorTerm • G1.generator).coords

/-- The proof with given multipliers for the Groth16 points. -/
def proof (a b c : ℤ) : DeciderProof where
  steps := w.steps
  initialState := w.initialState
  finalState := w.finalState
  running := ⟨(w.running .witness).coords, (w.running .errorTerm).coords⟩
  freshWitness := (w.added .witness • G1.generator).coords
  crossTerm := (w.added .errorTerm • G1.generator).coords
  randomness := w.randomness
  groth16 :=
    ⟨(a • G1.generator).coords, (b • G2.generator).coords, (c • G1.generator).coords⟩
  challengeW := w.challenge .witness
  challengeE := w.challenge .errorTerm
  evalW := w.evaluation .witness
  evalE := w.evaluation .errorTerm
  openingW := (w.opening .witness).coords
  openingE := (w.opening .errorTerm).coords
  same_length := w.initialState_length.trans w.finalState_length.symm

/-- The elements behind the coordinates of a proof. -/
def point (a c : ℤ) : DeciderProof.PointPart → G1
  | .freshWitness => w.added .witness • G1.generator
  | .crossTerm => w.added .errorTerm • G1.generator
  | .openingW => w.opening .witness
  | .openingE => w.opening .errorTerm
  | .runningWitness => w.running .witness
  | .runningErrorTerm => w.running .errorTerm
  | .groth16A => a • G1.generator
  | .groth16C => c • G1.generator

variable (a b c : ℤ)

theorem get_proof (part : DeciderProof.PointPart) :
    part.get (w.proof a b c) = (w.point a c part).coords := by
  cases part <;> simp only [DeciderProof.PointPart.get, proof, point]

theorem element_proof (part : DeciderProof.PointPart) :
    (w.proof a b c).element part = w.point a c part := by
  rw [DeciderProof.element, get_proof, G1Coords.element_coords]

theorem point_valid (part : DeciderProof.PointPart) : (part.get (w.proof a b c)).Valid := by
  rw [get_proof]
  exact G1Coords.valid_coords (w.point a c part)

/-- The folding lands on the commitment of the polynomial. -/
theorem folded_proof (which : Commitment) :
    (w.proof a b c).folded which = w.commitment which := by
  have hrunning : w.point a c which.running = w.running which := by cases which <;> rfl
  have hadded : w.point a c which.added = w.added which • G1.generator := by cases which <;> rfl
  have hrandomness : (w.proof a b c).randomness = w.randomness := rfl
  rw [DeciderProof.folded, element_proof, element_proof, hrunning, hadded, hrandomness, running,
    commitment, smul_smul, ← add_smul, sub_add_cancel]

theorem claim_proof (hash : ℤ) : (w.proof a b c).claim hash = w.statement hash := by
  rw [DeciderProof.claim, folded_proof, folded_proof]
  rfl

theorem scalars_inRange : ∀ n ∈ (w.proof a b c).scalars, 0 ≤ n ∧ n < scalarOrder := by
  have hsteps : 0 ≤ w.steps ∧ w.steps < scalarOrder :=
    ⟨by linarith [w.steps_inRange.1], w.steps_inRange.2⟩
  have heval (which : Commitment) : 0 ≤ w.evaluation which ∧ w.evaluation which < scalarOrder :=
    evalPolynomial_inRange _ _
  refine DeciderProof.forall_scalars_iff.mpr
    ⟨hsteps, w.initialState_inRange, w.finalState_inRange, ?_⟩
  simp only [List.forall_mem_cons, List.not_mem_nil, false_implies, implies_true, and_true]
  exact ⟨w.challenge_inRange .witness, w.challenge_inRange .errorTerm, heval .witness,
    heval .errorTerm⟩

end HonestRun

theorem DeciderKey.make_eq_ok {hash : ℤ} {z : ℕ} {groth16 : Groth16Key} (kzg : KzgKey)
    (hz : 1 ≤ z) (hhash : 0 ≤ hash ∧ hash < scalarOrder)
    (hcount : (groth16.inputCount : ℤ) = PublicInputs.count z) :
    ∃ k, make hash z groth16 kzg = .ok k ∧ (k.hash.val : ℤ) = hash ∧ k.stateLength = z ∧
      k.groth16 = groth16 ∧ k.kzg = kzg := by
  have hlen : ¬((z : ℤ) < 1) := by omega
  unfold make
  rw [dif_neg hlen, if_pos (inScalarField_iff.mpr hhash), dif_pos hcount]
  exact ⟨_, rfl, Residue.val_ofInt_of_mem hhash.1 hhash.2, Int.toNat_natCast z, rfl, rfl⟩

namespace Trapdoor

variable {t : Trapdoor} {hash : ℤ} {z : ℕ}

theorem key_eq_make : t.key hash z = DeciderKey.make hash z t.groth16 t.kzg := by
  have hgroth16 := Groth16Key.ofCoords_coords t.groth16
  have hkzg := KzgKey.ofCoords_coords t.kzg
  simp only [groth16, List.map_cons, List.map_map, Function.comp_def] at hgroth16
  simp only [kzg, G1.coords_generator, G2.coords_generator] at hkzg
  rw [key, List.map_cons, hgroth16, hkzg]
  rfl

end Trapdoor

namespace Decider

variable {e : Pairing}

section Honest

variable (h : e.Bilinear) {t : Trapdoor} {z : ℕ} {k : DeciderKey} (w : HonestRun t.tau z)
  (a b c : ℤ)

include h

theorem opening_passes (hkzg : k.kzg = t.kzg) (which : Commitment) :
    (Check.opening which).fault e (ofKey k) (w.proof a b c) = none := by
  have hopening : w.point a c which.opening = w.opening which := by cases which <;> rfl
  have hchallenge : which.challenge.get (w.proof a b c) = w.challenge which := by
    cases which <;> rfl
  have hevaluation : which.evaluation.get (w.proof a b c) = w.evaluation which := by
    cases which <;> rfl
  have hkey : (ofKey k).kzg = t.kzg := hkzg
  rw [Check.opening_passes_iff, w.folded_proof, w.element_proof, hopening, hchallenge, hevaluation,
    hkey]
  exact KzgKey.opens_honest h rfl (w.challenge_ne which) (w.coefficients which)

theorem groth16_passes (hgroth16 : k.groth16 = t.groth16)
    (hsolves : t.Solves ((w.proof a b c).inputs k.hash.val) a b c) :
    Check.groth16.fault e (ofKey k) (w.proof a b c) = none := by
  have hb : (w.proof a b c).groth16.b.element = b • G2.generator := G2Coords.element_coords _
  have hkey : (ofKey k).groth16 = t.groth16 := hgroth16
  rw [Check.groth16_passes_iff, w.element_proof, w.element_proof, hb, hkey]
  exact Groth16Key.accepts_of_modEq h hsolves

end Honest

/-- For every setup the key can be made, and for every honest run the public inputs; proofs of
the run are then accepted with all Groth16 points whose multipliers solve the equation. -/
theorem verify_honest (h : e.Bilinear) (t : Trapdoor) {hash : ℤ} {z : ℕ} (hz : 1 ≤ z)
    (hhash : 0 ≤ hash ∧ hash < scalarOrder) (hic : t.ic.length = PublicInputs.count z) :
    ∃ k, t.key hash z = .ok k ∧ ∀ w : HonestRun t.tau z,
      ∃ v, PublicInputs.assemble z (w.statement hash) = .ok v ∧
        ∀ a b c, t.Solves v a b c → (ofKey k).verify e (w.proof a b c) = .ok () := by
  have hcount : (t.groth16.inputCount : ℤ) = PublicInputs.count z := by
    rw [← hic, Groth16Key.inputCount, Trapdoor.groth16, List.length_map]
  obtain ⟨k, hk, hkhash, hkz, hgroth16, hkzg⟩ :=
    DeciderKey.make_eq_ok t.kzg hz hhash hcount
  refine ⟨k, Trapdoor.key_eq_make.trans hk, ?_⟩
  intro w
  have hsized : (w.statement hash).Sized z :=
    ⟨congrArg Nat.cast w.initialState_length, congrArg Nat.cast w.finalState_length, rfl⟩
  refine ⟨_, PublicInputs.assemble_eq_vector hsized, ?_⟩
  intro a b c hsolves
  rw [← w.claim_proof a b c, ← hkhash, ← DeciderProof.inputs_eq_vector] at hsolves
  rw [verify_eq_ok_iff]
  intro check
  cases check with
  | stateLength =>
    exact Check.stateLength_passes_iff.mpr (w.initialState_length.trans hkz.symm)
  | steps => exact Check.steps_passes_iff.mpr w.steps_inRange.1
  | point part => exact Check.point_passes_iff.mpr (w.point_valid a b c part)
  | opening which => exact opening_passes h w a b c hkzg which
  | scalars => exact Check.scalars_passes_iff.mpr (w.scalars_inRange a b c)
  | pointB => exact Check.pointB_passes_iff.mpr (G2Coords.valid_coords (b • G2.generator))
  | groth16 => exact groth16_passes h w a b c hgroth16 hsolves

def sampleTrapdoor : Trapdoor where
  tau := 3
  alpha := 4
  beta := 5
  gamma := 6
  delta := 7
  constant := 8
  ic := List.replicate 38 9

/-- The error term is a commitment to the zero polynomial. -/
def sampleRun : HonestRun sampleTrapdoor.tau 1 where
  steps := 2
  initialState := [3]
  finalState := [4]
  coefficients
    | .witness => [-1, 2, scalarOrder]
    | .errorTerm => []
  randomness := -5
  added
    | .witness => 6
    | .errorTerm => 7
  challenge _ := 2
  steps_inRange := by decide
  initialState_length := by decide
  finalState_length := rfl
  initialState_inRange := by decide
  finalState_inRange := by decide
  challenge_inRange _ := by decide
  challenge_ne _ := by decide

theorem verify_honest_sampleRun : Pairing.logarithmic.Bilinear ∧
    sampleTrapdoor.ic.length = PublicInputs.count (1 : ℕ) ∧ ∃ k v c,
      sampleTrapdoor.key 2 (1 : ℕ) = .ok k ∧
        PublicInputs.assemble (1 : ℕ) (sampleRun.statement 2) = .ok v ∧
        sampleTrapdoor.Solves v 10 11 c ∧
        (ofKey k).verify .logarithmic (sampleRun.proof 10 11 c) = .ok () := by
  have h := Pairing.bilinear_logarithmic
  have hic : sampleTrapdoor.ic.length = PublicInputs.count (1 : ℕ) := by decide
  have hdelta : ¬sampleTrapdoor.delta ≡ 0 [ZMOD scalarOrder] := by decide
  have hhash : (0 : ℤ) ≤ 2 ∧ (2 : ℤ) < scalarOrder := by decide
  obtain ⟨k, hk, hrun⟩ := verify_honest h sampleTrapdoor le_rfl hhash hic
  obtain ⟨v, hv, haccept⟩ := hrun sampleRun
  obtain ⟨c, hc⟩ := Trapdoor.exists_solves hdelta v 10 11
  exact ⟨h, hic, k, v, c, hk, hv, hc, haccept 10 11 c hc⟩

end Decider
end FoldingVerifier
