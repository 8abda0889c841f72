import FoldingVerifier.Pairing.OptimalAte
import FoldingVerifier.Proofs.Decider.Checks
import FoldingVerifier.Proofs.Decider.Revalidation

/-! The verifier runs the list of its checks, and the fault of the first that fails is the
outcome. As each check looks at some parts of the proof only, the outcome does not depend
on parts which only later checks look at. -/
namespace FoldingVerifier

open DeciderProof

theorem G1Coords.decode_bind {β : Type} (P : G1Coords) (f : G1 → Except Fault β) :
    P.decode >>= f = refuse (P.defect.map .point) >>= fun _ => f P.element := by
  rw [decode_eq]
  cases P.defect <;> rfl

theorem G2Coords.decode_bind {β : Type} (P : G2Coords) (f : G2 → Except Fault β) :
    P.decode >>= f = refuse (P.defect.map .point) >>= fun _ => f P.element := by
  rw [decode_eq]
  cases P.defect <;> rfl

namespace Decider

theorem fold_eq (e : Pairing) (d : Decider) (p : DeciderProof) (c : Commitment) :
    fold (c.running.get p) (c.added.get p) p.randomness = (do
      (Check.point c.added).run e d p
      (Check.point c.running).run e d p
      return (p.folded c).point) := by
  rw [fold, G1Coords.decode_bind]
  simp only [G1Coords.decode_bind, folded, G1.point_add, G1.point_zsmul]
  rfl

/-- A test that fails with a fault of its own. -/
theorem ite_refuse (c : Prop) [Decidable c] (f : Fault) :
    (if c then return () else throw f : Except Fault Unit) =
      refuse (if c then none else some f) := by
  split_ifs <;> rfl

theorem checkOpening_eq (e : Pairing) (d : Decider) (p : DeciderProof) (c : Commitment) :
    d.checkOpening e c (p.folded c).point (c.opening.get p) (c.challenge.get p)
      (c.evaluation.get p) = (do
        (Check.point c.opening).run e d p
        (Check.opening c).run e d p) := by
  rw [checkOpening, G1Coords.decode_bind]
  simp only [ite_refuse]
  rfl

variable {d : Decider} {p : DeciderProof}

theorem assemble_eq (hz : p.stateLength = d.key.stateLength) :
    PublicInputs.assemble d.key.stateLength
      (d.statement p (p.folded .witness).point (p.folded .errorTerm).point) =
        pure (p.inputs d.key.hash.val) := by
  have hsized := p.sized_claim d.key.hash.val
  rw [hz] at hsized
  exact PublicInputs.assemble_eq_vector hsized

theorem length_inputs_eq (hz : p.stateLength = d.key.stateLength) :
    (p.inputs d.key.hash.val).length = d.groth16.inputCount := by
  have hlen := p.length_inputs d.key.hash.val
  rw [hz, ← d.inputs_agree] at hlen
  exact Int.ofNat_inj.mp hlen

theorem hash_inScalarField (d : Decider) : inScalarField d.key.hash.val = true :=
  inScalarField_iff.mpr ⟨Int.natCast_nonneg _, Int.ofNat_lt.mpr d.key.hash.isLt⟩

theorem groth16_verify_eq (e : Pairing) (hz : p.stateLength = d.key.stateLength) :
    (do if ← d.groth16.verify e p.groth16 (p.inputs d.key.hash.val) then return ()
        else throw (.rejected .groth16)) = (do
      Check.scalars.run e d p
      (Check.point .groth16A).run e d p
      Check.pointB.run e d p
      (Check.point .groth16C).run e d p
      Check.groth16.run e d p) := by
  rw [Groth16Key.verify, if_neg (not_not.mpr (length_inputs_eq hz))]
  by_cases hr : ∀ n ∈ p.scalars, 0 ≤ n ∧ n < scalarOrder
  · have hall := (inputs_inScalarField_iff (hash_inScalarField d) p).mpr hr
    rw [if_pos hall, G1Coords.decode_bind]
    simp only [G1Coords.decode_bind, G2Coords.decode_bind, bind_assoc, pure_bind, ite_refuse]
    rw [Check.run, Check.fault, if_pos hr]
    rfl
  · have hall := mt (inputs_inScalarField_iff (hash_inScalarField d) p).mp hr
    rw [if_neg hall, Check.run, Check.fault, if_neg hr]
    rfl

/-- The run up to the Groth16 proof, with the public inputs that its verification gets. -/
def prepare (e : Pairing) (d : Decider) (p : DeciderProof) : Except Fault (List ℤ) := do
  if p.stateLength ≠ d.key.stateLength then
    throw (.value (.proofStateLength p.stateLength d.key.stateLength))
  if p.steps < minSteps then throw (.rejected .tooFewSteps)
  let witness ← fold p.running.witness p.freshWitness p.randomness
  let errorTerm ← fold p.running.errorTerm p.crossTerm p.randomness
  let inputs ← PublicInputs.assemble d.key.stateLength (d.statement p witness errorTerm)
  d.checkOpening e .witness witness p.openingW p.challengeW p.evalW
  d.checkOpening e .errorTerm errorTerm p.openingE p.challengeE p.evalE
  return inputs

/-- The rest of the run, on the public inputs. -/
def conclude (e : Pairing) (d : Decider) (p : DeciderProof) (inputs : List ℤ) :
    Except Fault Unit := do
  if ← d.groth16.verify e p.groth16 inputs then return ()
  else throw (.rejected .groth16)

theorem verify_eq_prepare (e : Pairing) (d : Decider) (p : DeciderProof) :
    d.verify e p = d.prepare e p >>= d.conclude e p := by
  unfold verify prepare
  by_cases hz : p.stateLength ≠ d.key.stateLength
  · rw [if_pos hz, if_pos hz]
    rfl
  by_cases hs : p.steps < minSteps
  · rw [if_neg hz, if_neg hz, if_pos hs, if_pos hs]
    rfl
  rw [if_neg hz, if_neg hz, if_neg hs, if_neg hs]
  simp only [bind_assoc, pure_bind]
  rfl

/-- The public inputs are those of the proof's claim, once the checks before have passed. -/
theorem prepare_eq_forM (e : Pairing) (d : Decider) (p : DeciderProof) :
    d.prepare e p = (do
      forM (Check.order.take 10) (Check.run e d p)
      return p.inputs d.key.hash.val) := by
  have hfW : fold p.running.witness p.freshWitness p.randomness = _ := fold_eq e d p .witness
  have hfE : fold p.running.errorTerm p.crossTerm p.randomness = _ := fold_eq e d p .errorTerm
  have hoW : d.checkOpening e .witness _ p.openingW p.challengeW p.evalW = _ :=
    checkOpening_eq e d p .witness
  have hoE : d.checkOpening e .errorTerm _ p.openingE p.challengeE p.evalE = _ :=
    checkOpening_eq e d p .errorTerm
  simp only [Check.order, List.take_succ_cons, List.take_zero, List.forM_cons, List.forM_nil]
  unfold prepare minSteps
  by_cases hz : p.stateLength = d.key.stateLength
  · have hrun : Check.stateLength.run e d p = .ok () := Check.run_eq_ok (if_pos hz)
    rw [if_neg (not_not.mpr hz), hrun]
    by_cases hs : p.steps < 2
    · have hrun : Check.steps.run e d p = .error (.rejected .tooFewSteps) :=
        Check.run_eq_error (if_pos hs)
      rw [if_pos hs, hrun]
      rfl
    · have hrun : Check.steps.run e d p = .ok () := Check.run_eq_ok (if_neg hs)
      rw [if_neg hs, hrun, hfW, hfE]
      simp only [bind_assoc, pure_bind, assemble_eq hz]
      rw [hoW, hoE]
      simp only [bind_assoc]
      rfl
  · have hrun : Check.stateLength.run e d p =
        .error (.value (.proofStateLength p.stateLength d.key.stateLength)) :=
      Check.run_eq_error (if_neg hz)
    rw [if_pos hz, hrun]
    rfl

/-- The verifier runs the checks one after another. -/
theorem verify_eq_forM (e : Pairing) (d : Decider) (p : DeciderProof) :
    d.verify e p = forM Check.order (Check.run e d p) := by
  rw [verify_eq_prepare, prepare_eq_forM]
  by_cases hz : p.stateLength = d.key.stateLength
  · rw [← List.take_append_drop 10 Check.order, List.forM_append, bind_assoc]
    congr 1
    funext u
    rw [pure_bind, conclude, groth16_verify_eq e hz]
    simp only [Check.order, List.drop_succ_cons, List.drop_zero, List.forM_cons, List.forM_nil,
      bind_pure_unit]
  · have hrun : Check.stateLength.run e d p =
        .error (.value (.proofStateLength p.stateLength d.key.stateLength)) :=
      Check.run_eq_error (if_neg hz)
    rw [Check.order, List.take_succ_cons, List.forM_cons, List.forM_cons, hrun]
    rfl

theorem verify_eq_refuse (e : Pairing) (d : Decider) (p : DeciderProof) :
    d.verify e p = refuse (Check.order.findSome? (Check.fault e d p)) := by
  rw [verify_eq_forM]
  exact Check.forM_refuse (Check.fault e d p) Check.order

theorem verify_eq_ok_iff (e : Pairing) (d : Decider) (p : DeciderProof) :
    d.verify e p = .ok () ↔ ∀ c : Check, c.fault e d p = none := by
  rw [verify_eq_refuse, Check.refuse_findSome?_eq_ok_iff]
  exact ⟨fun h c => h c c.mem_order, fun h c _ => h c⟩

/-- The first check that fails decides, also where each operation on coordinates checks
them again, and parts that only later checks look at change nothing. -/
theorem verify_first_failure (e : Pairing) (k : DeciderKey) (p : DeciderProof) :
    (ofKey k).verify e p = refuse (Check.order.findSome? (Check.fault e (ofKey k) p)) ∧
      (ofKey k).verifyCoords e p = (ofKey k).verify e p ∧
      ∀ made c later, Check.order = made ++ c :: later → c.fault e (ofKey k) p ≠ none →
        ∀ p', (∀ c' ∈ made ++ [c], ∀ part ∈ c'.reads, part.Agree p p') →
          (ofKey k).verify e p' = (ofKey k).verify e p := by
  refine ⟨verify_eq_refuse e (ofKey k) p, verifyCoords_eq e (ofKey k) p, ?_⟩
  intro made c later horder hc p' hagree
  rw [verify_eq_refuse, verify_eq_refuse, horder]
  congr 1
  symm
  apply Check.findSome?_congr_upTo _ hc
  intro c' hc'
  exact Check.fault_congr e (ofKey k) (hagree c' hc')

end Decider

/-- All points are multiples of the generators; the secret is one. -/
def sampleKey : DeciderKey where
  hash := Residue.ofNat scalarOrder 2
  stateLength := 1
  groth16 :=
    { alpha := G1.generator
      beta := G2.generator
      gamma := G2.generator
      delta := G2.generator
      constant := -(21 • G1.generator)
      ic := List.replicate 38 G1.generator }
  kzg := ⟨G1.generator, G2.generator, G2.generator⟩
  stateLength_pos := Nat.one_pos
  inputs_agree := by decide

/-- Both folded commitments are the identity. -/
def sampleProof : DeciderProof where
  steps := 2
  initialState := [3]
  finalState := [4]
  running := ⟨G1.generator.coords, (-G1.generator).coords⟩
  freshWitness := (-G1.generator).coords
  crossTerm := G1.generator.coords
  randomness := 1
  groth16 := ⟨G1.generator.coords, G2.generator.coords, G1.generator.coords⟩
  challengeW := 2
  challengeE := 2
  evalW := 1
  evalE := 1
  openingW := G1.generator.coords
  openingE := G1.generator.coords
  same_length := rfl

namespace Decider

/-- With one step only, neither a broken point nor another step of the claim matters. -/
theorem verify_first_failure_steps :
    (ofKey sampleKey).verify optimalAte (ScalarPart.steps.set 1 sampleProof) =
        .error (.rejected .tooFewSteps) ∧
      (ofKey sampleKey).verify optimalAte
          (PointPart.groth16C.set ⟨-1, -1⟩ (ScalarPart.steps.set 1 sampleProof)) =
        .error (.rejected .tooFewSteps) := by
  obtain ⟨hfirst, -, hlater⟩ :=
    verify_first_failure optimalAte sampleKey (ScalarPart.steps.set 1 sampleProof)
  have hsteps : (ofKey sampleKey).verify optimalAte (ScalarPart.steps.set 1 sampleProof) =
      .error (.rejected .tooFewSteps) := hfirst
  have hagree := hlater [.stateLength] .steps _ rfl (by decide)
    (PointPart.groth16C.set ⟨-1, -1⟩ (ScalarPart.steps.set 1 sampleProof)) (by
      intro c hc part hpart
      rcases List.mem_append.mp hc with hc | hc
      · obtain rfl := List.mem_singleton.mp hc
        obtain rfl := List.mem_singleton.mp hpart
        rfl
      · obtain rfl := List.mem_singleton.mp hc
        obtain rfl := List.mem_singleton.mp hpart
        rfl)
  exact ⟨hsteps, hagree.trans hsteps⟩

end Decider
end FoldingVerifier
