import FoldingVerifier.Proofs.Decider.Acceptance

/-! The public inputs bind the claim. Valid points have coordinates that their limbs denote in
full, so that two proofs which reach the Groth16 proof under one key give it the same inputs
only if they claim the same. -/
namespace FoldingVerifier

theorem G1Coords.Valid.fitsLimbs {P : G1Coords} (h : P.Valid) : P.FitsLimbs := by
  have hq := Limbs.baseOrder_lt_limit.le
  obtain ⟨⟨⟨hx0, hx⟩, hy0, hy⟩, -⟩ := h
  exact ⟨⟨hx0, hx.trans_le hq⟩, hy0, hy.trans_le hq⟩

namespace DeciderProof

/-- Two proofs claim the same, of commitments that may be folded from different ones. -/
structure SameClaim (p p' : DeciderProof) : Prop where
  steps : p.steps = p'.steps
  initialState : p.initialState = p'.initialState
  finalState : p.finalState = p'.finalState
  folded : ∀ c, p.folded c = p'.folded c
  challengeW : p.challengeW = p'.challengeW
  challengeE : p.challengeE = p'.challengeE
  evalW : p.evalW = p'.evalW
  evalE : p.evalE = p'.evalE
  crossTerm : p.crossTerm = p'.crossTerm

theorem claim_eq_iff {hash : ℤ} {p p' : DeciderProof} :
    p.claim hash = p'.claim hash ↔ p.SameClaim p' := by
  constructor
  · intro h
    simp only [claim, Statement.mk.injEq, List.cons.injEq] at h
    obtain ⟨-, hs, hi, hf, hW, hE, ⟨hxW, hxE, hyW, hyE, -⟩, hT⟩ := h
    refine ⟨hs, hi, hf, ?_, hxW, hxE, hyW, hyE, hT⟩
    intro c
    cases c with
    | witness => exact G1.coords_injective hW
    | errorTerm => exact G1.coords_injective hE
  · intro h
    simp only [claim, h.steps, h.initialState, h.finalState, h.folded, h.challengeW, h.challengeE,
      h.evalW, h.evalE, h.crossTerm]

theorem fitsLimbs_claim (p : DeciderProof) (hash : ℤ) (h : p.crossTerm.Valid) :
    (p.claim hash).FitsLimbs where
  witness := (G1Coords.valid_coords _).fitsLimbs
  errorTerm := (G1Coords.valid_coords _).fitsLimbs
  crossTerm := h.fitsLimbs

end DeciderProof

namespace Decider

variable {e : Pairing} {d : Decider} {p p' : DeciderProof}

theorem prepare_eq_ok_iff {v : List ℤ} : d.prepare e p = .ok v ↔
    (∀ c ∈ Check.order.take 10, c.fault e d p = none) ∧ p.inputs d.key.hash.val = v := by
  have hrun : forM (Check.order.take 10) (Check.run e d p) =
      refuse ((Check.order.take 10).findSome? (Check.fault e d p)) := Check.forM_refuse _ _
  rw [prepare_eq_forM, hrun, ← List.findSome?_eq_none_iff]
  cases (Check.order.take 10).findSome? (Check.fault e d p) with
  | none => simp [refuse, pure, Except.pure, bind, Except.bind]
  | some f => simp [refuse, bind, Except.bind]

/-- The inputs are the vector of a claim whose commitments are points. -/
theorem assemble_of_prepare {v : List ℤ} (h : d.prepare e p = .ok v) :
    (p.claim d.key.hash.val).FitsLimbs ∧
      PublicInputs.assemble d.key.stateLength (p.claim d.key.hash.val) = .ok v := by
  obtain ⟨hpass, hv⟩ := prepare_eq_ok_iff.mp h
  have hz : p.stateLength = d.key.stateLength :=
    Check.stateLength_passes_iff.mp (hpass .stateLength (by decide))
  have hT : p.crossTerm.Valid := Check.point_passes_iff.mp (hpass (.point .crossTerm) (by decide))
  refine ⟨p.fitsLimbs_claim _ hT, PublicInputs.assemble_eq_ok_iff.mpr ⟨?_, hv⟩⟩
  rw [← hz]
  exact p.sized_claim d.key.hash.val

theorem prepare_eq_iff {v v' : List ℤ} (h : d.prepare e p = .ok v)
    (h' : d.prepare e p' = .ok v') : v = v' ↔ p.SameClaim p' := by
  obtain ⟨hfits, hassemble⟩ := assemble_of_prepare h
  obtain ⟨hfits', hassemble'⟩ := assemble_of_prepare h'
  rw [PublicInputs.assemble_injOn hfits hfits' hassemble hassemble', DeciderProof.claim_eq_iff]
  exact and_iff_right rfl

/-- Vectors of accepted statements are equal if and only if the statements are, and their
states of one length. A run that gets to the Groth16 proof gives it the vector of what the
proof claims, so that equal inputs are those of equal claims. -/
theorem publicInputs_bind :
    (∀ (z z' : ℤ) (s s' : Statement) (v v' : List ℤ), s.FitsLimbs → s'.FitsLimbs →
      PublicInputs.assemble z s = .ok v → PublicInputs.assemble z' s' = .ok v' →
        (v = v' ↔ z = z' ∧ s = s')) ∧
    (∀ P : G1Coords, P.Valid → P.FitsLimbs) ∧ G1Coords.identity.Valid ∧
    ∀ (e : Pairing) (d : Decider) (p p' : DeciderProof),
      d.verify e p = d.prepare e p >>= d.conclude e p ∧
        ∀ v v', d.prepare e p = .ok v → d.prepare e p' = .ok v' → (v = v' ↔ p.SameClaim p') := by
  refine ⟨?_, fun P h => h.fitsLimbs, G1Coords.valid_coords 0, ?_⟩
  · intro z z' s s' v v' hs hs' h h'
    exact PublicInputs.assemble_injOn hs hs' h h'
  · intro e d p p'
    refine ⟨verify_eq_prepare e d p, ?_⟩
    intro v v' h h'
    exact prepare_eq_iff h h'

/-- The openings do not depend on the last state: another one changes the claim alone. -/
def restatedProof : DeciderProof := { sampleProof with finalState := [5] }

theorem prepare_sampleProof : (ofKey sampleKey).prepare .logarithmic sampleProof =
    .ok (sampleProof.inputs sampleKey.hash.val) := by
  refine prepare_eq_ok_iff.mpr ⟨?_, rfl⟩
  intro c _
  exact (verify_eq_ok_iff _ _ _).mp (verify_sampleProof Pairing.bilinear_logarithmic) c

theorem prepare_restatedProof : (ofKey sampleKey).prepare .logarithmic restatedProof =
    .ok (restatedProof.inputs sampleKey.hash.val) := by
  refine prepare_eq_ok_iff.mpr ⟨?_, rfl⟩
  intro c hc
  have hread : ∀ c ∈ Check.order.take 10, Part.finalState ∉ c.reads := by decide
  rw [← (prepare_eq_ok_iff.mp prepare_sampleProof).1 c hc]
  apply Check.fault_congr
  intro part hpart
  cases part with
  | finalState => exact absurd hpart (hread c hc)
  | scalar part => cases part <;> rfl
  | point part => cases part <;> rfl
  | _ => rfl

/-- Another last state, and with it other inputs. -/
theorem publicInputs_bind_restatedProof : ∃ v v',
    (ofKey sampleKey).prepare .logarithmic sampleProof = .ok v ∧
      (ofKey sampleKey).prepare .logarithmic restatedProof = .ok v' ∧
      (sampleProof.claim 2).FitsLimbs ∧ (restatedProof.claim 2).FitsLimbs ∧
      PublicInputs.assemble 1 (sampleProof.claim 2) = .ok v ∧
      PublicInputs.assemble 1 (restatedProof.claim 2) = .ok v' ∧
      sampleProof.claim 2 ≠ restatedProof.claim 2 ∧ v ≠ v' ∧
      ¬sampleProof.SameClaim restatedProof := by
  have hp := prepare_sampleProof
  have hp' := prepare_restatedProof
  obtain ⟨hfits, hassemble⟩ := assemble_of_prepare hp
  obtain ⟨hfits', hassemble'⟩ := assemble_of_prepare hp'
  obtain ⟨hbind, -, -, hverify⟩ := publicInputs_bind
  have hne : sampleProof.claim 2 ≠ restatedProof.claim 2 := by
    intro h
    have hfinal : ([4] : List ℤ) = [5] := congrArg Statement.finalState h
    exact absurd hfinal (by decide)
  have hv := (hbind 1 1 _ _ _ _ hfits hfits' hassemble hassemble').not.mpr (fun h => hne h.2)
  have hclaim := ((hverify .logarithmic (ofKey sampleKey) sampleProof restatedProof).2 _ _ hp
    hp').not.mp hv
  exact ⟨_, _, hp, hp', hfits, hfits', hassemble, hassemble', hne, hv, hclaim⟩

end Decider
end FoldingVerifier
