import FoldingVerifier.Proofs.Decider.Inputs

/-! The checks of the verifier as a list, each with the fault that its failure is reported
as, the condition under which it passes, and the parts of a proof that it looks at. -/
namespace FoldingVerifier

open DeciderProof

/-- A part of a proof, down to what one check can look at alone. -/
inductive Part where
  | stateLength
  | initialState
  | finalState
  | scalar (part : ScalarPart)
  | point (part : PointPart)
  | pointB
deriving DecidableEq, Repr

/-- Two proofs hold the same in a part. -/
def Part.Agree (p p' : DeciderProof) : Part → Prop
  | stateLength => p.stateLength = p'.stateLength
  | initialState => p.initialState = p'.initialState
  | finalState => p.finalState = p'.finalState
  | scalar part => part.get p = part.get p'
  | point part => part.get p = part.get p'
  | pointB => p.groth16.b = p'.groth16.b

inductive Check where
  | stateLength
  | steps
  /-- The coordinates are those of a group element. -/
  | point (part : PointPart)
  /-- The folded commitment opens as claimed. -/
  | opening (c : Commitment)
  /-- What becomes a public input as it is has to be a canonical scalar. -/
  | scalars
  | pointB
  | groth16
deriving DecidableEq, Repr

namespace Check

/-- The order in which the checks are made. -/
def order : List Check :=
  [.stateLength, .steps, .point .freshWitness, .point .runningWitness, .point .crossTerm,
    .point .runningErrorTerm, .point .openingW, .opening .witness, .point .openingE,
    .opening .errorTerm, .scalars, .point .groth16A, .pointB, .point .groth16C, .groth16]

/-- The fault that a failed check is reported as. Group elements stand for coordinates
that earlier checks have passed. -/
def fault (e : Pairing) (d : Decider) (p : DeciderProof) : Check → Option Fault
  | stateLength =>
      if p.stateLength = d.key.stateLength then none
      else some (.value (.proofStateLength p.stateLength d.key.stateLength))
  | steps => if p.steps < 2 then some (.rejected .tooFewSteps) else none
  | point part => (part.get p).defect.map .point
  | opening c =>
      if d.kzg.opens e (p.folded c).point (p.element c.opening).point (c.challenge.get p)
          (c.evaluation.get p) then none
      else some (.rejected (.opening c))
  | scalars =>
      if ∀ n ∈ p.scalars, 0 ≤ n ∧ n < scalarOrder then none else some (.rejected .groth16)
  | pointB => p.groth16.b.defect.map .point
  | groth16 =>
      if d.groth16.accepts e (p.element .groth16A) p.groth16.b.element (p.element .groth16C)
          (p.inputs d.key.hash.val) then none
      else some (.rejected .groth16)

/-- The parts that a check looks at. -/
def reads : Check → List Part
  | stateLength => [.stateLength]
  | steps => [.scalar .steps]
  | point part => [.point part]
  | opening c =>
      [.point c.running, .point c.added, .scalar .randomness, .point c.opening,
        .scalar c.challenge, .scalar c.evaluation]
  | scalars =>
      [.scalar .steps, .initialState, .finalState, .scalar .challengeW, .scalar .challengeE,
        .scalar .evalW, .scalar .evalE]
  | pointB => [.pointB]
  | groth16 =>
      [.point .groth16A, .pointB, .point .groth16C, .scalar .steps, .initialState, .finalState,
        .point .runningWitness, .point .freshWitness, .point .runningErrorTerm,
        .point .crossTerm, .scalar .randomness, .scalar .challengeW, .scalar .challengeE,
        .scalar .evalW, .scalar .evalE]

theorem mem_order (c : Check) : c ∈ order := by
  cases c with
  | point part => cases part <;> decide
  | opening c => cases c <;> decide
  | _ => decide

def run (e : Pairing) (d : Decider) (p : DeciderProof) (c : Check) : Except Fault Unit :=
  refuse (c.fault e d p)

theorem run_eq_ok {e : Pairing} {d : Decider} {p : DeciderProof} {c : Check}
    (h : c.fault e d p = none) : c.run e d p = .ok () := by
  rw [run, h]
  rfl

theorem run_eq_error {e : Pairing} {d : Decider} {p : DeciderProof} {c : Check} {f : Fault}
    (h : c.fault e d p = some f) : c.run e d p = .error f := by
  rw [run, h]
  rfl

theorem forM_refuse {α : Type*} (f : α → Option Fault) (xs : List α) :
    forM xs (fun x => refuse (f x)) = refuse (xs.findSome? f) := by
  induction xs with
  | nil => rfl
  | cons x xs ih =>
    rw [List.forM_cons, List.findSome?_cons]
    cases f x with
    | none => exact ih
    | some c => rfl

theorem refuse_findSome?_eq_ok_iff {α : Type*} {f : α → Option Fault} {xs : List α} :
    refuse (xs.findSome? f) = .ok () ↔ ∀ x ∈ xs, f x = none := by
  rw [← List.findSome?_eq_none_iff]
  cases xs.findSome? f with
  | none => exact iff_of_true rfl rfl
  | some c => exact iff_of_false (by rintro ⟨⟩) (by rintro ⟨⟩)

theorem findSome?_of_first {α : Type*} {f : α → Option Fault} {xs ys : List α} {x : α} {c : Fault}
    (hxs : ∀ y ∈ xs, f y = none) (hx : f x = some c) :
    (xs ++ x :: ys).findSome? f = some c := by
  rw [List.findSome?_append, List.findSome?_eq_none_iff.mpr hxs, Option.none_or,
    List.findSome?_cons, hx]

/-- Where an element fails, what comes after it does not matter. -/
theorem findSome?_congr_upTo {α : Type*} {f g : α → Option Fault} {xs ys : List α} {x : α}
    (hfg : ∀ y ∈ xs ++ [x], f y = g y) (hx : f x ≠ none) :
    (xs ++ x :: ys).findSome? f = (xs ++ x :: ys).findSome? g := by
  induction xs with
  | nil =>
    rw [List.nil_append, List.findSome?_cons, List.findSome?_cons,
      ← hfg x (List.mem_singleton_self x)]
    cases hc : f x with
    | none => exact absurd hc hx
    | some c => rfl
  | cons y xs ih =>
    rw [List.cons_append, List.findSome?_cons, List.findSome?_cons, hfg y List.mem_cons_self,
      ih (fun z hz => hfg z (List.mem_cons_of_mem y hz))]

theorem folded_congr {p p' : DeciderProof} {c : Commitment}
    (hU : c.running.get p = c.running.get p') (hu : c.added.get p = c.added.get p')
    (hr : p.randomness = p'.randomness) : p.folded c = p'.folded c := by
  rw [folded, folded, element, element, element, element, hU, hu, hr]

theorem fault_congr (e : Pairing) (d : Decider) {p p' : DeciderProof} {c : Check}
    (h : ∀ part ∈ c.reads, part.Agree p p') : c.fault e d p = c.fault e d p' := by
  cases c with
  | stateLength =>
    have hz : p.stateLength = p'.stateLength := h _ List.mem_cons_self
    rw [fault, fault, hz]
  | steps =>
    have hs : p.steps = p'.steps := h _ List.mem_cons_self
    rw [fault, fault, hs]
  | point part =>
    have hp : part.get p = part.get p' := h _ List.mem_cons_self
    rw [fault, fault, hp]
  | opening c =>
    simp only [reads, List.forall_mem_cons] at h
    obtain ⟨hU, hu, hr, hπ, hx, hy, -⟩ := h
    have hx' : c.challenge.get p = c.challenge.get p' := hx
    have hy' : c.evaluation.get p = c.evaluation.get p' := hy
    have hπ' : p.element c.opening = p'.element c.opening := congrArg G1Coords.element hπ
    rw [fault, fault, folded_congr hU hu hr, hx', hy', hπ']
  | scalars =>
    simp only [reads, List.forall_mem_cons] at h
    obtain ⟨hs, hi, hf, hxW, hxE, hyW, hyE, -⟩ := h
    have hscalars : p.scalars = p'.scalars := by
      simp only [Part.Agree, ScalarPart.get] at hs hi hf hxW hxE hyW hyE
      rw [DeciderProof.scalars, DeciderProof.scalars, stepsAndStates, stepsAndStates, hs, hi, hf,
        hxW, hxE, hyW, hyE]
    rw [fault, fault, hscalars]
  | pointB =>
    have hb : p.groth16.b = p'.groth16.b := h _ List.mem_cons_self
    rw [fault, fault, hb]
  | groth16 =>
    simp only [reads, List.forall_mem_cons] at h
    obtain ⟨ha, hb, hc, hs, hi, hf, hUW, huW, hUE, huE, hr, hxW, hxE, hyW, hyE, -⟩ := h
    have hinputs : p.inputs d.key.hash.val = p'.inputs d.key.hash.val := by
      have hW : p.folded .witness = p'.folded .witness := folded_congr hUW huW hr
      have hE : p.folded .errorTerm = p'.folded .errorTerm := folded_congr hUE huE hr
      simp only [Part.Agree, ScalarPart.get, PointPart.get] at hs hi hf hxW hxE hyW hyE huE
      rw [inputs, inputs, hs, hi, hf, hW, hE, hxW, hxE, hyW, hyE, huE]
    have ha' : p.element .groth16A = p'.element .groth16A := congrArg G1Coords.element ha
    have hc' : p.element .groth16C = p'.element .groth16C := congrArg G1Coords.element hc
    have hb' : p.groth16.b = p'.groth16.b := hb
    rw [fault, fault, hinputs, ha', hb', hc']

section Passes

variable {e : Pairing} {d : Decider} {p : DeciderProof}

theorem ite_fault_eq_none_iff {c : Prop} [Decidable c] {f : Fault} :
    (if c then none else some f) = none ↔ c := by
  by_cases hc : c
  · rw [if_pos hc]
    exact iff_of_true rfl hc
  · rw [if_neg hc]
    exact iff_of_false (Option.some_ne_none f) hc

theorem stateLength_passes_iff :
    stateLength.fault e d p = none ↔ p.stateLength = d.key.stateLength := by
  rw [fault, ite_fault_eq_none_iff]

theorem steps_passes_iff : steps.fault e d p = none ↔ 2 ≤ p.steps := by
  rw [fault, ← ite_not, ite_fault_eq_none_iff, not_lt]

theorem point_passes_iff {part : PointPart} :
    (point part).fault e d p = none ↔ (part.get p).Valid := by
  rw [fault, Option.map_eq_none_iff, G1Coords.defect_eq_none_iff]

theorem pointB_passes_iff : pointB.fault e d p = none ↔ p.groth16.b.Valid := by
  rw [fault, Option.map_eq_none_iff, G2Coords.defect_eq_none_iff]

theorem scalars_passes_iff :
    scalars.fault e d p = none ↔ ∀ n ∈ p.scalars, 0 ≤ n ∧ n < scalarOrder := by
  rw [fault, ite_fault_eq_none_iff]

theorem opening_passes_iff {c : Commitment} :
    (opening c).fault e d p = none ↔
      d.kzg.opens e (p.folded c).point (p.element c.opening).point (c.challenge.get p)
        (c.evaluation.get p) = true := by
  rw [fault, ite_fault_eq_none_iff]

theorem groth16_passes_iff :
    groth16.fault e d p = none ↔
      d.groth16.accepts e (p.element .groth16A) p.groth16.b.element (p.element .groth16C)
        (p.inputs d.key.hash.val) = true := by
  rw [fault, ite_fault_eq_none_iff]

end Passes

end Check

end FoldingVerifier
