import FoldingVerifier.Proofs.Decider.EntryPoints

/-! How verification can end. States of another length than the key's are a calling error; in
all other cases the proof is accepted, rejected, or refused for a point of its own. The checks
of sizes behind the first and the points of the key are never the cause. -/
namespace FoldingVerifier

open DeciderProof

/-- Some point that the proof supplies has the defect. -/
def DeciderProof.HasDefect (p : DeciderProof) (c : PointFault) : Prop :=
  (∃ part : PointPart, (part.get p).defect = some c) ∨ p.groth16.b.defect = some c

/-- The ends of a run on a proof whose states have the right length. -/
inductive Verdict (p : DeciderProof) : Except Fault Unit → Prop where
  | accepted : Verdict p (.ok ())
  | rejected (c : Rejection) : Verdict p (.error (.rejected c))
  | malformed (c : PointFault) (h : p.HasDefect c) : Verdict p (.error (.point c))

namespace Verdict

variable {p : DeciderProof} {r : Except Fault Unit}

theorem ne_value (h : Verdict p r) (c : ValueFault) : r ≠ .error (.value c) := by
  rintro rfl
  cases h

/-- A proof of valid points is not refused. -/
theorem ne_point (h : Verdict p r) (hpoints : ∀ part : PointPart, (part.get p).Valid)
    (hb : p.groth16.b.Valid) (c : PointFault) : r ≠ .error (.point c) := by
  rintro rfl
  cases h with
  | malformed _ hdefect =>
    rcases hdefect with ⟨part, hpart⟩ | hpart
    · rw [(G1Coords.defect_eq_none_iff _).mpr (hpoints part)] at hpart
      cases hpart
    · rw [(G2Coords.defect_eq_none_iff _).mpr hb] at hpart
      cases hpart

end Verdict

/-- Each check but the first fails with a rejection, or for a point of the proof. -/
theorem Check.verdict_of_fault {e : Pairing} {d : Decider} {p : DeciderProof} {c : Check}
    {f : Fault} (hz : p.stateLength = d.key.stateLength) (h : c.fault e d p = some f) :
    Verdict p (.error f) := by
  cases c with
  | stateLength => simp [fault, hz] at h
  | point part =>
    obtain ⟨c, hc, rfl⟩ := Option.map_eq_some_iff.mp h
    exact .malformed c (.inl ⟨part, hc⟩)
  | pointB =>
    obtain ⟨c, hc, rfl⟩ := Option.map_eq_some_iff.mp h
    exact .malformed c (.inr hc)
  | steps | scalars | groth16 | opening c =>
    simp only [fault] at h
    split_ifs at h
    cases h
    exact .rejected _

namespace Decider

variable (e : Pairing) {k : DeciderKey} {p : DeciderProof}

theorem verify_verdict {d : Decider} (hz : p.stateLength = d.key.stateLength) :
    Verdict p (d.verify e p) := by
  rw [verify_eq_refuse]
  cases hfirst : Check.order.findSome? (Check.fault e d p) with
  | none => exact .accepted
  | some f =>
    obtain ⟨c, -, hc⟩ := List.exists_of_findSome?_eq_some hfirst
    exact Check.verdict_of_fault hz hc

/-- The runs on a proof in all of its forms: typed, in groups, beside its step count and its
states, and as one array. -/
def entryRuns (k : DeciderKey) (p : DeciderProof) : List (Except Fault Unit) :=
  [(ofKey k).verify e p,
    (ofKey k).verifyGrouped e (.ints p.stepsAndStates) p.groups.arguments,
    (ofKey k).verifyOpaque e p.steps (.ints p.initialState) (.ints p.finalState) (.ints p.toOpaque),
    (ofKey k).verifyFlat e (.ints p.toWords)]

theorem entryRuns_verdict (hz : p.stateLength = k.stateLength) :
    ∀ r ∈ entryRuns e k p, Verdict p r := by
  have hgrouped := verifyGrouped_groups e p (hz ▸ k.stateLength_pos) (ofKey k)
  simp only [entryRuns, hgrouped, verifyOpaque_toOpaque e k p hz, verifyFlat_toWords e k p hz,
    List.forall_mem_cons]
  have hverdict : Verdict p ((ofKey k).verify e p) := verify_verdict e hz
  exact ⟨hverdict, hverdict, hverdict, hverdict, by simp⟩

theorem entryRuns_value (hz : p.stateLength ≠ k.stateLength) :
    ∀ r ∈ entryRuns e k p, ∃ c, r = .error (.value c) := by
  have hverify := verify_of_stateLength_ne e k p hz
  have hvalue {r : Except Fault Unit} (h : SameOrValue r ((ofKey k).verify e p)) :
      ∃ c, r = .error (.value c) := by
    rcases h with rfl | ⟨c, -, rfl, -⟩
    · exact ⟨_, hverify⟩
    · exact ⟨c, rfl⟩
  simp only [entryRuns, List.forall_mem_cons]
  exact ⟨⟨_, hverify⟩, hvalue (verifyGrouped_same e k p), hvalue (verifyOpaque_same e k p),
    hvalue (verifyFlat_same e k p), by simp⟩

end Decider
end FoldingVerifier
