import FoldingVerifier.Proofs.Cli
import FoldingVerifier.Proofs.Decider.Acceptance
import FoldingVerifier.Proofs.DeciderProof

/-! All ways to hand over a proof lead to one verification. Where the key's state length
is that of the proof they run the same checks on the same proof; where it is not, each
refuses the sizes that it sees first. -/
namespace FoldingVerifier

/-- What callers tell faults apart by: the cause of a rejection in full, of all other
faults the kind of cause. -/
inductive FaultCategory where
  | malformedPoint
  | rejected (cause : Rejection)
  | value
  | kind
  | missingKey
  | noSuchEntry
  | zeroInverse
  | infiniteInteger
  | notJson
  | tooDeep
  | access
deriving DecidableEq, Repr

def Fault.category : Fault → FaultCategory
  | .point _ => .malformedPoint
  | .rejected cause => .rejected cause
  | .value _ => .value
  | .kind _ => .kind
  | .missingKey _ => .missingKey
  | .missingPosition _ => .missingKey
  | .noSuchEntry => .noSuchEntry
  | .zeroInverse => .zeroInverse
  | .infiniteInteger => .infiniteInteger
  | .notJson => .notJson
  | .tooDeep => .tooDeep
  | .access _ => .access

/-- One outcome, or two faults of values. -/
def SameOrValue (r r' : Except Fault Unit) : Prop :=
  r = r' ∨ ∃ c c', r = .error (.value c) ∧ r' = .error (.value c')

theorem SameOrValue.category_eq {r r' : Except Fault Unit} (h : SameOrValue r r') :
    r.mapError Fault.category = r'.mapError Fault.category := by
  rcases h with rfl | ⟨c, c', rfl, rfl⟩
  · rfl
  · rfl

namespace Decider

variable (e : Pairing) (k : DeciderKey) (p : DeciderProof)

theorem verify_of_stateLength_ne (h : p.stateLength ≠ k.stateLength) :
    (ofKey k).verify e p = .error (.value (.proofStateLength p.stateLength k.stateLength)) := by
  rw [verify]
  exact if_pos h

theorem verifyGrouped_groups (h : 0 < p.stateLength) (d : Decider) :
    d.verifyGrouped e (.ints p.stepsAndStates) p.groups.arguments = d.verify e p := by
  rw [verifyGrouped, DeciderProof.ofGrouped_groups p h]
  rfl

theorem verifyOpaque_toOpaque (h : p.stateLength = k.stateLength) :
    (ofKey k).verifyOpaque e p.steps (.ints p.initialState) (.ints p.finalState)
      (.ints p.toOpaque) = (ofKey k).verify e p := by
  have hi : p.initialState.length = (ofKey k).key.stateLength := h
  have hf : p.finalState.length = (ofKey k).key.stateLength := p.same_length.symm.trans h
  have hpos : 0 < p.stateLength := h ▸ k.stateLength_pos
  rw [verifyOpaque]
  simp only [Json.requireSize_ints, if_pos hi, if_pos hf, Json.items_ints,
    Flat.splitProof_ints, if_pos (DeciderProof.length_toOpaque p), DeciderProof.ofWords_toOpaque]
  have hitems : Json.arr (.int p.steps :: p.initialState.map .int ++ p.finalState.map .int) =
      .ints p.stepsAndStates := by
    rw [Json.ints, DeciderProof.stepsAndStates, List.cons_append, List.cons_append, List.map_cons,
      List.map_append]
  rw [← verifyGrouped_groups e p hpos, ← hitems]
  rfl

theorem verifyFlat_toWords (h : p.stateLength = k.stateLength) :
    (ofKey k).verifyFlat e (.ints p.toWords) = (ofKey k).verify e p := by
  have hsplit := DeciderProof.split_toWords p
  rw [h] at hsplit
  rw [verifyFlat, ← verifyOpaque_toOpaque e k p h]
  change (Flat.split k.stateLength (.ints p.toWords) >>= _) = _
  rw [hsplit]
  rfl

theorem verifyOpaque_of_stateLength_ne (h : p.stateLength ≠ k.stateLength) :
    (ofKey k).verifyOpaque e p.steps (.ints p.initialState) (.ints p.finalState)
      (.ints p.toOpaque) = .error (.value (.stateVectorLength k.stateLength)) := by
  have hi : p.initialState.length ≠ (ofKey k).key.stateLength := h
  rw [verifyOpaque]
  simp only [Json.requireSize_ints, if_neg hi]
  rfl

theorem verifyFlat_of_length_ne {ws : List ℤ} (h : ws.length ≠ 26 + 2 * k.stateLength) :
    (ofKey k).verifyFlat e (.ints ws) = .error (.value (.arrayShape .flatProof
      (Flat.length k.stateLength) [ws.length])) := by
  have hz : (ws.length : ℤ) ≠ 26 + 2 * k.stateLength := fun heq => h (by exact_mod_cast heq)
  rw [verifyFlat]
  change (Flat.split k.stateLength (.ints ws) >>= _) = _
  rw [Flat.split_ints_of_length_ne _ ws hz]
  rfl

theorem verifyGrouped_of_stateLength_eq_zero (h : p.stateLength = 0) (d : Decider) :
    d.verifyGrouped e (.ints p.stepsAndStates) p.groups.arguments =
      .error (.value (.stepsAndStatesCount 1)) := by
  rw [verifyGrouped, p.ofGrouped_of_stateLength_eq_zero h]
  rfl

theorem verifyGrouped_same : SameOrValue
    ((ofKey k).verifyGrouped e (.ints p.stepsAndStates) p.groups.arguments)
    ((ofKey k).verify e p) := by
  by_cases hpos : 0 < p.stateLength
  · exact .inl (verifyGrouped_groups e p hpos (ofKey k))
  · have hzero : p.stateLength = 0 := by omega
    have hz : p.stateLength ≠ k.stateLength := hzero ▸ k.stateLength_pos.ne
    exact .inr ⟨_, _, verifyGrouped_of_stateLength_eq_zero e p hzero (ofKey k),
      verify_of_stateLength_ne e k p hz⟩

theorem verifyOpaque_same : SameOrValue
    ((ofKey k).verifyOpaque e p.steps (.ints p.initialState) (.ints p.finalState)
      (.ints p.toOpaque)) ((ofKey k).verify e p) := by
  by_cases hz : p.stateLength = k.stateLength
  · exact .inl (verifyOpaque_toOpaque e k p hz)
  · exact .inr ⟨_, _, verifyOpaque_of_stateLength_ne e k p hz, verify_of_stateLength_ne e k p hz⟩

theorem verifyFlat_same : SameOrValue ((ofKey k).verifyFlat e (.ints p.toWords))
    ((ofKey k).verify e p) := by
  by_cases hz : p.stateLength = k.stateLength
  · exact .inl (verifyFlat_toWords e k p hz)
  · have hlen : p.toWords.length ≠ 26 + 2 * k.stateLength := by
      rw [DeciderProof.length_toWords]
      omega
    exact .inr ⟨_, _, verifyFlat_of_length_ne e k hlen, verify_of_stateLength_ne e k p hz⟩

end Decider

namespace Cli

/-- How a run ends that has verified with the given result. -/
def statusAfter (r : Except Fault Unit) : Except Fault ℕ :=
  (report r).map fun d => (d.map Diagnostic.status).getD 0

theorem statusAfter_congr {r r' : Except Fault Unit} (h : SameOrValue r r') :
    statusAfter r = statusAfter r' := by
  rcases h with rfl | ⟨c, c', rfl, rfl⟩
  · rfl
  · rfl

/-- The form of the words matters for the last step of a run only. -/
theorem run_status (e : Pairing) (files : String → Entry) (key proof : String) (flat : Bool)
    (maxDepth : ℕ) :
    (run e files ⟨key, proof, flat⟩ maxDepth).map Outcome.status = (do
      match ← load files key (DeciderKey.ofText · maxDepth) with
      | .error d => return d.status
      | .ok k =>
          match ← load files proof (DeciderProof.ofText · maxDepth) with
          | .error d => return d.status
          | .ok p =>
              statusAfter (if flat then (Decider.ofKey k).verifyFlat e (.ints p.toWords)
                else (Decider.ofKey k).verify e p)) := by
  unfold run
  cases load files key (DeciderKey.ofText · maxDepth) with
  | error f => rfl
  | ok loaded =>
    cases loaded with
    | error d => rfl
    | ok k =>
      cases load files proof (DeciderProof.ofText · maxDepth) with
      | error f => rfl
      | ok loaded =>
        cases loaded with
        | error d => rfl
        | ok p =>
          change Except.map Outcome.status (report _ >>= _) = statusAfter _
          rw [statusAfter]
          cases report (if flat then (Decider.ofKey k).verifyFlat e (.ints p.toWords)
            else (Decider.ofKey k).verify e p) with
          | error f => rfl
          | ok d => cases d <;> rfl

/-- How the command line ends: refused arguments, a status, or a fault that is not
reported. -/
def ending (e : Pairing) (files : String → Entry) (args : List String) (maxDepth : ℕ) :
    Except Refusal (Except Fault ℕ) :=
  (parse args).map fun o => (run e files o maxDepth).map Outcome.status

theorem run_flat_status (e : Pairing) (files : String → Entry) (key proof : String)
    (maxDepth : ℕ) : (run e files ⟨key, proof, true⟩ maxDepth).map Outcome.status =
      (run e files ⟨key, proof, false⟩ maxDepth).map Outcome.status := by
  have hsame (k : DeciderKey) (p : DeciderProof) :=
    statusAfter_congr (Decider.verifyFlat_same e k p)
  rw [run_status, run_status]
  simp only [↓reduceIte, hsame, Bool.false_eq_true]

theorem ending_append_flat (e : Pairing) (files : String → Entry) (args : List String)
    (maxDepth : ℕ) :
    ending e files (args ++ ["--opaque"]) maxDepth = ending e files args maxDepth := by
  rw [ending, ending, parse_append_flat]
  cases parse args with
  | error x => rfl
  | ok o =>
    change Except.ok ((run e files { o with flat := true } maxDepth).map Outcome.status) =
      Except.ok ((run e files o maxDepth).map Outcome.status)
    obtain ⟨key, proof, flat⟩ := o
    cases flat with
    | true => rfl
    | false => exact congrArg Except.ok (run_flat_status e files key proof maxDepth)

end Cli

/-- A proof in any of its forms, any words in a row, and any command line: with and
without the one-array form the outcome is that of the checks on one proof. -/
theorem Decider.entryPoints_agree (e : Pairing) (k : DeciderKey) :
    (∀ p : DeciderProof,
      Flat.packProof p.groups.arguments = .ok p.toOpaque ∧
      Flat.pack (.int p.steps) (.ints p.initialState) (.ints p.finalState) (.ints p.toOpaque) =
        .ok p.toWords ∧
      ∀ r ∈ [(ofKey k).verifyGrouped e (.ints p.stepsAndStates) p.groups.arguments,
          (ofKey k).verifyOpaque e p.steps (.ints p.initialState) (.ints p.finalState)
            (.ints p.toOpaque),
          (ofKey k).verifyFlat e (.ints p.toWords)],
        r.mapError Fault.category = ((ofKey k).verify e p).mapError Fault.category ∧
          (p.stateLength = k.stateLength → r = (ofKey k).verify e p)) ∧
    (∀ ws : List ℤ,
      (ws.length = 26 + 2 * k.stateLength →
        ∃ p, DeciderProof.ofWords k.stateLength (.ints ws) = .ok p ∧
          (ofKey k).verifyFlat e (.ints ws) = (ofKey k).verify e p) ∧
      (ws.length ≠ 26 + 2 * k.stateLength →
        ∃ c, (ofKey k).verifyFlat e (.ints ws) = .error (.value c))) ∧
    ∀ files args maxDepth,
      Cli.ending e files (args ++ ["--opaque"]) maxDepth = Cli.ending e files args maxDepth := by
  refine ⟨?_, ?_, Cli.ending_append_flat e⟩
  · intro p
    refine ⟨p.packProof_groups, p.pack_stepsAndStates, ?_⟩
    intro r hr
    simp only [List.mem_cons, List.not_mem_nil, or_false] at hr
    rcases hr with rfl | rfl | rfl
    · refine ⟨(verifyGrouped_same e k p).category_eq, fun hz => ?_⟩
      exact verifyGrouped_groups e p (hz ▸ k.stateLength_pos) (ofKey k)
    · exact ⟨(verifyOpaque_same e k p).category_eq, verifyOpaque_toOpaque e k p⟩
    · exact ⟨(verifyFlat_same e k p).category_eq, verifyFlat_toWords e k p⟩
  · intro ws
    refine ⟨fun hlen => ?_, fun hlen => ⟨_, verifyFlat_of_length_ne e k hlen⟩⟩
    obtain ⟨p, hz, rfl⟩ := DeciderProof.exists_toWords hlen
    have hwords := DeciderProof.ofWords_toWords p (hz ▸ k.stateLength_pos)
    rw [hz] at hwords
    exact ⟨p, hwords, verifyFlat_toWords e k p hz⟩

theorem Decider.verifyFlat_sampleProof : sampleProof.stateLength = sampleKey.stateLength ∧
    (ofKey sampleKey).verifyFlat .logarithmic (.ints sampleProof.toWords) = .ok () := by
  have hagree := ((entryPoints_agree .logarithmic sampleKey).1 sampleProof).2.2 _
    (List.mem_cons_of_mem _ (List.mem_cons_of_mem _ (List.mem_singleton_self _)))
  exact ⟨rfl, (hagree.2 rfl).trans (verify_sampleProof Pairing.bilinear_logarithmic)⟩

end FoldingVerifier
