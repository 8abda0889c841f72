import FoldingVerifier.Flat
import Mathlib.Tactic

/-! Arrays of integers under the readers. An array of integers has its length for a
shape, and reading its entries changes nothing, so that what the splitters return are
the slices of the list itself. -/
namespace FoldingVerifier

theorem exists_of_bind_eq_ok {α β : Type} {x : Except Fault α} {f : α → Except Fault β} {b : β}
    (h : x >>= f = .ok b) : ∃ a, x = .ok a ∧ f a = .ok b := by
  cases x with
  | error c => cases h
  | ok a => exact ⟨a, rfl, h⟩

theorem bind_eq_ok_iff {α β : Type} {x : Except Fault α} {f : α → Except Fault β} {b : β} :
    x >>= f = .ok b ↔ ∃ a, x = .ok a ∧ f a = .ok b :=
  ⟨exists_of_bind_eq_ok, fun ⟨_, ha, hb⟩ => ha ▸ hb⟩

/-- A list is read item by item. -/
theorem mapM_eq_ok_iff {α β : Type} {f : α → Except Fault β} {as : List α} {bs : List β} :
    as.mapM f = .ok bs ↔ List.Forall₂ (fun a b => f a = .ok b) as bs := by
  induction as generalizing bs with
  | nil => simp [pure, Except.pure, eq_comm]
  | cons a as ih =>
    simp only [List.mapM_cons, bind_eq_ok_iff, ih, List.forall₂_cons_left_iff]
    constructor
    · rintro ⟨b, hb, bs', hbs', h⟩
      cases h
      exact ⟨b, bs', hb, hbs', rfl⟩
    · rintro ⟨b, bs', hb, hbs', rfl⟩
      exact ⟨b, hb, bs', hbs', rfl⟩

/-- What a reader refuses is not so where it goes on. -/
theorem of_guard_eq_ok {α : Type} {c : Prop} [Decidable c] {f : Fault} {x : Except Fault α} {a : α}
    (h : (if c then .error f else x) = .ok a) : ¬c ∧ x = .ok a := by
  by_cases hc : c
  · rw [if_pos hc] at h
    cases h
  · rw [if_neg hc] at h
    exact ⟨hc, h⟩

namespace Json

@[simp] theorem size_ints (ns : List ℤ) : (ints ns).size = .ok ns.length :=
  congrArg Except.ok (List.length_map int)

@[simp] theorem items_ints (ns : List ℤ) : (ints ns).items = .ok (ns.map int) := rfl

theorem mapM_integer (ns : List ℤ) : (ns.map int).mapM integer = .ok ns := by
  induction ns with
  | nil => rfl
  | cons n ns ih =>
    rw [List.map_cons, List.mapM_cons, ih]
    rfl

theorem requireSize_ints (ns : List ℤ) (n : ℕ) (c : ValueFault) :
    (ints ns).requireSize n c = if ns.length = n then .ok () else .error (.value c) := by
  unfold requireSize
  rw [size_ints]
  change (if ns.length ≠ n then _ else _) = _
  rw [ite_not]
  rfl

theorem length_of_requireSize {ns : List ℤ} {n : ℕ} {c : ValueFault}
    (h : (ints ns).requireSize n c = .ok ()) : ns.length = n := by
  rw [requireSize_ints] at h
  by_contra hn
  simp [hn] at h

theorem commonLevels_ints (ns : List ℤ) : commonLevels (ns.map int) = [] := by
  cases ns with
  | nil => rfl
  | cons n ns => cases ns <;> rfl

theorem shape_ints (ns : List ℤ) : (ints ns).shape = [ns.length] := by
  rw [shape, ints, levels, commonLevels_ints, List.length_map]
  rfl

theorem shape_pair (w e : List ℤ) : (arr [ints w, ints e]).shape =
    if w.length = e.length then [2, w.length] else [2] := by
  have hw : (ints w).levels = [w.length] := by
    rw [ints, levels, commonLevels_ints, List.length_map]
  have he : (ints e).levels = [e.length] := by
    rw [ints, levels, commonLevels_ints, List.length_map]
  rw [shape, levels, commonLevels, commonLevels, hw, he]
  · simp only [commonPrefix]
    split_ifs <;> rfl
  · simp

theorem words_ints (a : WordArray) (n : ℤ) (ns : List ℤ) : (ints ns).words a n =
    if (ns.length : ℤ) = n then .ok (ns.map int)
    else .error (.value (.arrayShape a n [ns.length])) := by
  unfold words
  rw [shape_ints]
  rfl

theorem words_ints_eq_ok_iff {a : WordArray} {n : ℤ} {ns : List ℤ} {items : List Json} :
    (ints ns).words a n = .ok items ↔ (ns.length : ℤ) = n ∧ ns.map int = items := by
  rw [words_ints]
  split_ifs with h <;> simp [h]

end Json

namespace Flat

theorem splitProof_ints (ws : List ℤ) : splitProof (.ints ws) =
    if ws.length = proofLength then .ok (.ofWords ws)
    else .error (.value (.arrayShape .opaqueProof proofLength [ws.length])) := by
  rw [splitProof, Json.words_ints]
  by_cases h : ws.length = proofLength
  · rw [if_pos h, if_pos (congrArg Nat.cast h)]
    change (do return ProofGroups.ofWords (← (ws.map Json.int).mapM Json.integer)) = _
    rw [Json.mapM_integer]
    rfl
  · rw [if_neg h, if_neg (fun hz => h (Int.ofNat_inj.mp hz))]
    rfl

/-- The place in a list of `n` items that a bound denotes. -/
def position (n : ℕ) (i : ℤ) : ℕ := if i < 0 then (i + n).toNat else i.toNat

theorem between_eq {α : Type} (xs : List α) (first last : ℤ) :
    between xs first last =
      (xs.take (position xs.length last)).drop (position xs.length first) := rfl

theorem between_natCast {α : Type} (xs : List α) (m n : ℕ) :
    between xs m n = (xs.take n).drop m := by
  have hm : ¬((m : ℤ) < 0) := by omega
  have hn : ¬((n : ℤ) < 0) := by omega
  simp only [between, if_neg hm, if_neg hn, Int.toNat_natCast]

theorem length_between {α : Type} (xs : List α) (first last : ℤ) :
    (between xs first last).length =
      min (position xs.length last) xs.length - position xs.length first := by
  rw [between_eq, List.length_drop, List.length_take]

theorem mapM_between (ws : List ℤ) (first last : ℤ) :
    (between (ws.map Json.int) first last).mapM Json.integer = .ok (between ws first last) := by
  rw [between_eq, List.length_map, ← List.map_take, ← List.map_drop, Json.mapM_integer]
  rfl

theorem split_ints_of_length_ne (z : ℤ) (ws : List ℤ) (h : (ws.length : ℤ) ≠ 26 + 2 * z) :
    split z (.ints ws) = .error (.value (.arrayShape .flatProof (length z) [ws.length])) := by
  rw [split, Json.words_ints, if_neg]
  · rfl
  · rw [length, proofLength]
    omega

/-- An array that is not empty and has the length for the state length is cut into slices. -/
theorem split_ints_eq_ok_iff {z : ℤ} {ws : List ℤ} {parts : FlatParts} :
    split z (.ints ws) = .ok parts ↔ (ws.length : ℤ) = 26 + 2 * z ∧
      ws.head? = some parts.steps ∧ parts.initialState = between ws 1 (1 + z) ∧
      parts.finalState = between ws (1 + z) (1 + 2 * z) ∧
      parts.proof = between ws (1 + 2 * z) ws.length := by
  by_cases hlen : (ws.length : ℤ) = 26 + 2 * z
  · have hlength : length z = 26 + 2 * z := by
      rw [length, proofLength]
      omega
    rw [split, Json.words_ints, if_pos (hlen.trans hlength.symm), and_iff_right hlen]
    cases ws with
    | nil => exact iff_of_false (by rintro ⟨⟩) (by simp)
    | cons n ws =>
      change (do
        let initialState ← (between ((n :: ws).map Json.int) 1 (1 + z)).mapM Json.integer
        let finalState ← (between ((n :: ws).map Json.int) (1 + z) (1 + 2 * z)).mapM Json.integer
        let proof ← (between ((n :: ws).map Json.int) (1 + 2 * z)
          ((n :: ws).map Json.int).length).mapM Json.integer
        return (⟨n, initialState, finalState, proof⟩ : FlatParts)) = _ ↔ _
      rw [mapM_between, mapM_between, mapM_between, List.length_map]
      obtain ⟨steps, initialState, finalState, proof⟩ := parts
      change Except.ok _ = Except.ok _ ↔ _
      simp [eq_comm]
  · rw [split_ints_of_length_ne z ws hlen]
    simp [hlen]

theorem length_pos_of_split {z : ℤ} {ws : List ℤ} {parts : FlatParts}
    (h : split z (.ints ws) = .ok parts) : 0 < ws.length := by
  obtain ⟨-, hhead, -⟩ := split_ints_eq_ok_iff.mp h
  cases ws with
  | nil => cases hhead
  | cons n ws => exact Nat.succ_pos _

/-- The slices of an array of the right length. -/
theorem split_ints (z : ℕ) (n : ℤ) (ws : List ℤ) (h : (n :: ws).length = 26 + 2 * z) :
    split z (.ints (n :: ws)) = .ok ⟨n, ws.take z, (ws.drop z).take z, ws.drop (2 * z)⟩ := by
  have hinitial : between (n :: ws) 1 (1 + z) = ws.take z := by
    have hs := between_natCast (n :: ws) 1 (z + 1)
    rwa [List.take_succ_cons, List.drop_one, List.tail_cons, Nat.cast_add, Nat.cast_one,
      add_comm] at hs
  have hfinal : between (n :: ws) (1 + z) (1 + 2 * z) = (ws.drop z).take z := by
    have hs := between_natCast (n :: ws) (z + 1) (2 * z + 1)
    rw [List.take_succ_cons, List.drop_succ_cons, List.drop_take, two_mul, Nat.add_sub_cancel] at hs
    push_cast at hs
    rwa [add_comm (z : ℤ) 1, add_comm _ (1 : ℤ), ← two_mul] at hs
  have hproof : between (n :: ws) (1 + 2 * z) (n :: ws).length = ws.drop (2 * z) := by
    have hs := between_natCast (n :: ws) (2 * z + 1) (n :: ws).length
    rw [List.take_length, List.drop_succ_cons] at hs
    push_cast at hs ⊢
    rwa [add_comm (1 : ℤ) (2 * z)]
  exact split_ints_eq_ok_iff.mpr
    ⟨by omega, rfl, hinitial.symm, hfinal.symm, hproof.symm⟩

/-- Where both states have the length that is named, each part is found in its place. -/
theorem split_row (n : ℤ) {initial final proof : List ℤ} (h : initial.length = final.length)
    (hproof : proof.length = proofLength) :
    split initial.length (.ints (n :: initial ++ final ++ proof)) =
      .ok ⟨n, initial, final, proof⟩ := by
  have hlen : (n :: (initial ++ (final ++ proof))).length = 26 + 2 * initial.length := by
    rw [List.length_cons, List.length_append, List.length_append, ← h, hproof, proofLength]
    omega
  rw [List.cons_append, List.cons_append, List.append_assoc, split_ints _ _ _ hlen, two_mul,
    ← List.drop_drop, List.take_left, List.drop_left, h, List.take_left, List.drop_left]

/-- States of one length and the words of a proof are put in a row. -/
theorem pack_ints (n : ℤ) (initial final proof : List ℤ) :
    pack (.int n) (.ints initial) (.ints final) (.ints proof) =
      if initial.length ≠ final.length then .error (.value .stateLengthsDiffer)
      else if proof.length = proofLength then .ok (n :: initial ++ final ++ proof)
      else .error (.value (.arrayShape .opaqueProof proofLength [proof.length])) := by
  rw [pack, Json.size_ints, Json.size_ints]
  change (if initial.length ≠ final.length then _ else _) = _
  by_cases hlen : initial.length = final.length
  · rw [if_neg (not_not.mpr hlen), if_neg (not_not.mpr hlen), Json.words_ints, Json.words_ints,
      Json.words_ints, if_pos rfl, if_pos (congrArg Nat.cast hlen.symm)]
    by_cases hproof : proof.length = proofLength
    · rw [if_pos hproof, if_pos (congrArg Nat.cast hproof)]
      change (Json.int n :: initial.map Json.int ++ final.map Json.int ++
        proof.map Json.int).mapM Json.integer = _
      rw [← List.map_cons, ← List.map_append, ← List.map_append, Json.mapM_integer]
    · rw [if_neg hproof, if_neg (fun h => hproof (Int.ofNat_inj.mp h))]
      rfl
  · rw [if_pos hlen, if_pos hlen]
    rfl

end Flat
end FoldingVerifier
