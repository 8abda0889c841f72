import FoldingVerifier.Proofs.Decider.FirstFailure
import FoldingVerifier.Proofs.Decider.Revalidation

/-! Malformed points abort. An operation looks at every point that it is handed, also where
the point would not matter for the result, and it aborts for no other cause; the points that
it returns are those of elements again. -/
namespace FoldingVerifier

/-- How an operation ends if the points handed to it are all valid, and how if they are not. -/
inductive Guarded {α : Type} (valid : Prop) : Except Fault α → Prop where
  | returns (a : α) (h : valid) : Guarded valid (.ok a)
  | aborts (c : PointFault) (h : ¬valid) : Guarded valid (.error (.point c))

namespace Guarded

variable {α β : Type} {valid valid' : Prop} {r : Except Fault α}

theorem aborts_iff (h : Guarded valid r) : (∃ c, r = .error (.point c)) ↔ ¬valid := by
  cases h with
  | returns a hv => simp [hv]
  | aborts c hv => simp [hv]

theorem returns_iff (h : Guarded valid r) : (∃ a, r = .ok a) ↔ valid := by
  cases h with
  | returns a hv => simp [hv]
  | aborts c hv => simp [hv]

theorem congr (h : Guarded valid r) (hiff : valid ↔ valid') : Guarded valid' r := by
  cases h with
  | returns a hv => exact .returns a (hiff.mp hv)
  | aborts c hv => exact .aborts c (fun hv' => hv (hiff.mpr hv'))

theorem pure (a : α) : Guarded True (.ok a) := .returns a trivial

/-- What comes after is looked at only where nothing before was malformed. -/
theorem bind {f : α → Except Fault β} (h : Guarded valid r) (hf : ∀ a, Guarded valid' (f a)) :
    Guarded (valid ∧ valid') (r >>= f) := by
  cases h with
  | returns a hv => exact (hf a).congr (by simp [hv])
  | aborts c hv => exact .aborts c (fun hboth => hv hboth.1)

/-- A last step that aborts for no point. -/
theorem map (h : Guarded valid r) (f : α → β) : Guarded valid (r >>= fun a => .ok (f a)) :=
  (h.bind fun a => pure (f a)).congr (by simp)

theorem mapM {f : α → Except Fault β} {valid : α → Prop} (h : ∀ a, Guarded (valid a) (f a))
    (as : List α) : Guarded (∀ a ∈ as, valid a) (as.mapM f) := by
  induction as with
  | nil => exact (pure []).congr (by simp)
  | cons a as ih =>
    rw [List.mapM_cons]
    exact ((h a).bind fun b => ih.map (b :: ·)).congr (by simp)

end Guarded

theorem G1Coords.guarded_decode (P : G1Coords) : Guarded P.Valid P.decode := by
  rcases P.decode_cases with ⟨Q, hd, hQ, -⟩ | ⟨c, hd, hc⟩
  · rw [hQ]
    exact .returns Q ((defect_eq_none_iff P).mp hd)
  · rw [hc]
    exact .aborts c (fun hv => by simp [(defect_eq_none_iff P).mpr hv] at hd)

theorem G2Coords.guarded_decode (Q : G2Coords) : Guarded Q.Valid Q.decode := by
  rcases Q.decode_cases with ⟨P, hd, hP, -⟩ | ⟨c, hd, hc⟩
  · rw [hP]
    exact .returns P ((defect_eq_none_iff Q).mp hd)
  · rw [hc]
    exact .aborts c (fun hv => by simp [(defect_eq_none_iff Q).mpr hv] at hd)

/-- Coordinates as they are returned for an element. -/
structure G1Coords.Denotes (R : G1Coords) (Q : G1) : Prop where
  valid : R.Valid
  element_eq : R.element = Q
  identity_iff : R = .identity ↔ Q = 0

namespace G1Coords

theorem denotes_coords (Q : G1) : Q.coords.Denotes Q where
  valid := valid_coords Q
  element_eq := element_coords Q
  identity_iff := G1.coords_injective.eq_iff' rfl

theorem decode_of_valid {P : G1Coords} (h : P.Valid) : P.decode = .ok P.element :=
  decode_eq_ok_iff.mpr (coords_element h)

/-- An operation of the group on one point, which is looked at first. -/
theorem guarded_unary {P : G1Coords} {r : Except Fault G1Coords} (op : G1 → G1)
    (hr : r = P.decode >>= fun p => .ok (op p).coords) :
    Guarded P.Valid r ∧ ∀ R, r = .ok R → R.Denotes (op P.element) := by
  have hguarded : Guarded P.Valid r := hr ▸ P.guarded_decode.map fun p => (op p).coords
  refine ⟨hguarded, ?_⟩
  intro R hR
  have hP := hguarded.returns_iff.mp ⟨R, hR⟩
  rw [hr, decode_of_valid hP] at hR
  cases hR
  exact denotes_coords _

theorem guarded_add (P Q : G1Coords) : Guarded (P.Valid ∧ Q.Valid) (P.add Q) ∧
    ∀ R, P.add Q = .ok R → R.Denotes (P.element + Q.element) := by
  have hguarded : Guarded (P.Valid ∧ Q.Valid) (P.add Q) :=
    P.guarded_decode.bind fun p => Q.guarded_decode.map fun q => (p + q).coords
  refine ⟨hguarded, ?_⟩
  intro R hR
  obtain ⟨hP, hQ⟩ := hguarded.returns_iff.mp ⟨R, hR⟩
  rw [add_eq, decode_of_valid hP, decode_of_valid hQ] at hR
  cases hR
  exact denotes_coords _

/-- Coordinates that are valid are canonical, so that no others of the same residues are. -/
theorem Valid.eq_of_modEq {P Q : G1Coords} (hP : P.Valid) (hQ : Q.Valid)
    (hx : P.x ≡ Q.x [ZMOD baseOrder]) (hy : P.y ≡ Q.y [ZMOD baseOrder]) : P = Q := by
  obtain ⟨⟨hPx, hPx'⟩, hPy, hPy'⟩ := hP.1
  obtain ⟨⟨hQx, hQx'⟩, hQy, hQy'⟩ := hQ.1
  cases P
  cases Q
  simp_all only [Int.ModEq, Int.emod_eq_of_lt]

end G1Coords

theorem G2Coords.decode_of_valid {Q : G2Coords} (h : Q.Valid) : Q.decode = .ok Q.element :=
  decode_eq_ok_iff.mpr (coords_element h)

theorem G2Coords.Valid.eq_of_modEq {P Q : G2Coords} (hP : P.Valid) (hQ : Q.Valid)
    (hx0 : P.x0 ≡ Q.x0 [ZMOD baseOrder]) (hx1 : P.x1 ≡ Q.x1 [ZMOD baseOrder])
    (hy0 : P.y0 ≡ Q.y0 [ZMOD baseOrder]) (hy1 : P.y1 ≡ Q.y1 [ZMOD baseOrder]) : P = Q := by
  obtain ⟨⟨_, _⟩, ⟨_, _⟩, ⟨_, _⟩, _, _⟩ := hP.1
  obtain ⟨⟨_, _⟩, ⟨_, _⟩, ⟨_, _⟩, _, _⟩ := hQ.1
  cases P
  cases Q
  simp_all only [Int.ModEq, Int.emod_eq_of_lt]

theorem Pairing.guarded_check (e : Pairing) (pairs : List (G1Coords × G2Coords)) :
    Guarded (∀ pair ∈ pairs, pair.1.Valid ∧ pair.2.Valid) (e.check pairs) := by
  have hpair (pair : G1Coords × G2Coords) :
      Guarded (pair.1.Valid ∧ pair.2.Valid) (decodePair pair) :=
    pair.1.guarded_decode.bind fun p => pair.2.guarded_decode.map fun q => (p.point, q.point)
  exact (Guarded.mapM hpair pairs).map e.productIsOne

theorem KzgKey.guarded_check (e : Pairing) (k : KzgKey) (C π : G1Coords) (x y : ℤ) :
    Guarded (C.Valid ∧ π.Valid) (k.check e C π x y) :=
  (π.guarded_decode.bind fun p => C.guarded_decode.map fun c =>
    k.opens e c.point p.point x y).congr and_comm

theorem Groth16Key.guarded_verify (e : Pairing) (k : Groth16Key) (p : Groth16Proof) {xs : List ℤ}
    (hlen : xs.length = k.inputCount) (hxs : ∀ x ∈ xs, 0 ≤ x ∧ x < scalarOrder) :
    Guarded (p.a.Valid ∧ p.b.Valid ∧ p.c.Valid) (k.verify e p xs) := by
  rw [verify_of_inScalarField e k p hlen (all_inScalarField_iff.mpr hxs)]
  exact p.a.guarded_decode.bind fun a => p.b.guarded_decode.bind fun b =>
    p.c.guarded_decode.map fun c => k.accepts e a b c xs

/-- Every operation on points aborts exactly where one of them is not valid. -/
theorem malformed_points_abort (e : Pairing) :
    (∀ P : G1Coords, Guarded P.Valid P.negate ∧
      ∀ R, P.negate = .ok R → R.Denotes (-P.element)) ∧
    (∀ P Q : G1Coords, Guarded (P.Valid ∧ Q.Valid) (P.add Q) ∧
      ∀ R, P.add Q = .ok R → R.Denotes (P.element + Q.element)) ∧
    (∀ (P : G1Coords) (s : ℤ), Guarded P.Valid (P.mulScalar s) ∧
      ∀ R, P.mulScalar s = .ok R → R.Denotes (s • P.element)) ∧
    (∀ pairs : List (G1Coords × G2Coords),
      Guarded (∀ pair ∈ pairs, pair.1.Valid ∧ pair.2.Valid) (e.check pairs)) ∧
    (∀ (P P' : G1Coords) (Q Q' : G2Coords),
      Guarded ((P.Valid ∧ Q.Valid) ∧ P'.Valid ∧ Q'.Valid) (e.check [(P, Q), (P', Q')])) ∧
    (∀ (k : KzgKey) (C π : G1Coords) (x y : ℤ),
      ∀ r ∈ [k.check e C π x y, k.checkCoords e C π x y], Guarded (C.Valid ∧ π.Valid) r) ∧
    (∀ (k : Groth16Key) (p : Groth16Proof) (xs : List ℤ), xs.length = k.inputCount →
      (∀ x ∈ xs, 0 ≤ x ∧ x < scalarOrder) →
      ∀ r ∈ [k.verify e p xs, k.verifyCoords e p xs],
        Guarded (p.a.Valid ∧ p.b.Valid ∧ p.c.Valid) r) ∧
    (∀ P R : G1Coords, R.Valid → P.x ≡ R.x [ZMOD baseOrder] → P.y ≡ R.y [ZMOD baseOrder] →
      P ≠ R → ¬P.Valid) ∧
    ∀ P R : G2Coords, R.Valid → P.x0 ≡ R.x0 [ZMOD baseOrder] → P.x1 ≡ R.x1 [ZMOD baseOrder] →
      P.y0 ≡ R.y0 [ZMOD baseOrder] → P.y1 ≡ R.y1 [ZMOD baseOrder] → P ≠ R → ¬P.Valid := by
  refine ⟨?_, G1Coords.guarded_add, ?_, e.guarded_check, ?_, ?_, ?_, ?_, ?_⟩
  · intro P
    exact G1Coords.guarded_unary (fun p => -p) P.negate_eq
  · intro P s
    exact G1Coords.guarded_unary (fun p => s • p) (P.mulScalar_eq s)
  · intro P P' Q Q'
    exact (e.guarded_check [(P, Q), (P', Q')]).congr (by simp)
  · intro k C π x y
    simp only [k.checkCoords_eq e C π x y, List.forall_mem_cons]
    exact ⟨k.guarded_check e C π x y, k.guarded_check e C π x y, by simp⟩
  · intro k p xs hlen hxs
    simp only [k.verifyCoords_eq e p xs, List.forall_mem_cons]
    exact ⟨k.guarded_verify e p hlen hxs, k.guarded_verify e p hlen hxs, by simp⟩
  · intro P R hR hx hy hne hP
    exact hne (hP.eq_of_modEq hR hx hy)
  · intro P R hR hx0 hx1 hy0 hy1 hne hP
    exact hne (hP.eq_of_modEq hR hx0 hx1 hy0 hy1)

/-- The generator, and the same residues written one modulus higher. -/
theorem malformed_points_abort_shifted :
    let shifted : G1Coords := ⟨1 + baseOrder, 2⟩
    (∃ R, G1Coords.generator.mulScalar 0 = .ok R ∧ R = .identity) ∧
    (∃ c, shifted.mulScalar 0 = .error (.point c)) ∧
    (∃ c, optimalAte.check [(shifted, .identity)] = .error (.point c)) ∧
    ∃ c, sampleKey.groth16.verify optimalAte ⟨.identity, .identity, shifted⟩ (List.replicate 38 0) =
      .error (.point c) := by
  obtain ⟨-, -, hmul, hcheck, -, -, hverify, hshift, -⟩ := malformed_points_abort optimalAte
  have hgenerator : G1Coords.generator.Valid := G1.coords_generator ▸ G1Coords.valid_coords _
  have hshifted : ¬(⟨1 + baseOrder, 2⟩ : G1Coords).Valid :=
    hshift _ .generator hgenerator (by decide) (by decide) (by decide)
  refine ⟨?_, ?_, ?_, ?_⟩
  · obtain ⟨R, hR⟩ := (hmul .generator 0).1.returns_iff.mpr hgenerator
    exact ⟨R, hR, ((hmul _ 0).2 R hR).identity_iff.mpr (zero_zsmul _)⟩
  · exact (hmul _ 0).1.aborts_iff.mpr hshifted
  · exact (hcheck _).aborts_iff.mpr (by simp [hshifted])
  · have hguarded := hverify sampleKey.groth16 ⟨.identity, .identity, ⟨1 + baseOrder, 2⟩⟩
      (List.replicate 38 0) (by decide) (by decide) _ (List.mem_cons_self ..)
    exact hguarded.aborts_iff.mpr (fun h => hshifted h.2.2)

end FoldingVerifier
