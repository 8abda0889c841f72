import FoldingVerifier.Proofs.Decider.Acceptance

/-! An accepted proof binds its parts: under a key without identities where they would
make an equation void, exchanging one part leads to rejection. Each equation determines
each of its points from the others, and with the group order as the bound of the inputs
it determines each public input too. -/
namespace FoldingVerifier

open DeciderProof

/-- Exchanges of one part for another value. -/
inductive Mutation where
  | scalar (part : ScalarPart) (n : ℤ)
  | initialWord (i : ℕ) (n : ℤ)
  | finalWord (i : ℕ) (n : ℤ)
  | point (part : PointPart) (P : G1Coords)
  | pointB (Q : G2Coords)

namespace Mutation

def apply (p : DeciderProof) : Mutation → DeciderProof
  | scalar part n => part.set n p
  | initialWord i n =>
      { p with
        initialState := p.initialState.set i n
        same_length := by rw [List.length_set, p.same_length] }
  | finalWord i n =>
      { p with
        finalState := p.finalState.set i n
        same_length := by rw [List.length_set, p.same_length] }
  | point part P => part.set P p
  | pointB Q => setGroth16B Q p

/-- The part is there, and the new value is another one. -/
def Changes (p : DeciderProof) : Mutation → Prop
  | scalar part n => part.get p ≠ n
  | initialWord i n => ∃ a, p.initialState[i]? = some a ∧ a ≠ n
  | finalWord i n => ∃ a, p.finalState[i]? = some a ∧ a ≠ n
  | point part P => part.get p ≠ P
  | pointB Q => p.groth16.b ≠ Q

/-- The equations of an accepted proof determine the part. The randomness is one that
they do not, and a factor of zero or a partner that is the identity hides others. -/
def Bound (k : DeciderKey) (p : DeciderProof) : Mutation → Prop
  | scalar .randomness _ => False
  | point .groth16A _ => p.groth16.b ≠ .identity
  | pointB _ => p.groth16.a ≠ .identity
  | point .openingW _ => p.challengeW • k.kzg.g2 ≠ k.kzg.secret
  | point .openingE _ => p.challengeE • k.kzg.g2 ≠ k.kzg.secret
  | point .freshWitness _ => ¬(scalarOrder : ℤ) ∣ p.randomness
  | point .crossTerm _ => ¬(scalarOrder : ℤ) ∣ p.randomness
  | _ => True

end Mutation

/-- A key without the identities that would make an equation void. -/
structure DeciderKey.Proper (k : DeciderKey) : Prop where
  g2_ne_zero : k.kzg.g2 ≠ 0
  gamma_ne_zero : k.groth16.gamma ≠ 0
  delta_ne_zero : k.groth16.delta ≠ 0
  ic_ne_zero : ∀ P ∈ k.groth16.ic, P ≠ 0

/-- An entry `a` of the first list is `b` in the second. -/
def Replaced {α : Type*} (a b : α) (xs ys : List α) : Prop :=
  ∃ l r, xs = l ++ a :: r ∧ ys = l ++ b :: r

namespace Replaced

variable {α : Type*} {a b : α} {xs ys : List α}

theorem mem_left (h : Replaced a b xs ys) : a ∈ xs := by
  obtain ⟨l, r, rfl, -⟩ := h
  exact List.mem_append_right l List.mem_cons_self

theorem mem_right (h : Replaced a b xs ys) : b ∈ ys := by
  obtain ⟨l, r, -, rfl⟩ := h
  exact List.mem_append_right l List.mem_cons_self

theorem append_right (h : Replaced a b xs ys) (zs : List α) :
    Replaced a b (xs ++ zs) (ys ++ zs) := by
  obtain ⟨l, r, rfl, rfl⟩ := h
  exact ⟨l, r ++ zs, List.append_assoc l (a :: r) zs, List.append_assoc l (b :: r) zs⟩

theorem append_left (h : Replaced a b xs ys) (zs : List α) :
    Replaced a b (zs ++ xs) (zs ++ ys) := by
  obtain ⟨l, r, rfl, rfl⟩ := h
  exact ⟨zs ++ l, r, (List.append_assoc zs l (a :: r)).symm,
    (List.append_assoc zs l (b :: r)).symm⟩

theorem set {i : ℕ} (h : xs[i]? = some a) (b : α) : Replaced a b xs (xs.set i b) := by
  obtain ⟨hi, rfl⟩ := List.getElem?_eq_some_iff.mp h
  refine ⟨xs.take i, xs.drop (i + 1), ?_, ?_⟩
  · rw [List.getElem_cons_drop, List.take_append_drop]
  · rw [List.set_eq_take_append_cons_drop, if_pos hi]

end Replaced

/-- Mutations of what becomes a public input as it is. -/
inductive Mutation.OfScalar : Mutation → Prop where
  | scalar {part : ScalarPart} {n : ℤ} (h : part ≠ .randomness) : OfScalar (scalar part n)
  | initialWord {i : ℕ} {n : ℤ} : OfScalar (initialWord i n)
  | finalWord {i : ℕ} {n : ℤ} : OfScalar (finalWord i n)

theorem Mutation.OfScalar.groth16_apply {m : Mutation} (h : m.OfScalar) {p : DeciderProof} :
    (m.apply p).groth16 = p.groth16 := by
  cases h with
  | @scalar part n hne => cases part <;> rfl
  | initialWord => rfl
  | finalWord => rfl

/-- The inputs before and after such a mutation differ in one place. -/
theorem Mutation.OfScalar.inputs_replaced {m : Mutation} (h : m.OfScalar) {p : DeciderProof}
    (hc : m.Changes p) (hash : ℤ) :
    ∃ a b, a ≠ b ∧ Replaced a b (p.inputs hash) ((m.apply p).inputs hash) := by
  cases h with
  | @scalar part n hne =>
    refine ⟨part.get p, n, hc, ?_⟩
    have hchallenges {xs : List ℤ}
        (hr : Replaced (part.get p) n [p.challengeW, p.challengeE, p.evalW, p.evalE] xs) :=
      (hr.append_left ([hash, p.steps] ++ p.initialState ++ p.finalState ++
        PublicInputs.pointLimbs (p.folded .witness).coords ++
        PublicInputs.pointLimbs (p.folded .errorTerm).coords)).append_right
          (PublicInputs.pointLimbs p.crossTerm)
    cases part with
    | steps =>
      have hr : Replaced p.steps n [hash, p.steps] [hash, n] := ⟨[hash], [], rfl, rfl⟩
      exact (((((hr.append_right _).append_right _).append_right _).append_right _).append_right
        _).append_right _
    | randomness => exact absurd rfl hne
    | challengeW => exact hchallenges ⟨[], [p.challengeE, p.evalW, p.evalE], rfl, rfl⟩
    | challengeE => exact hchallenges ⟨[p.challengeW], [p.evalW, p.evalE], rfl, rfl⟩
    | evalW => exact hchallenges ⟨[p.challengeW, p.challengeE], [p.evalE], rfl, rfl⟩
    | evalE => exact hchallenges ⟨[p.challengeW, p.challengeE, p.evalW], [], rfl, rfl⟩
  | @initialWord i n =>
    obtain ⟨a, ha, hne⟩ := hc
    have hr := (Replaced.set ha n).append_left [hash, p.steps]
    exact ⟨a, n, hne, ((((hr.append_right _).append_right _).append_right _).append_right
      _).append_right _⟩
  | @finalWord i n =>
    obtain ⟨a, ha, hne⟩ := hc
    have hr := (Replaced.set ha n).append_left ([hash, p.steps] ++ p.initialState)
    exact ⟨a, n, hne, (((hr.append_right _).append_right _).append_right _).append_right _⟩

theorem DeciderProof.PointPart.get_set_of_ne {part part' : PointPart} (h : part' ≠ part)
    (P : G1Coords) (p : DeciderProof) : part'.get (part.set P p) = part'.get p := by
  cases part <;> cases part' <;> first
    | rfl
    | exact absurd rfl h

theorem Part.agree_set {part : PointPart} {part' : Part} (h : part' ≠ .point part)
    (P : G1Coords) (p : DeciderProof) : part'.Agree (part.set P p) p := by
  cases part' with
  | point part' =>
    have hne : part' ≠ part := fun heq => h (congrArg Part.point heq)
    exact PointPart.get_set_of_ne hne P p
  | scalar s => cases part <;> cases s <;> rfl
  | _ => cases part <;> rfl

/-- A check that does not look at a point passes as before the exchange. -/
theorem Check.fault_set {part : PointPart} {c : Check} (h : .point part ∉ c.reads) (e : Pairing)
    (d : Decider) (P : G1Coords) (p : DeciderProof) :
    c.fault e d (part.set P p) = c.fault e d p := by
  apply Check.fault_congr
  intro part' hpart'
  exact Part.agree_set (fun heq => h (heq ▸ hpart')) P p

/-- The points that an opening equation is about. -/
def Commitment.parts (c : Commitment) : List PointPart := [c.running, c.added, c.opening]

/-- The checks before an opening pass as before, or look at the exchanged point only. -/
theorem exists_order_split {c : Commitment} {part : PointPart} (h : part ∈ c.parts) :
    ∃ made later, Check.order = made ++ .opening c :: later ∧
      ∀ y ∈ made, y = .point part ∨ .point part ∉ y.reads := by
  cases c with
  | witness =>
    refine ⟨Check.order.take 7, Check.order.drop 8, rfl, ?_⟩
    revert part
    decide
  | errorTerm =>
    refine ⟨Check.order.take 9, Check.order.drop 10, rfl, ?_⟩
    revert part
    decide

namespace DeciderProof

variable (part : PointPart) (P : G1Coords) (p : DeciderProof)

theorem element_set : (part.set P p).element part = P.element := by
  rw [element, PointPart.get_set]

theorem element_set_of_ne {part part' : PointPart} (h : part' ≠ part) :
    (part.set P p).element part' = p.element part' := by
  rw [element, PointPart.get_set_of_ne h, element]

theorem scalar_get_set (s : ScalarPart) : s.get (part.set P p) = s.get p := by
  cases s <;> cases part <;> rfl

theorem randomness_set : (part.set P p).randomness = p.randomness :=
  scalar_get_set part P p .randomness

end DeciderProof

theorem challenge_zsmul_ne_secret {k : DeciderKey} {p : DeciderProof} {c : Commitment}
    {P : G1Coords} (hb : (Mutation.point c.opening P).Bound k p) :
    c.challenge.get p • k.kzg.g2 ≠ k.kzg.secret := by
  cases c with
  | witness => exact hb
  | errorTerm => exact hb

theorem not_dvd_randomness {k : DeciderKey} {p : DeciderProof} {c : Commitment} {P : G1Coords}
    (hb : (Mutation.point c.added P).Bound k p) : ¬(scalarOrder : ℤ) ∣ p.randomness := by
  cases c with
  | witness => exact hb
  | errorTerm => exact hb

/-- An opening equation determines each of its three points from the other two. -/
theorem opening_set_fails {e : Pairing} (h : e.Bilinear) (hn : e.Nondegenerate) {k : DeciderKey}
    (hk : k.Proper) {p : DeciderProof} {c : Commitment} {part : PointPart} {P : G1Coords}
    (hpart : part ∈ c.parts) (hb : (Mutation.point part P).Bound k p)
    (hold : (part.get p).Valid) (hP : P.Valid) (hne : part.get p ≠ P)
    (hpass : (Check.opening c).fault e (.ofKey k) p = none) :
    (Check.opening c).fault e (.ofKey k) (part.set P p) ≠ none := by
  intro hpass'
  rw [Check.opening_passes_iff] at hpass hpass'
  rw [scalar_get_set, scalar_get_set] at hpass'
  apply hne
  apply G1Coords.element_injOn hold hP
  have hru : c.running ≠ c.added := by cases c <;> decide
  have hrπ : c.running ≠ c.opening := by cases c <;> decide
  have huπ : c.added ≠ c.opening := by cases c <;> decide
  simp only [Commitment.parts, List.mem_cons, List.not_mem_nil, or_false] at hpart
  rcases hpart with rfl | rfl | rfl
  · rw [element_set_of_ne P p hrπ.symm] at hpass'
    have hfold := KzgKey.commitment_unique h hn hk.g2_ne_zero hpass hpass'
    rw [folded, folded, randomness_set, element_set, element_set_of_ne P p hru.symm] at hfold
    exact add_right_cancel hfold
  · rw [element_set_of_ne P p huπ.symm] at hpass'
    have hfold := KzgKey.commitment_unique h hn hk.g2_ne_zero hpass hpass'
    rw [folded, folded, randomness_set, element_set, element_set_of_ne P p hru] at hfold
    have hmul := add_left_cancel hfold
    by_contra hu
    have hzero : p.randomness • (p.element c.added - P.element) = 0 := by
      rw [zsmul_sub, hmul, sub_self]
    exact not_dvd_randomness hb ((G1.zsmul_eq_zero_iff (sub_ne_zero.mpr hu)).mp hzero)
  · have hfold : (c.opening.set P p).folded c = p.folded c := by
      rw [folded, folded, randomness_set, element_set_of_ne P p hrπ, element_set_of_ne P p huπ]
    rw [hfold, element_set] at hpass'
    exact KzgKey.opening_unique h hn (challenge_zsmul_ne_secret hb) hpass hpass'

namespace Decider

section Rejection

variable {e : Pairing} (h : e.Bilinear) (hn : e.Nondegenerate) {k : DeciderKey} (hk : k.Proper)
  {p : DeciderProof} (hp : (ofKey k).verify e p = .ok ()) {m : Mutation} (hc : m.Changes p)
  (hb : m.Bound k p)

include h hn hk hp hc hb

omit hb in
theorem verify_apply_ne_ok_of_scalar (hs : m.OfScalar) :
    (ofKey k).verify e (m.apply p) ≠ .ok () := by
  intro hp'
  rw [verify_eq_ok_iff] at hp hp'
  obtain ⟨a, b, hab, hreplaced⟩ := hs.inputs_replaced hc k.hash.val
  have hz : p.stateLength = k.stateLength := Check.stateLength_passes_iff.mp (hp .stateLength)
  have hlen : (p.inputs k.hash.val).length = k.groth16.ic.length :=
    length_inputs_eq (d := ofKey k) hz
  have hhash := hash_inScalarField (ofKey k)
  have hxs := (inputs_inScalarField_iff hhash p).mpr (Check.scalars_passes_iff.mp (hp .scalars))
  have hys := (inputs_inScalarField_iff hhash (m.apply p)).mpr
    (Check.scalars_passes_iff.mp (hp' .scalars))
  have ha := inScalarField_iff.mp (List.all_eq_true.mp hxs a hreplaced.mem_left)
  have hb := inScalarField_iff.mp (List.all_eq_true.mp hys b hreplaced.mem_right)
  have hpass := Check.groth16_passes_iff.mp (hp .groth16)
  have hpass' := Check.groth16_passes_iff.mp (hp' .groth16)
  rw [element, element, PointPart.get, PointPart.get, hs.groth16_apply] at hpass'
  have heq := Groth16Key.combination_unique h hn hpass hk.gamma_ne_zero hpass'
  obtain ⟨l, r, hl, hr⟩ := hreplaced
  change k.groth16.combination (p.inputs k.hash.val) =
    k.groth16.combination ((m.apply p).inputs k.hash.val) at heq
  rw [hl] at heq hlen
  rw [hr] at heq
  have hmod : a % scalarOrder = b % scalarOrder :=
    Groth16Key.modEq_of_combination_eq hk.ic_ne_zero hlen heq
  rw [Int.emod_eq_of_lt ha.1 ha.2, Int.emod_eq_of_lt hb.1 hb.2] at hmod
  exact hab hmod

/-- The points of the opening equations, and those of the Groth16 equation. -/
theorem verify_apply_ne_ok_of_point {part : PointPart} {P : G1Coords}
    (hm : m = .point part P) : (ofKey k).verify e (part.set P p) ≠ .ok () := by
  subst hm
  intro hp'
  rw [verify_eq_ok_iff] at hp hp'
  have hold : (part.get p).Valid := Check.point_passes_iff.mp (hp (.point part))
  have hP : P.Valid := by
    have hset := Check.point_passes_iff.mp (hp' (.point part))
    rwa [PointPart.get_set] at hset
  have hopening {c : Commitment} (hpart : part ∈ c.parts) : False :=
    opening_set_fails h hn hk hpart hb hold hP hc (hp (.opening c)) (hp' (.opening c))
  have hpass := Check.groth16_passes_iff.mp (hp .groth16)
  have hpass' := Check.groth16_passes_iff.mp (hp' .groth16)
  cases part with
  | runningWitness | freshWitness | openingW => exact @hopening .witness (by decide)
  | runningErrorTerm | crossTerm | openingE => exact @hopening .errorTerm (by decide)
  | groth16A =>
    have hB : p.groth16.b.element ≠ 0 :=
      G2Coords.element_ne_zero (Check.pointB_passes_iff.mp (hp .pointB)) hb
    exact hc (G1Coords.element_injOn hold hP (Groth16Key.a_unique h hn hpass hB hpass'))
  | groth16C =>
    exact hc (G1Coords.element_injOn hold hP
      (Groth16Key.c_unique h hn hpass hk.delta_ne_zero hpass'))

theorem verify_apply_ne_ok : (ofKey k).verify e (m.apply p) ≠ .ok () := by
  cases m with
  | scalar part n =>
    refine verify_apply_ne_ok_of_scalar h hn hk hp hc (.scalar ?_)
    rintro rfl
    exact hb
  | initialWord i n => exact verify_apply_ne_ok_of_scalar h hn hk hp hc .initialWord
  | finalWord i n => exact verify_apply_ne_ok_of_scalar h hn hk hp hc .finalWord
  | pointB Q =>
    intro hp'
    rw [verify_eq_ok_iff] at hp hp'
    have hA : p.element .groth16A ≠ 0 :=
      G1Coords.element_ne_zero (Check.point_passes_iff.mp (hp (.point .groth16A))) hb
    have hpass := Check.groth16_passes_iff.mp (hp .groth16)
    have hpass' := Check.groth16_passes_iff.mp (hp' .groth16)
    exact hc (G2Coords.element_injOn (Check.pointB_passes_iff.mp (hp .pointB))
      (Check.pointB_passes_iff.mp (hp' .pointB)) (Groth16Key.b_unique h hn hpass hA hpass'))
  | point part P => exact verify_apply_ne_ok_of_point h hn hk hp hc hb rfl

/-- The checks before the opening look at other parts, or at the validity of the point. -/
theorem verify_set_eq_opening {c : Commitment} {part : PointPart} {P : G1Coords}
    (hm : m = .point part P) (hpart : part ∈ c.parts) (hP : P.Valid) :
    (ofKey k).verify e (part.set P p) = .error (.rejected (.opening c)) := by
  subst hm
  rw [verify_eq_ok_iff] at hp
  have hold : (part.get p).Valid := Check.point_passes_iff.mp (hp (.point part))
  have hfails := opening_set_fails h hn hk hpart hb hold hP hc (hp (.opening c))
  have hfault : (Check.opening c).fault e (ofKey k) (part.set P p) =
      some (.rejected (.opening c)) := by
    rw [Check.fault] at hfails ⊢
    split_ifs at hfails ⊢
    · exact absurd rfl hfails
    · rfl
  obtain ⟨made, later, horder, hmade⟩ := exists_order_split hpart
  rw [verify_eq_refuse, horder, Check.findSome?_of_first _ hfault]
  · rfl
  · intro y hy
    rcases hmade y hy with rfl | hread
    · rw [Check.point_passes_iff, PointPart.get_set]
      exact hP
    · rw [Check.fault_set hread]
      exact hp y

end Rejection

/-- A single part of an accepted proof cannot be exchanged. Where another point takes the
place of a commitment or of an opening, the opening of that commitment is what fails. -/
theorem verify_mutation_rejected {e : Pairing} (h : e.Bilinear) (hn : e.Nondegenerate)
    {k : DeciderKey} (hk : k.Proper) {p : DeciderProof} (hp : (ofKey k).verify e p = .ok ())
    {m : Mutation} (hc : m.Changes p) (hb : m.Bound k p) :
    (∃ f, (ofKey k).verify e (m.apply p) = .error f) ∧
      ∀ c part P, m = .point part P → part ∈ c.parts → P.Valid →
        (ofKey k).verify e (m.apply p) = .error (.rejected (.opening c)) := by
  constructor
  · have hne := verify_apply_ne_ok h hn hk hp hc hb
    cases hv : (ofKey k).verify e (m.apply p) with
    | error f => exact ⟨f, rfl⟩
    | ok u => exact absurd hv hne
  · intro c part P hm hpart hP
    have hopening := verify_set_eq_opening h hn hk hp hc hb hm hpart hP
    rwa [hm]

theorem proper_sampleKey : sampleKey.Proper where
  g2_ne_zero := G2.generator_ne_zero
  gamma_ne_zero := G2.generator_ne_zero
  delta_ne_zero := G2.generator_ne_zero
  ic_ne_zero := by
    intro P hP
    obtain rfl := List.eq_of_mem_replicate hP
    exact G1.generator_ne_zero

/-- The opposite commitment in place of the fresh one. -/
theorem verify_mutation_sampleProof :
    (ofKey sampleKey).verify .logarithmic sampleProof = .ok () ∧
      (ofKey sampleKey).verify .logarithmic
          (PointPart.freshWitness.set G1.generator.coords sampleProof) =
        .error (.rejected (.opening .witness)) := by
  have hp := verify_sampleProof Pairing.bilinear_logarithmic
  have hc : (Mutation.point .freshWitness G1.generator.coords).Changes sampleProof := by
    change (-G1.generator).coords ≠ G1.generator.coords
    decide
  have hb : (Mutation.point .freshWitness G1.generator.coords).Bound sampleKey sampleProof := by
    change ¬(scalarOrder : ℤ) ∣ 1
    decide
  exact ⟨hp, (verify_mutation_rejected Pairing.bilinear_logarithmic
    Pairing.nondegenerate_logarithmic proper_sampleKey hp hc hb).2 .witness .freshWitness _ rfl
      (by decide) (G1Coords.valid_coords G1.generator)⟩

end Decider
end FoldingVerifier
