import FoldingVerifier.Pairing.OptimalAte
import FoldingVerifier.Proofs.Field.Tower
import FoldingVerifier.Proofs.MalformedPoints
import FoldingVerifier.Proofs.Pairing.Bilinear

/-! Products of pairings. The check multiplies Miller values and reduces the product once.
Where reduction raises to a fixed power, it comes to the same to reduce each pairing on its
own and to multiply then, so that neither the order of the pairs nor pairs with an identity
matter, and lists of pairs are checked in parts. Nothing is asked of the pairing of other
points: bilinearity plays no part here. -/
namespace FoldingVerifier
namespace Pairing

/-- The values multiply as in a commutative monoid, reduction raises to a fixed power, and
Miller values at an identity are one. -/
structure ReducesByPower (e : Pairing) [CommMonoid e.Target] : Prop where
  one_eq : e.one = 1
  mul_eq : ∀ a b : e.Target, e.mul a b = a * b
  exists_exponent : ∃ n : ℕ, ∀ a : e.Target, e.reduce a = a ^ n
  miller_zero_left : ∀ Q : G2, e.miller (0 : G1).point Q.point = 1
  miller_zero_right : ∀ P : G1, e.miller P.point (0 : G2).point = 1

/-- The pairing of the elements with the given coordinates. -/
def pairCoords (e : Pairing) (pair : G1Coords × G2Coords) : e.Target :=
  e.pair pair.1.element pair.2.element

/-- All coordinates are those of elements. -/
def AllValid (pairs : List (G1Coords × G2Coords)) : Prop :=
  ∀ pair ∈ pairs, pair.1.Valid ∧ pair.2.Valid

/-- One of the two points is the identity. -/
def HasIdentity (pair : G1Coords × G2Coords) : Prop :=
  pair.1 = .identity ∨ pair.2 = .identity

instance : DecidablePred HasIdentity := fun pair =>
  inferInstanceAs (Decidable (pair.1 = .identity ∨ pair.2 = .identity))

theorem AllValid.perm {pairs pairs' : List (G1Coords × G2Coords)} (hperm : pairs.Perm pairs')
    (hvalid : AllValid pairs) : AllValid pairs' :=
  fun pair hpair => hvalid pair (hperm.mem_iff.mpr hpair)

theorem allValid_of_check {e : Pairing} {pairs : List (G1Coords × G2Coords)} {b : Bool}
    (hcheck : e.check pairs = .ok b) : AllValid pairs :=
  (e.guarded_check pairs).returns_iff.mp ⟨b, hcheck⟩

namespace ReducesByPower

variable {e : Pairing} [CommMonoid e.Target] (h : e.ReducesByPower)

include h

theorem product_eq (pairs : List (Point Fq × Point Fq2)) :
    e.product pairs = (pairs.map fun pair => e.miller pair.1 pair.2).prod := by
  simp only [product, h.one_eq, h.mul_eq, List.prod_eq_foldl, List.foldl_map]

/-- A power of a product is the product of the powers. -/
theorem reduce_prod (values : List e.Target) :
    e.reduce values.prod = (values.map e.reduce).prod := by
  obtain ⟨n, hn⟩ := h.exists_exponent
  induction values with
  | nil => simp [hn]
  | cons a values ih =>
    rw [List.prod_cons, List.map_cons, List.prod_cons, ← ih]
    simp [hn, mul_pow]

theorem productIsOne_eq (pairs : List (G1 × G2)) :
    e.productIsOne (pairs.map fun pair => (pair.1.point, pair.2.point)) =
      decide ((pairs.map fun pair => e.pair pair.1 pair.2).prod = 1) := by
  have hvalues : e.reduce (e.product (pairs.map fun pair => (pair.1.point, pair.2.point))) =
      (pairs.map fun pair => e.pair pair.1 pair.2).prod := by
    rw [h.product_eq, h.reduce_prod, List.map_map, List.map_map]
    rfl
  rw [productIsOne, hvalues, h.one_eq]

/-- The check in terms of the finished pairings. -/
theorem check_eq {pairs : List (G1Coords × G2Coords)} (hvalid : AllValid pairs) :
    e.check pairs = .ok (decide ((pairs.map e.pairCoords).prod = 1)) := by
  have hcoords : pairs = (pairs.map fun pair => (pair.1.element, pair.2.element)).map
      fun pair => (pair.1.coords, pair.2.coords) := by
    rw [List.map_map, List.map_congr_left (g := id), List.map_id]
    intro pair hpair
    obtain ⟨hP, hQ⟩ := hvalid pair hpair
    simp [G1Coords.coords_element hP, G2Coords.coords_element hQ]
  conv_lhs => rw [hcoords]
  rw [e.check_coords, h.productIsOne_eq, List.map_map]
  rfl

theorem pairCoords_eq_one {pair : G1Coords × G2Coords} (hpair : HasIdentity pair) :
    e.pairCoords pair = 1 := by
  obtain ⟨n, hn⟩ := h.exists_exponent
  obtain ⟨P, Q⟩ := pair
  rcases hpair with rfl | rfl
  · have hP : G1Coords.identity.element = 0 := G1Coords.element_coords 0
    rw [pairCoords, pair, value, hP, h.miller_zero_left, hn, one_pow]
  · have hQ : G2Coords.identity.element = 0 := G2Coords.element_coords 0
    rw [pairCoords, pair, value, hQ, h.miller_zero_right, hn, one_pow]

/-- Pairs with an identity drop out of the product. -/
theorem prod_filter (pairs : List (G1Coords × G2Coords)) :
    ((pairs.filter fun pair => ¬HasIdentity pair).map e.pairCoords).prod =
      (pairs.map e.pairCoords).prod := by
  induction pairs with
  | nil => simp
  | cons pair pairs ih =>
    rw [List.map_cons, List.prod_cons, ← ih]
    by_cases hpair : HasIdentity pair
    · simp [hpair, h.pairCoords_eq_one hpair]
    · simp [hpair]

theorem check_perm {pairs pairs' : List (G1Coords × G2Coords)} (hperm : pairs.Perm pairs')
    (hvalid : AllValid pairs) : e.check pairs' = e.check pairs := by
  rw [h.check_eq hvalid, h.check_eq (hvalid.perm hperm), (hperm.map e.pairCoords).prod_eq]

theorem check_filter {pairs : List (G1Coords × G2Coords)} (hvalid : AllValid pairs) :
    e.check (pairs.filter fun pair => ¬HasIdentity pair) = e.check pairs := by
  have hfiltered : AllValid (pairs.filter fun pair => ¬HasIdentity pair) :=
    fun pair hpair => hvalid pair (List.mem_of_mem_filter hpair)
  rw [h.check_eq hvalid, h.check_eq hfiltered, h.prod_filter]

theorem check_insert {xs ys zs : List (G1Coords × G2Coords)} (hvalid : AllValid (xs ++ zs ++ ys))
    (hzs : ∀ pair ∈ zs, HasIdentity pair) : e.check (xs ++ zs ++ ys) = e.check (xs ++ ys) := by
  have hrest : AllValid (xs ++ ys) := by
    intro pair hpair
    apply hvalid
    simp only [List.mem_append] at hpair ⊢
    tauto
  have hzs' : zs.filter (fun pair => ¬HasIdentity pair) = [] := by
    simpa [List.filter_eq_nil_iff] using hzs
  rw [← h.check_filter hvalid, ← h.check_filter hrest, List.filter_append, List.filter_append,
    List.filter_append, hzs', List.append_nil]

/-- The two parts of a list are checked together by the product of their products. -/
theorem check_append {xs ys : List (G1Coords × G2Coords)} (hxs : AllValid xs)
    (hys : AllValid ys) : e.check (xs ++ ys) =
      .ok (decide ((xs.map e.pairCoords).prod * (ys.map e.pairCoords).prod = 1)) := by
  have hall : AllValid (xs ++ ys) := List.forall_mem_append.mpr ⟨hxs, hys⟩
  rw [h.check_eq hall, List.map_append, List.prod_append]

/-- Where one part passes, the other decides. -/
theorem check_append_of_check {xs ys : List (G1Coords × G2Coords)} {b : Bool}
    (hxs : e.check xs = .ok true) (hys : e.check ys = .ok b) : e.check (xs ++ ys) = .ok b := by
  have hx := allValid_of_check hxs
  have hy := allValid_of_check hys
  rw [h.check_eq hx, Except.ok.injEq, decide_eq_true_iff] at hxs
  rw [h.check_append hx hy, hxs, one_mul, ← h.check_eq hy, hys]

/-- The check of a list of pairs decides whether the product of the finished pairings is one.
Order, and pairs with an identity, are of no account; the empty product is one; and a list in
two parts, of which one passes, passes if the other does. A malformed point is found wherever
it stands. -/
theorem check_product_laws :
    (∀ pairs, AllValid pairs →
      e.check pairs = .ok (decide ((pairs.map e.pairCoords).prod = 1))) ∧
    (∀ pairs pairs', pairs.Perm pairs' → AllValid pairs → e.check pairs' = e.check pairs) ∧
    (∀ xs ys zs, AllValid (xs ++ zs ++ ys) → (∀ pair ∈ zs, HasIdentity pair) →
      e.check (xs ++ zs ++ ys) = e.check (xs ++ ys)) ∧
    (∀ pairs, AllValid pairs →
      e.check (pairs.filter fun pair => ¬HasIdentity pair) = e.check pairs) ∧
    e.check [] = .ok true ∧
    (∀ xs ys, e.check xs = .ok true → e.check ys = .ok true → e.check (xs ++ ys) = .ok true) ∧
    (∀ xs ys b, e.check xs = .ok b → e.check ys = .ok !b → e.check (xs ++ ys) = .ok false) ∧
    ∀ pairs pairs', pairs.Perm pairs' → ¬AllValid pairs →
      ∃ c, e.check pairs' = .error (.point c) := by
  refine ⟨fun pairs => h.check_eq, fun pairs pairs' => h.check_perm, fun xs ys zs => h.check_insert,
    fun pairs => h.check_filter, ?_, fun xs ys => h.check_append_of_check, ?_, ?_⟩
  · have hempty : AllValid [] := by simp [AllValid]
    rw [h.check_eq hempty]
    simp
  · intro xs ys b hxs hys
    cases b with
    | true => exact h.check_append_of_check hxs hys
    | false =>
      have hall : AllValid (ys ++ xs) :=
        List.forall_mem_append.mpr ⟨allValid_of_check hys, allValid_of_check hxs⟩
      rw [h.check_perm List.perm_append_comm hall]
      exact h.check_append_of_check hys hxs
  · intro pairs pairs' hperm hinvalid
    exact (e.guarded_check pairs').aborts_iff.mpr fun hvalid =>
      hinvalid (AllValid.perm hperm.symm hvalid)

end ReducesByPower

instance : CommRing optimalAte.Target := inferInstanceAs (CommRing Fq12)

theorem reduce_optimalAte (a : Fq12) : optimalAte.reduce a = a.pow OptimalAte.finalExponent := by
  unfold optimalAte
  -- the ladder has to stay folded: the exponent has thousands of digits
  with_reducible rfl

theorem reducesByPower_optimalAte : optimalAte.ReducesByPower where
  one_eq := rfl
  mul_eq _ _ := rfl
  exists_exponent := by
    refine ⟨OptimalAte.finalExponent, fun (a : Fq12) => ?_⟩
    rw [reduce_optimalAte, Quadratic.pow_eq]
    rfl
  miller_zero_left _ := rfl
  miller_zero_right P := by
    obtain ⟨p, hp⟩ := P
    cases p <;> rfl

instance : CommMonoid logarithmic.Target :=
  inferInstanceAs (CommMonoid (Multiplicative (ZMod scalarOrder)))

theorem reducesByPower_logarithmic : logarithmic.ReducesByPower where
  one_eq := rfl
  mul_eq _ _ := rfl
  exists_exponent := ⟨1, fun a => (pow_one a).symm⟩
  miller_zero_left := bilinear_logarithmic.zero_left
  miller_zero_right := bilinear_logarithmic.zero_right

/-- Three multiples of the generator that add to the identity, with one partner. -/
def balancedPairs : List (G1Coords × G2Coords) :=
  [((3 • G1.generator).coords, .generator), ((-G1.generator).coords, .generator),
    ((-(2 • G1.generator)).coords, .generator)]

theorem prod_balancedPairs : (balancedPairs.map logarithmic.pairCoords).prod = 1 := by
  have hproduct : G1.logarithm (3 • G1.generator) * G2.logarithm G2.generator +
      (G1.logarithm (-G1.generator) * G2.logarithm G2.generator +
        (G1.logarithm (-(2 • G1.generator)) * G2.logarithm G2.generator + 0)) = 0 := by
    simp only [map_neg, map_nsmul]
    ring
  simp only [balancedPairs, ← G2.coords_generator, List.map_cons, List.map_nil, pairCoords,
    G1Coords.element_coords, G2Coords.element_coords, pair_logarithmic]
  exact hproduct

theorem pairCoords_generators_ne_one : logarithmic.pairCoords (.generator, .generator) ≠ 1 := by
  rw [pairCoords, ← G1.coords_generator, ← G2.coords_generator, G1Coords.element_coords,
    G2Coords.element_coords, ← reducesByPower_logarithmic.one_eq, ne_eq,
    bilinear_logarithmic.pair_eq_one_iff nondegenerate_logarithmic]
  simp [G1.generator_ne_zero, G2.generator_ne_zero]

/-- The verifiers' pairing on identities and on a malformed point, and three pairs that balance
beside one that does not. -/
theorem check_product_laws_balancedPairs :
    optimalAte.check [(.generator, .identity), (.identity, .generator)] = .ok true ∧
    (∃ c, optimalAte.check [(.generator, .generator), (⟨1, 3⟩, .identity)] = .error (.point c)) ∧
    logarithmic.check balancedPairs = .ok true ∧
    logarithmic.check [(.generator, .generator)] = .ok false ∧
    logarithmic.check (balancedPairs ++ [(.generator, .generator)]) = .ok false := by
  have hmalformed : ¬(⟨1, 3⟩ : G1Coords).Valid := by
    unfold G1Coords.Valid
    decide
  obtain ⟨-, -, hinsert, -, hempty, -, -, hfault⟩ :=
    reducesByPower_optimalAte.check_product_laws
  obtain ⟨hdecides, -, -, -, -, -, hone, -⟩ := reducesByPower_logarithmic.check_product_laws
  have hbalanced : logarithmic.check balancedPairs = .ok true := by
    rw [hdecides, prod_balancedPairs]
    · simp
    · simp [AllValid, balancedPairs, G1Coords.valid_coords, G2Coords.valid_generator]
  have hsingle : logarithmic.check [(.generator, .generator)] = .ok false := by
    have hproduct :
        ([(G1Coords.generator, G2Coords.generator)].map logarithmic.pairCoords).prod ≠ 1 := by
      rw [List.map_singleton, List.prod_singleton]
      exact pairCoords_generators_ne_one
    rw [hdecides, decide_eq_false hproduct]
    simp [AllValid, G1Coords.valid_generator, G2Coords.valid_generator]
  refine ⟨?_, ?_, hbalanced, hsingle, hone _ _ true hbalanced hsingle⟩
  · rw [← hempty]
    refine hinsert [] [] [(.generator, .identity), (.identity, .generator)] ?_ ?_
    · simp [AllValid, G1Coords.valid_generator, G2Coords.valid_generator, G1Coords.valid_identity,
        G2Coords.valid_identity]
    · simp [HasIdentity]
  · refine hfault _ _ (List.Perm.swap _ _ []) ?_
    simp [AllValid, hmalformed]

end Pairing
end FoldingVerifier
