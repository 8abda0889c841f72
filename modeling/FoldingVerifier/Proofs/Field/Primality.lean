import FoldingVerifier.Proofs.Field.Residues
import Mathlib.NumberTheory.LucasPrimality
import Mathlib.Tactic.NormNum.Prime

/-! Both moduli are prime. Lucas's test asks for a base whose order modulo `n` is
`n - 1`, and for the prime factors of `n - 1`; a certificate lists such tests, each
with factors that an earlier line has settled. The powers are taken by the ladder
that the field inverse runs on. -/
namespace FoldingVerifier

/-- A test of the number one above a product of prime powers. -/
structure LucasLine where
  base : ℕ
  factors : List (ℕ × ℕ)

namespace LucasLine

def predecessor (l : LucasLine) : ℕ := (l.factors.map fun f => f.1 ^ f.2).prod

def number (l : LucasLine) : ℕ := l.predecessor + 1

/-- The base raised to a power, modulo the number under test. -/
def power (l : LucasLine) (n : ℕ) : Residue (l.predecessor + 1) :=
  (Residue.ofNat (l.predecessor + 1) l.base).pow n

/-- Passes when all factors are known primes and no proper power of the base is one. -/
def passes (known : List ℕ) (l : LucasLine) : Bool :=
  decide (l.power l.predecessor = 1) &&
    l.factors.all fun f => known.contains f.1 && decide (l.power (l.predecessor / f.1) ≠ 1)

theorem power_eq_one_iff (l : LucasLine) (n : ℕ) :
    l.power n = 1 ↔ ((l.base : ℕ) : ZMod l.number) ^ n = 1 := by
  rw [← Residue.toZMod_injective.eq_iff, Residue.toZMod_one, power, Residue.toZMod_pow,
    Residue.toZMod_ofNat]
  rfl

/-- A prime that divides the product of the powers divides one of their bases. -/
theorem exists_factor_of_dvd {q : ℕ} (hq : q.Prime) (fs : List (ℕ × ℕ))
    (hd : q ∣ (fs.map fun f => f.1 ^ f.2).prod) : ∃ f ∈ fs, q ∣ f.1 := by
  induction fs with
  | nil => exact absurd (Nat.dvd_one.mp hd) hq.ne_one
  | cons f fs ih =>
    rw [List.map_cons, List.prod_cons] at hd
    rcases hq.dvd_mul.mp hd with h | h
    · exact ⟨f, List.mem_cons_self, hq.dvd_of_dvd_pow h⟩
    · obtain ⟨g, hg, hqg⟩ := ih h
      exact ⟨g, List.mem_cons_of_mem _ hg, hqg⟩

theorem prime_of_passes {known : List ℕ} {l : LucasLine} (hk : ∀ q ∈ known, q.Prime)
    (h : l.passes known = true) : l.number.Prime := by
  obtain ⟨hone, hall⟩ := Bool.and_eq_true_iff.mp h
  refine lucas_primality _ _ ((l.power_eq_one_iff _).mp (of_decide_eq_true hone)) ?_
  intro q hq hd hpow
  obtain ⟨f, hf, hqf⟩ := exists_factor_of_dvd hq l.factors hd
  obtain ⟨hmem, hne⟩ := Bool.and_eq_true_iff.mp (List.all_eq_true.mp hall f hf)
  have hprime : f.1.Prime := hk _ (List.contains_iff_mem.mp hmem)
  rw [(Nat.prime_dvd_prime_iff_eq hq hprime).mp hqf] at hpow
  exact of_decide_eq_true hne ((l.power_eq_one_iff _).mpr hpow)

end LucasLine

/-- Checks the lines in turn; the numbers that have passed are known to those behind. -/
def certifies : List ℕ → List LucasLine → Bool
  | _, [] => true
  | known, l :: ls => l.passes known && certifies (l.number :: known) ls

theorem prime_of_certifies {known : List ℕ} {ls : List LucasLine} (hk : ∀ q ∈ known, q.Prime)
    (h : certifies known ls = true) : ∀ l ∈ ls, l.number.Prime := by
  induction ls generalizing known with
  | nil => simp
  | cons l ls ih =>
    obtain ⟨hl, hls⟩ := Bool.and_eq_true_iff.mp h
    have hp := LucasLine.prime_of_passes hk hl
    have hk' : ∀ q ∈ l.number :: known, q.Prime := List.forall_mem_cons.mpr ⟨hp, hk⟩
    exact List.forall_mem_cons.mpr ⟨hp, ih hk' hls⟩

/-- The primes below a million that the certificate of the moduli starts from. -/
def smallPrimes : List ℕ :=
  [2, 3, 5, 7, 11, 13, 17, 19, 29, 41, 67, 73, 83, 89, 107, 109, 229, 271, 311, 379, 661, 823,
    853, 911, 983, 1231, 1637, 3557, 3691, 4999, 11003, 13327, 41927, 93001, 237073, 327599]

theorem prime_of_mem_smallPrimes : ∀ q ∈ smallPrimes, q.Prime := by
  simp only [smallPrimes, List.forall_mem_cons, List.not_mem_nil, false_implies, forall_const,
    and_true]
  norm_num

/-- The two lines at the end are those of the moduli. -/
def modulusLines : List LucasLine := [
  ⟨2, [(2, 1), (19, 1), (41927, 1)]⟩,
  ⟨17, [(2, 3), (3, 2), (5, 1), (19, 1), (271, 1)]⟩,
  ⟨5, [(2, 1), (17, 1), (109, 1), (1231, 1)]⟩,
  ⟨13, [(2, 1), (73, 1), (89, 1), (13327, 1)]⟩,
  ⟨22, [(2, 1), (11, 1), (3691, 1), (4999, 1)]⟩,
  ⟨2, [(2, 1), (229, 1), (853, 1), (1637, 1)]⟩,
  ⟨10, [(2, 1), (3, 1), (5, 1), (13, 1), (911, 1), (3557, 1)]⟩,
  ⟨3, [(2, 3), (5, 4), (7, 1), (327599, 1)]⟩,
  ⟨2, [(2, 2), (7, 2), (661, 1), (93001, 1)]⟩,
  ⟨2, [(2, 2), (7, 1), (1263766531, 1)]⟩,
  ⟨2, [(2, 2), (107, 1), (12048837557, 1)]⟩,
  ⟨2, [(2, 2), (3, 4), (5156902474397, 1)]⟩,
  ⟨6, [(2, 1), (3, 2), (5, 1), (19, 1), (41, 1), (35385462869, 1)]⟩,
  ⟨5, [(2, 1), (83, 1), (379, 1), (1637, 1), (639533339, 1)]⟩,
  ⟨3, [(2, 5), (5, 1), (823, 1), (1593227, 1), (65865678001877903, 1)]⟩,
  ⟨17, [(2, 4), (3, 1), (7, 1), (11, 1), (1853641, 1), (4562087, 1), (173171039, 1),
    (2480874801745591, 1)]⟩,
  ⟨5, [(2, 28), (3, 2), (13, 1), (29, 1), (983, 1), (11003, 1), (237073, 1), (405928799, 1),
    (1670836401704629, 1), (13818364434197438864469338081, 1)]⟩,
  ⟨3, [(2, 1), (3, 2), (13, 1), (29, 1), (67, 1), (229, 1), (311, 1), (983, 1), (11003, 1),
    (405928799, 1), (11465965001, 1), (13427688667394608761327070753331941386769, 1)]⟩]

theorem prime_of_mem_modulusLines : ∀ l ∈ modulusLines, l.number.Prime :=
  prime_of_certifies prime_of_mem_smallPrimes (by decide +kernel)

theorem baseOrder_prime : baseOrder.Prime := by
  have h := prime_of_mem_modulusLines _ (List.getElem_mem (by decide : 17 < modulusLines.length))
  have hn : modulusLines[17].number = baseOrder := by decide +kernel
  rwa [hn] at h

theorem scalarOrder_prime : scalarOrder.Prime := by
  have h := prime_of_mem_modulusLines _ (List.getElem_mem (by decide : 16 < modulusLines.length))
  have hn : modulusLines[16].number = scalarOrder := by decide +kernel
  rwa [hn] at h

instance : Fact baseOrder.Prime := ⟨baseOrder_prime⟩
instance : Fact scalarOrder.Prime := ⟨scalarOrder_prime⟩

instance : Field Fq := Residue.field baseOrder baseOrder_prime (by decide)
instance : Field Fr := Residue.field scalarOrder scalarOrder_prime (by decide)

end FoldingVerifier
