import FoldingVerifier.PublicInputs
import FoldingVerifier.Proofs.Flat
import FoldingVerifier.Proofs.Limbs
import FoldingVerifier.Curve.Coords

/-! The layout of the public inputs. The parts of a statement follow each other without a gap
and without an overlap, so that writing them over zeros leaves their concatenation. As each
part has its own place there, and limbs denote their coordinate, the vector determines the
statement. -/
namespace FoldingVerifier

theorem inScalarField_iff {v : ℤ} : inScalarField v = true ↔ 0 ≤ v ∧ v < scalarOrder := by
  rw [inScalarField, decide_eq_true_iff]

theorem all_inScalarField_iff {vs : List ℤ} :
    vs.all inScalarField = true ↔ ∀ v ∈ vs, 0 ≤ v ∧ v < scalarOrder := by
  simp [inScalarField_iff]

theorem inScalarField_of_mem_decompose {x l : ℤ} (h : l ∈ Limbs.decompose x) :
    inScalarField l = true := by
  obtain ⟨h0, hr⟩ := Limbs.mem_decompose h
  have hlt : (Limbs.radix : ℤ) < scalarOrder := by decide
  exact inScalarField_iff.mpr ⟨h0, hr.trans hlt⟩

theorem checkScalars_ints (ns : List ℤ) : checkScalars (.ints ns) = .ok (ns.all inScalarField) := by
  have hread : (Json.ints ns).integers = .ok ns := Json.mapM_integer ns
  rw [checkScalars, hread]
  rfl

namespace Statement

/-- The lengths that the layout for states of `z` words has room for. -/
def Sized (s : Statement) (z : ℤ) : Prop :=
  s.initialState.length = z ∧ s.finalState.length = z ∧ s.challengesAndEvals.length = 4

theorem Sized.nonneg {s : Statement} {z : ℤ} (h : s.Sized z) : 0 ≤ z := by
  rw [← h.1]
  exact Int.natCast_nonneg _

/-- What of a statement becomes a public input as it is. -/
def scalars (s : Statement) : List ℤ :=
  [s.hash, s.steps] ++ s.initialState ++ s.finalState ++ s.challengesAndEvals

end Statement

namespace PublicInputs

theorem length_pointLimbs (P : G1Coords) : (pointLimbs P).length = 10 := by
  rw [pointLimbs, List.length_append, Limbs.length_decompose, Limbs.length_decompose]

theorem inScalarField_of_mem_pointLimbs {P : G1Coords} {l : ℤ} (h : l ∈ pointLimbs P) :
    inScalarField l = true := by
  rcases List.mem_append.mp h with hx | hy
  · exact inScalarField_of_mem_decompose hx
  · exact inScalarField_of_mem_decompose hy

/-- Each part begins where the one before it ends: the first at `i`, and the last ends at `n`. -/
def Tiles : ℤ → List (ℤ × List ℤ) → ℤ → Prop
  | i, [], n => i = n
  | i, (first, part) :: parts, n => first = i ∧ Tiles (i + part.length) parts n

/-- A part takes the entries of a vector from an index on. -/
def StandsAt (v : List ℤ) (first : ℤ) (part : List ℤ) : Prop :=
  ∃ before after, v = before ++ part ++ after ∧ (before.length : ℤ) = first

theorem Tiles.le {i n : ℤ} {parts : List (ℤ × List ℤ)} (h : Tiles i parts n) : i ≤ n := by
  induction parts generalizing i with
  | nil => exact le_of_eq (show i = n from h)
  | cons part parts ih =>
    have hrest := ih h.2
    omega

theorem write_append (v part rest : List ℤ) :
    write (v ++ rest) v.length part = v ++ part ++ rest.drop part.length := by
  simp [write, List.drop_append]

/-- What is already written stays, and of the zeros behind it as many remain as the parts
have no use for: none. -/
theorem foldl_write {v : List ℤ} {n : ℕ} {parts : List (ℤ × List ℤ)}
    (h : Tiles v.length parts (v.length + n)) :
    parts.foldl (fun v part => write v part.1 part.2) (v ++ List.replicate n 0) =
      v ++ parts.flatMap Prod.snd := by
  induction parts generalizing v n with
  | nil =>
    have hn : n = 0 := by
      have heq : (v.length : ℤ) = v.length + n := h
      omega
    simp [hn]
  | cons part parts ih =>
    obtain ⟨first, part⟩ := part
    obtain ⟨rfl, hrest⟩ := h
    have hle := hrest.le
    have hlen : ((v ++ part).length : ℤ) = v.length + part.length := by simp
    have htail : Tiles (v ++ part).length parts ((v ++ part).length + (n - part.length : ℕ)) := by
      rw [hlen]
      convert hrest using 1
      omega
    rw [List.foldl_cons, write_append, List.drop_replicate, ih htail]
    simp

theorem standsAt_of_tiles {v : List ℤ} {n : ℤ} {parts : List (ℤ × List ℤ)}
    (h : Tiles v.length parts n) {part : ℤ × List ℤ} (hpart : part ∈ parts) :
    StandsAt (v ++ parts.flatMap Prod.snd) part.1 part.2 := by
  induction parts generalizing v with
  | nil => cases hpart
  | cons head parts ih =>
    obtain ⟨first, head⟩ := head
    obtain ⟨rfl, hrest⟩ := h
    rcases List.mem_cons.mp hpart with rfl | hmem
    · exact ⟨v, parts.flatMap Prod.snd, by simp, rfl⟩
    · have htail : Tiles (v ++ head).length parts n := by simpa using hrest
      simpa using ih htail hmem

/-- The parts of a statement one after another. -/
def vector (s : Statement) : List ℤ :=
  [s.hash, s.steps] ++ s.initialState ++ s.finalState ++ pointLimbs s.witness ++
    pointLimbs s.errorTerm ++ s.challengesAndEvals ++ pointLimbs s.crossTerm

theorem flatMap_parts (l : Layout) (s : Statement) :
    (l.parts s).flatMap Prod.snd = vector s := by
  simp [Layout.parts, vector]

theorem layout_count (z : ℤ) : (layout z).count = count z := by
  simp only [layout, count]
  omega

theorem mem_vector {s : Statement} {n : ℤ} : n ∈ vector s ↔ n ∈ s.scalars ∨
    n ∈ pointLimbs s.witness ∨ n ∈ pointLimbs s.errorTerm ∨ n ∈ pointLimbs s.crossTerm := by
  simp only [vector, Statement.scalars, List.mem_append]
  tauto

/-- Limbs are always canonical scalars. -/
theorem all_vector_iff (s : Statement) :
    (vector s).all inScalarField = true ↔ ∀ n ∈ s.scalars, 0 ≤ n ∧ n < scalarOrder := by
  simp only [List.all_eq_true, ← inScalarField_iff]
  constructor
  · intro hall n hn
    exact hall n (mem_vector.mpr (.inl hn))
  · intro hall n hn
    rcases mem_vector.mp hn with hn | hn | hn | hn
    · exact hall n hn
    · exact inScalarField_of_mem_pointLimbs hn
    · exact inScalarField_of_mem_pointLimbs hn
    · exact inScalarField_of_mem_pointLimbs hn

section Sized

variable {s : Statement} {z : ℤ} (h : s.Sized z)

include h

theorem tiles_parts : Tiles 0 ((layout z).parts s) (layout z).count := by
  obtain ⟨hi, hf, hc⟩ := h
  simp only [Tiles, Layout.parts, layout, length_pointLimbs, List.length_singleton, hi, hf, hc,
    Limbs.count, true_and]
  omega

theorem length_vector : ((vector s).length : ℤ) = count z := by
  obtain ⟨hi, hf, hc⟩ := h
  simp only [vector, List.length_append, List.length_cons, List.length_nil, length_pointLimbs, hc,
    count, Limbs.count]
  omega

theorem fill_eq : fill (layout z) s = vector s := by
  have hcount : ((layout z).count.toNat : ℤ) = (layout z).count := by
    rw [layout_count, ← length_vector h, Int.toNat_natCast]
  have htiles := tiles_parts h
  rw [← hcount, ← zero_add (Nat.cast _)] at htiles
  have hfill := foldl_write (v := []) htiles
  rwa [flatMap_parts] at hfill

theorem assemble_eq_vector : assemble z s = .ok (vector s) := by
  have hfill := fill_eq h
  obtain ⟨hi, hf, hc⟩ := h
  simp [assemble, hi, hf, hc, hfill]

end Sized

theorem assemble_refused {s : Statement} {z : ℤ} (h : ¬s.Sized z) :
    ∃ c, assemble z s = .error (.value c) := by
  unfold assemble
  split_ifs with hstates hchallenges
  · exact ⟨_, rfl⟩
  · exact ⟨_, rfl⟩
  · exact absurd ⟨by tauto, by tauto, by tauto⟩ h

theorem assemble_eq_ok_iff {s : Statement} {z : ℤ} {v : List ℤ} :
    assemble z s = .ok v ↔ s.Sized z ∧ vector s = v := by
  by_cases h : s.Sized z
  · simp [assemble_eq_vector h, h]
  · obtain ⟨c, hc⟩ := assemble_refused h
    simp [hc, h]

end PublicInputs

/-- The limbs of both coordinates denote them in full. -/
def G1Coords.FitsLimbs (P : G1Coords) : Prop :=
  P.x ∈ Set.Ico 0 (2 ^ 275) ∧ P.y ∈ Set.Ico 0 (2 ^ 275)

/-- The limbs of all three commitments denote them in full. -/
structure Statement.FitsLimbs (s : Statement) : Prop where
  witness : s.witness.FitsLimbs
  errorTerm : s.errorTerm.FitsLimbs
  crossTerm : s.crossTerm.FitsLimbs

namespace PublicInputs

theorem pointLimbs_injOn {P Q : G1Coords} (hP : P.FitsLimbs) (hQ : Q.FitsLimbs)
    (h : pointLimbs P = pointLimbs Q) : P = Q := by
  obtain ⟨hx, hy⟩ := List.append_inj h (by simp [Limbs.length_decompose])
  have hx := Limbs.decompose_injOn hP.1 hQ.1 hx
  have hy := Limbs.decompose_injOn hP.2 hQ.2 hy
  cases P
  cases Q
  simp_all

/-- The parts are taken off from the end, where all but the states have a fixed length. -/
theorem vector_injOn {s s' : Statement} {z z' : ℤ} (hz : s.Sized z) (hz' : s'.Sized z')
    (hs : s.FitsLimbs) (hs' : s'.FitsLimbs) (h : vector s = vector s') : z = z' ∧ s = s' := by
  have heq : z = z' := by
    have hlen := length_vector hz
    rw [h, length_vector hz'] at hlen
    simp only [count] at hlen
    omega
  subst heq
  obtain ⟨hi, hf, hc⟩ := hz
  obtain ⟨hi', hf', hc'⟩ := hz'
  have hstate : s.initialState.length = s'.initialState.length := by omega
  obtain ⟨h, hT⟩ := List.append_inj' h (by simp [length_pointLimbs])
  obtain ⟨h, hxy⟩ := List.append_inj' h (by omega)
  obtain ⟨h, hE⟩ := List.append_inj' h (by simp [length_pointLimbs])
  obtain ⟨h, hW⟩ := List.append_inj' h (by simp [length_pointLimbs])
  obtain ⟨h, hfinal⟩ := List.append_inj' h (by omega)
  obtain ⟨h, hinitial⟩ := List.append_inj' h hstate
  have hW := pointLimbs_injOn hs.witness hs'.witness hW
  have hE := pointLimbs_injOn hs.errorTerm hs'.errorTerm hE
  have hT := pointLimbs_injOn hs.crossTerm hs'.crossTerm hT
  cases s
  cases s'
  simp_all

/-- Accepted statements have one vector only if they are one statement. -/
theorem assemble_injOn {s s' : Statement} {z z' : ℤ} {v v' : List ℤ} (hs : s.FitsLimbs)
    (hs' : s'.FitsLimbs) (h : assemble z s = .ok v) (h' : assemble z' s' = .ok v') :
    v = v' ↔ z = z' ∧ s = s' := by
  obtain ⟨hz, rfl⟩ := assemble_eq_ok_iff.mp h
  obtain ⟨hz', rfl⟩ := assemble_eq_ok_iff.mp h'
  constructor
  · exact vector_injOn hz hz' hs hs'
  · rintro ⟨-, rfl⟩
    rfl

/-- The vector of a statement with states of `z` words: its parts in their order, each at the
index that the layout gives it, and from there to the next. -/
structure Represents (z : ℤ) (s : Statement) (v : List ℤ) : Prop where
  eq_parts : v = [s.hash, s.steps] ++ s.initialState ++ s.finalState ++
    Limbs.decompose s.witness.x ++ Limbs.decompose s.witness.y ++
    Limbs.decompose s.errorTerm.x ++ Limbs.decompose s.errorTerm.y ++ s.challengesAndEvals ++
    Limbs.decompose s.crossTerm.x ++ Limbs.decompose s.crossTerm.y
  standsAt : ∀ part ∈ (layout z).parts s, StandsAt v part.1 part.2
  tiles : Tiles 0 ((layout z).parts s) (layout z).count
  length_eq_layout : (v.length : ℤ) = (layout z).count
  length_eq_count : (v.length : ℤ) = count z
  checkScalars_eq : checkScalars (.ints v) =
    .ok (decide (∀ n ∈ s.scalars, 0 ≤ n ∧ n < scalarOrder))

theorem represents_vector {s : Statement} {z : ℤ} (h : s.Sized z) : Represents z s (vector s) where
  eq_parts := by simp only [vector, pointLimbs, List.append_assoc]
  standsAt := by
    intro part hpart
    have hstands := standsAt_of_tiles (v := []) (tiles_parts h) hpart
    rwa [flatMap_parts] at hstands
  tiles := tiles_parts h
  length_eq_layout := by rw [layout_count, length_vector h]
  length_eq_count := length_vector h
  checkScalars_eq := by
    rw [checkScalars_ints]
    congr 1
    rw [Bool.eq_iff_iff, all_vector_iff, decide_eq_true_iff]

/-- A statement of the right lengths is represented in full, whatever integers it holds; any
other is refused. -/
theorem assemble_represents (z : ℤ) (s : Statement) :
    (s.Sized z → ∃ v, assemble z s = .ok v ∧ Represents z s v) ∧
      (¬s.Sized z ↔ ∃ c, assemble z s = .error (.value c)) ∧
      (z < 0 → ∃ c, assemble z s = .error (.value c)) := by
  refine ⟨?_, ?_, ?_⟩
  · intro h
    exact ⟨vector s, assemble_eq_vector h, represents_vector h⟩
  · constructor
    · exact assemble_refused
    · rintro ⟨c, hc⟩ h
      rw [assemble_eq_vector h] at hc
      cases hc
  · intro hz
    apply assemble_refused
    intro h
    exact absurd h.nonneg (not_le.mpr hz)

/-- Neither scalars nor coordinates within their ranges. -/
def wideStatement : Statement where
  hash := -1
  steps := scalarOrder
  initialState := [7]
  finalState := [8]
  witness := ⟨-1, Limbs.radix⟩
  errorTerm := ⟨Int.pow Limbs.radix 5, -Limbs.radix⟩
  challengesAndEvals := [9, 10, 11, 12]
  crossTerm := ⟨0, 1⟩

theorem represents_wideStatement :
    wideStatement.Sized 1 ∧ ¬wideStatement.Sized (-1) ∧ (-1 : ℤ) < 0 ∧
      (∃ v, assemble 1 wideStatement = .ok v ∧ Represents 1 wideStatement v) ∧
      ∃ c, assemble (-1) wideStatement = .error (.value c) := by
  have hsized : wideStatement.Sized 1 := ⟨rfl, rfl, rfl⟩
  have hneg : ¬wideStatement.Sized (-1) := fun h => absurd h.nonneg (by decide)
  exact ⟨hsized, hneg, by decide, (assemble_represents 1 wideStatement).1 hsized,
    (assemble_represents (-1) wideStatement).2.2 (by decide)⟩

end PublicInputs
end FoldingVerifier
