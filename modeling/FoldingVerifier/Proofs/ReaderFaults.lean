import FoldingVerifier.DeciderProof
import FoldingVerifier.DeciderKey
import FoldingVerifier.Proofs.Curve.Decoding
import FoldingVerifier.Proofs.Documents

/-! What the readers of texts and documents refuse. Entries are asked for only where the size
of the value says that there are some, and of all numbers only the state length of a key may
be a real; so whatever document is read, no reader ends with a fault that a caller does not
expect, but for that one number. -/
namespace FoldingVerifier

/-- Nothing but what `S` says is a computation refused for. -/
def FaultsIn {α : Type} (S : Fault → Prop) (r : Except Fault α) : Prop :=
  ∀ f, r = .error f → S f

namespace FaultsIn

variable {α β : Type} {S T : Fault → Prop}

theorem ok (a : α) : FaultsIn S (.ok a) := by
  rintro f ⟨⟩

theorem error {f : Fault} (h : S f) : FaultsIn S (.error f : Except Fault α) := by
  rintro _ ⟨⟩
  exact h

theorem mono {r : Except Fault α} (h : FaultsIn S r) (himp : ∀ f, S f → T f) : FaultsIn T r :=
  fun f hf => himp f (h f hf)

theorem bind {x : Except Fault α} {f : α → Except Fault β} (hx : FaultsIn S x)
    (hf : ∀ a, x = .ok a → FaultsIn S (f a)) : FaultsIn S (x >>= f) := by
  cases x with
  | error c => exact .error (hx c rfl)
  | ok a => exact hf a rfl

theorem map {r : Except Fault α} (h : FaultsIn S r) (f : α → β) : FaultsIn S (r.map f) := by
  cases r with
  | error c => exact .error (h c rfl)
  | ok a => exact .ok (f a)

theorem ite {c : Prop} [Decidable c] {x y : Except Fault α} (hx : c → FaultsIn S x)
    (hy : ¬c → FaultsIn S y) : FaultsIn S (if c then x else y) := by
  split_ifs with hc
  · exact hx hc
  · exact hy hc

theorem mapM {f : α → Except Fault β} (h : ∀ a, FaultsIn S (f a)) (as : List α) :
    FaultsIn S (as.mapM f) := by
  induction as with
  | nil => exact .ok []
  | cons a as ih =>
    rw [List.mapM_cons]
    exact (h a).bind fun _ _ => ih.bind fun _ _ => .ok _

theorem forM {f : α → Except Fault PUnit} (h : ∀ a, FaultsIn S (f a)) (as : List α) :
    FaultsIn S (as.forM f) := by
  induction as with
  | nil => exact .ok ()
  | cons a as ih =>
    change FaultsIn S (f a >>= fun _ => as.forM f)
    exact (h a).bind fun _ _ => ih

theorem foldlM {f : β → α → Except Fault β} (h : ∀ b a, FaultsIn S (f b a)) (as : List α) (b : β) :
    FaultsIn S (as.foldlM f b) := by
  induction as generalizing b with
  | nil => exact .ok b
  | cons a as ih =>
    rw [List.foldlM_cons]
    exact (h b a).bind fun b' _ => ih b'

end FaultsIn

/-- The faults of a text or a document that hold no value of the kind that was asked for. -/
def Fault.Reported : Fault → Prop
  | point _ | value _ | kind _ | missingKey _ | missingPosition _ | notJson => True
  | rejected _ | noSuchEntry | zeroInverse | infiniteInteger | tooDeep | access _ => False

/-- A reader that is refused only what it reports. -/
abbrev Reports {α : Type} (r : Except Fault α) : Prop := FaultsIn Fault.Reported r

namespace Json

theorem reports_size (v : Json) : Reports v.size := by
  cases v <;> first | exact .ok _ | exact .error trivial

theorem reports_items (v : Json) : Reports v.items := by
  cases v <;> first | exact .ok _ | exact .error trivial

theorem reports_member (key : String) (v : Json) : Reports (v.member key) := by
  unfold member
  split
  · split
    · exact .ok _
    · exact .error trivial
  · exact .error trivial

theorem reports_memberD (v : Json) (key : String) (absent : Json) :
    Reports (v.memberD key absent) := by
  unfold memberD
  split
  · exact .ok _
  · exact .error trivial

theorem member_of_memberD {v absent w : Json} {key : String} (h : v.memberD key absent = .ok w)
    (hne : w ≠ absent) : v.member key = .ok w := by
  unfold memberD at h
  unfold member
  split at h
  · next members =>
    cases h
    cases hfind : find? (.ofString key) members with
    | none => exact absurd (by rw [hfind]; rfl) hne
    | some u => rfl
  · cases h

theorem reports_requireSize (v : Json) (n : ℕ) (c : ValueFault) : Reports (v.requireSize n c) := by
  unfold requireSize
  exact v.reports_size.bind fun _ _ => .ite (fun _ => .error trivial) (fun _ => .ok _)

theorem size_of_requireSize {v : Json} {n : ℕ} {c : ValueFault} (h : v.requireSize n c = .ok ()) :
    v.size = .ok n := by
  unfold requireSize at h
  cases hsize : v.size with
  | error f =>
    rw [hsize] at h
    cases h
  | ok m =>
    rw [hsize] at h
    by_cases hm : m = n
    · rw [hm]
    · cases (if_pos hm).symm.trans h

theorem reports_nth {vs : List Json} {i : ℕ} (h : i < vs.length) : Reports (nth i vs) := by
  rw [nth, List.getElem?_eq_getElem h]
  exact .ok _

/-- An entry within the size exists, or the value has none by position. -/
theorem reports_entry {v : Json} {n i : ℕ} (hsize : v.size = .ok n) (hi : i < n) :
    Reports (v.entry i) := by
  cases v with
  | str s =>
    cases hsize
    exact reports_nth (by rwa [characters, List.length_map])
  | arr items =>
    cases hsize
    exact reports_nth hi
  | obj members => exact .error trivial
  | null | bool | int | real => cases hsize

/-- A number is refused as such, or it is infinite. -/
theorem faultsIn_integer (v : Json) :
    FaultsIn (fun f => f.Reported ∨ f = .infiniteInteger ∧ ∃ b, v = .real (.infinite b))
      v.integer := by
  unfold integer
  split
  · exact .ok _
  · exact .ok _
  · next x =>
    cases x with
    | nan => exact .error (.inl trivial)
    | infinite b => exact .error (.inr ⟨rfl, b, rfl⟩)
    | finite => exact .ok _
  · split
    · exact .ok _
    · exact .error (.inl trivial)
  · exact .error (.inl trivial)

/-- A member that is read on. -/
theorem reports_read {α β : Type} {key : String} {v : Json} {read : Json → Except Fault α}
    {next : α → Except Fault β} (hread : ∀ w, Reports (read w)) (hnext : ∀ a, Reports (next a)) :
    Reports (v.member key >>= fun w => read w >>= next) :=
  (reports_member key v).bind fun w _ => (hread w).bind fun a _ => hnext a

end Json

namespace Word

theorem reports_inRange (shown : String) (n : ℤ) : Reports (inRange shown n) := by
  unfold inRange
  exact .ite (fun _ => .ok _) (fun _ => .error trivial)

theorem reports_ofJson (v : Json) : Reports (ofJson v) := by
  unfold ofJson
  split
  · exact .error trivial
  · exact reports_inRange _ _
  · split
    · split
      · exact reports_inRange _ _
      · exact .error trivial
    · exact .error trivial
  · exact .error trivial

theorem reports_listOfJson (v : Json) : Reports (listOfJson v) :=
  v.reports_items.bind fun vs _ => .mapM reports_ofJson vs

end Word

theorem Json.reports_wordAt {v : Json} {n i : ℕ} (hsize : v.size = .ok n) (hi : i < n) :
    Reports (v.wordAt i) :=
  (reports_entry hsize hi).bind fun w _ => Word.reports_ofJson w

namespace G1Coords

theorem reports_decode (P : G1Coords) : Reports P.decode := by
  rcases P.decode_cases with ⟨Q, -, hQ, -⟩ | ⟨c, -, hc⟩
  · rw [hQ]
    exact .ok Q
  · rw [hc]
    exact .error trivial

theorem reports_ofJson (v : Json) : Reports (ofJson v) := by
  unfold ofJson
  refine v.reports_size.bind fun n hn => ?_
  have hrest (h : 2 ≤ n) : Reports (do
      let x ← v.wordAt 0
      let y ← v.wordAt 1
      return (⟨x, y⟩ : G1Coords)) :=
    (Json.reports_wordAt hn (by omega)).bind fun _ _ =>
      (Json.reports_wordAt hn (by omega)).bind fun _ _ => .ok _
  refine .ite (fun h3 => ?_) (fun _ => .ite (fun _ => .error trivial) fun h2 => hrest (by omega))
  refine (Json.reports_wordAt hn (by omega)).bind fun _ _ => ?_
  exact .ite (fun _ => .error trivial) (fun _ => hrest (by omega))

end G1Coords

namespace G2Coords

theorem reports_decode (Q : G2Coords) : Reports Q.decode := by
  rcases Q.decode_cases with ⟨P, -, hP, -⟩ | ⟨c, -, hc⟩
  · rw [hP]
    exact .ok P
  · rw [hc]
    exact .error trivial

theorem reports_ofPairs (vs : List Json) : Reports (ofPairs vs) := by
  unfold ofPairs
  split
  · refine (Json.reports_items _).bind fun _ _ => (Json.reports_items _).bind fun _ _ => ?_
    split
    · exact (Word.reports_ofJson _).bind fun _ _ => (Word.reports_ofJson _).bind fun _ _ =>
        (Word.reports_ofJson _).bind fun _ _ => (Word.reports_ofJson _).bind fun _ _ => .ok _
    · exact .error trivial
  · exact .error trivial

theorem reports_ofJson (v : Json) : Reports (ofJson v) := by
  unfold ofJson
  refine v.reports_size.bind fun n hn => ?_
  have hrest : Reports (do
      let pairs := (← v.items).take 2
      pairs.forM (·.requireSize 2 .g2Coordinates)
      ofPairs pairs) :=
    v.reports_items.bind fun _ _ => (FaultsIn.forM
      (fun w => w.reports_requireSize 2 .g2Coordinates) _).bind fun _ _ => reports_ofPairs _
  refine .ite (fun h3 => ?_) (fun _ => .ite (fun _ => .error trivial) fun _ => hrest)
  refine (Json.reports_entry hn (by omega)).bind fun w _ => ?_
  exact (Word.reports_listOfJson w).bind fun _ _ => .ite (fun _ => .error trivial) fun _ => hrest

end G2Coords

theorem Groth16Proof.reports_ofJson (v : Json) : Reports (ofJson v) := by
  unfold ofJson
  refine Json.reports_read G1Coords.reports_ofJson fun _ => ?_
  refine Json.reports_read G2Coords.reports_ofJson fun _ => ?_
  exact Json.reports_read G1Coords.reports_ofJson fun _ => .ok _

theorem DeciderProof.reports_ofJson (v : Json) : Reports (ofJson v) := by
  unfold ofJson
  refine Json.reports_read Word.reports_listOfJson fun _ => ?_
  refine Json.reports_read Word.reports_listOfJson fun _ => ?_
  refine (Json.reports_member _ v).bind fun openings _ => ?_
  split
  · refine (openings.reports_requireSize _ _).bind fun _ hrequire => ?_
    have hsize := Json.size_of_requireSize hrequire
    refine Json.reports_read Word.reports_ofJson fun _ => ?_
    refine Json.reports_read Word.reports_listOfJson fun _ => ?_
    refine Json.reports_read Word.reports_listOfJson fun _ => ?_
    refine (Json.reports_member _ v).bind fun _ _ => ?_
    refine Json.reports_read G1Coords.reports_ofJson fun _ => ?_
    refine (Json.reports_member _ v).bind fun _ _ => ?_
    refine Json.reports_read G1Coords.reports_ofJson fun _ => ?_
    refine Json.reports_read G1Coords.reports_ofJson fun _ => ?_
    refine Json.reports_read G1Coords.reports_ofJson fun _ => ?_
    refine Json.reports_read Word.reports_ofJson fun _ => ?_
    refine Json.reports_read Groth16Proof.reports_ofJson fun _ => ?_
    refine (Json.reports_entry hsize (by omega)).bind fun _ _ => ?_
    refine (G1Coords.reports_ofJson _).bind fun _ _ => ?_
    refine (Json.reports_entry hsize (by omega)).bind fun _ _ => ?_
    refine (G1Coords.reports_ofJson _).bind fun _ _ => ?_
    split
    · exact .ok _
    · exact .error trivial
  · exact .error trivial

theorem Groth16Key.reports_ofCoords (alpha : G1Coords) (beta gamma delta : G2Coords)
    (ic : List G1Coords) : Reports (ofCoords alpha beta gamma delta ic) := by
  unfold ofCoords
  split
  · exact .error trivial
  · exact alpha.reports_decode.bind fun _ _ => beta.reports_decode.bind fun _ _ =>
      gamma.reports_decode.bind fun _ _ => delta.reports_decode.bind fun _ _ =>
        (G1Coords.reports_decode _).bind fun _ _ =>
          (FaultsIn.mapM G1Coords.reports_decode _).bind fun _ _ => .ok _

theorem Groth16Key.reports_ofJson (v : Json) : Reports (ofJson v) := by
  unfold ofJson
  refine Json.reports_read G1Coords.reports_ofJson fun _ => ?_
  refine Json.reports_read G2Coords.reports_ofJson fun _ => ?_
  refine Json.reports_read G2Coords.reports_ofJson fun _ => ?_
  refine Json.reports_read G2Coords.reports_ofJson fun _ => ?_
  refine Json.reports_read Json.reports_items fun items => ?_
  exact (FaultsIn.mapM G1Coords.reports_ofJson items).bind fun _ _ =>
    reports_ofCoords _ _ _ _ _

theorem KzgKey.reports_ofJson (v : Json) : Reports (ofJson v) := by
  unfold ofJson
  refine Json.reports_read G1Coords.reports_ofJson fun g1 => ?_
  refine Json.reports_read G2Coords.reports_ofJson fun g2 => ?_
  refine Json.reports_read G2Coords.reports_ofJson fun secret => ?_
  exact g1.reports_decode.bind fun _ _ => g2.reports_decode.bind fun _ _ =>
    secret.reports_decode.bind fun _ _ => .ok _

namespace DeciderKey

theorem reports_make (hash stateLength : ℤ) (groth16 : Groth16Key) (kzg : KzgKey) :
    Reports (make hash stateLength groth16 kzg) := by
  unfold make
  split_ifs <;> first | exact .ok _ | exact .error trivial

/-- The state length of a key document is infinite, and it is looked at: the constant before
it can be read. -/
def InfiniteStateLength (v : Json) : Prop :=
  (∃ n, (v.member "pp_hash" >>= Word.ofJson) = .ok n) ∧
    ∃ b, v.member "state_len" = .ok (.real (.infinite b))

theorem ofJson_of_infiniteStateLength {v : Json} (h : InfiniteStateLength v) :
    ofJson v = .error .infiniteInteger := by
  obtain ⟨⟨n, hn⟩, b, hb⟩ := h
  obtain ⟨w, hw, hn⟩ := exists_of_bind_eq_ok hn
  rw [ofJson, hw, Json.memberD_of_member hb]
  change (Word.ofJson w >>= fun _ => _) = _
  rw [hn]
  rfl

theorem faultsIn_ofJson (v : Json) :
    FaultsIn (fun f => f.Reported ∨ f = .infiniteInteger ∧ InfiniteStateLength v) (ofJson v) := by
  have reported {α : Type} {r : Except Fault α} (h : Reports r) :
      FaultsIn (fun f => f.Reported ∨ f = .infiniteInteger ∧ InfiniteStateLength v) r :=
    h.mono fun _ hf => .inl hf
  unfold ofJson
  refine (reported (v.reports_member _)).bind fun w hw => ?_
  refine (reported (Word.reports_ofJson w)).bind fun n hn => ?_
  refine (reported (v.reports_memberD _ _)).bind fun length hlength => ?_
  refine FaultsIn.bind ?_ fun _ _ => reported ?_
  · refine length.faultsIn_integer.mono fun f hf => hf.imp_right ?_
    rintro ⟨rfl, b, rfl⟩
    have hread : (v.member "pp_hash" >>= Word.ofJson) = .ok n := by
      rw [hw]
      exact hn
    exact ⟨rfl, ⟨n, hread⟩, b, Json.member_of_memberD hlength (by rintro ⟨⟩)⟩
  · refine Json.reports_read Groth16Key.reports_ofJson fun _ => ?_
    exact Json.reports_read KzgKey.reports_ofJson fun _ => reports_make _ _ _ _

/-- Of all that a key document may hold only one thing is refused without a report. -/
theorem ofJson_infinite_iff (v : Json) :
    ofJson v = .error .infiniteInteger ↔ InfiniteStateLength v := by
  constructor
  · intro h
    rcases faultsIn_ofJson v _ h with hf | hf
    · exact hf.elim
    · exact hf.2
  · exact ofJson_of_infiniteStateLength

end DeciderKey

namespace Json

/-- A text is refused as such, or for its depth. -/
def TextFault (f : Fault) : Prop := f.Reported ∨ f = .tooDeep

theorem reports_integerLiteral (negative : Bool) (whole rest : List Char) :
    Reports (integerLiteral negative whole rest) := by
  unfold integerLiteral
  exact .ite (fun _ => .error trivial) fun _ => .ite (fun _ => .ok _) fun _ => .error trivial

theorem reports_realLiteral (negative : Bool) (digits : List Char) (exponent : ℤ)
    (rest : List Char) : Reports (realLiteral negative digits exponent rest) := by
  unfold realLiteral
  exact .ite (fun _ => .ok _) fun _ => .error trivial

theorem reports_unsigned (negative : Bool) (cs : List Char) : Reports (unsigned negative cs) := by
  unfold unsigned
  split
  · exact .error trivial
  · refine .ite (fun _ => .error trivial) fun _ => ?_
    split
    · split
      · exact reports_realLiteral _ _ _ _
      · exact reports_realLiteral _ _ _ _
    · split
      · exact reports_realLiteral _ _ _ _
      · exact reports_integerLiteral _ _ _

theorem reports_ofAtom (cs : List Char) : Reports (ofAtom cs) := by
  unfold ofAtom
  split
  iterate 6 exact .ok _
  unfold number
  split
  · exact reports_unsigned _ _
  · exact reports_unsigned _ _

namespace Reading

variable (maxDepth : ℕ)

theorem faultsIn_descend (frames : List Frame) (inside : Reading) :
    FaultsIn TextFault (descend maxDepth frames inside) := by
  unfold descend
  exact .ite (fun _ => .ok _) fun _ => .error (.inr rfl)

theorem faultsIn_start (frames : List Frame) (t : Token) :
    FaultsIn TextFault (start maxDepth frames t) := by
  unfold start
  split
  · exact .ok _
  · exact FaultsIn.map ((reports_ofAtom _).mono fun _ => .inl) _
  · exact faultsIn_descend _ _ _
  · exact faultsIn_descend _ _ _
  · exact .error (.inl trivial)

theorem faultsIn_next (r : Reading) (t : Token) : FaultsIn TextFault (r.next maxDepth t) := by
  unfold next
  split
  all_goals first
    | exact faultsIn_start _ _ _
    | exact .ok _
    | exact .error (.inl trivial)

theorem reports_result (r : Reading) : Reports r.result := by
  unfold result
  split
  · exact .ok _
  · exact .error trivial

end Reading

namespace Machine

variable (maxDepth : ℕ)

theorem faultsIn_step (m : Machine) (c : Char) : FaultsIn TextFault (m.step maxDepth c) := by
  unfold step
  split
  · exact .error (.inl trivial)
  · exact .map (.foldlM (Reading.faultsIn_next maxDepth) _ _) _

theorem faultsIn_finish (m : Machine) : FaultsIn TextFault (m.finish maxDepth) := by
  unfold finish
  split
  · exact .error (.inl trivial)
  · exact (FaultsIn.foldlM (Reading.faultsIn_next maxDepth) _ _).bind fun r _ =>
      r.reports_result.mono fun _ => .inl

end Machine

theorem faultsIn_parse (text : String) (maxDepth : ℕ) :
    FaultsIn TextFault (parse text maxDepth) :=
  (FaultsIn.foldlM (Machine.faultsIn_step maxDepth) _ _).bind fun m _ =>
    m.faultsIn_finish maxDepth

end Json
end FoldingVerifier
