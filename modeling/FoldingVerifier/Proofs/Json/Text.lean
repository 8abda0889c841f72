import FoldingVerifier.Json.Parser
import FoldingVerifier.Json.Printer
import FoldingVerifier.Proofs.Text.Decimal

/-! Documents written and read back. The reader is followed through the text of a document:
behind a value it has taken the value, or it stands in the atom that the value is and takes
it with the next character, which cannot belong to an atom. Real numbers are left out. -/
namespace FoldingVerifier

namespace Symbol

/-- The code points that a symbol is escaped as. -/
def points : Symbol → List ℕ
  | .char c =>
      if c.toNat < 0x10000 then [c.toNat]
      else [0xD800 + (c.toNat - 0x10000) / 0x400, 0xDC00 + (c.toNat - 0x10000) % 0x400]
  | .half n => [0xD800 + n]

end Symbol

namespace Symbols

def points (s : Symbols) : List ℕ := s.flatMap Symbol.points

theorem points_cons (x : Symbol) (s : Symbols) : points (x :: s) = x.points ++ points s :=
  List.flatMap_cons

/-- No two halves stand together that make a character. -/
def Joined (s : Symbols) : Prop := ofPoints s.points = s

theorem ofPoints_char (c : Char) (ps : List ℕ) :
    ofPoints (Symbol.points (.char c) ++ ps) = .char c :: ofPoints ps := by
  have hvalid : c.toNat < 0xD800 ∨ 0xDFFF < c.toNat ∧ c.toNat < 0x110000 := c.valid
  rw [Symbol.points]
  split_ifs with hc
  · have hsingle : ofPoints.single c.toNat = .char c := by
      rw [ofPoints.single, if_neg (by omega), Char.ofNat_toNat]
    cases ps with
    | nil => exact congrArg (fun x => [x]) hsingle
    | cons p ps => rw [List.singleton_append, ofPoints, if_neg (by omega), hsingle]
  · have hjoined : 0x10000 + (0xD800 + (c.toNat - 0x10000) / 0x400 - 0xD800) * 0x400 +
        (0xDC00 + (c.toNat - 0x10000) % 0x400 - 0xDC00) = c.toNat := by omega
    rw [List.cons_append, List.singleton_append, ofPoints, if_pos (by omega), hjoined,
      Char.ofNat_toNat]

theorem joined_ofString (s : String) : (ofString s).Joined := by
  rw [Joined, ofString]
  induction s.toList with
  | nil => rfl
  | cons c cs ih =>
    rw [List.map_cons, points, List.flatMap_cons, ofPoints_char]
    exact congrArg _ ih

end Symbols

namespace Json

open Token

variable {maxDepth : ℕ}

namespace Machine

/-- The reader on a run of characters. -/
def run (maxDepth : ℕ) (m : Machine) (cs : List Char) : Except Fault Machine :=
  cs.foldlM (step maxDepth) m

theorem run_append (m : Machine) (cs ds : List Char) :
    m.run maxDepth (cs ++ ds) = m.run maxDepth cs >>= fun m' => m'.run maxDepth ds :=
  List.foldlM_append

theorem run_cons_quiet {mode mode' : Mode} {c : Char} (h : advance mode c = some ⟨[], mode'⟩)
    (r : Reading) (cs : List Char) :
    run maxDepth ⟨mode, r⟩ (c :: cs) = run maxDepth ⟨mode', r⟩ cs := by
  rw [run, List.foldlM_cons, step, h]
  rfl

theorem run_cons_token {mode mode' : Mode} {c : Char} {t : Token} {r r' : Reading}
    (h : advance mode c = some ⟨[t], mode'⟩) (hr : r.next maxDepth t = .ok r') (cs : List Char) :
    run maxDepth ⟨mode, r⟩ (c :: cs) = run maxDepth ⟨mode', r'⟩ cs := by
  rw [run, List.foldlM_cons, step, h]
  change (Except.map _ (List.foldlM (Reading.next maxDepth) r [t]) >>= _) = _
  rw [List.foldlM_cons, hr]
  rfl

theorem run_newline (r : Reading) (depth : ℕ) (cs : List Char) :
    run maxDepth ⟨.between, r⟩ (newline depth ++ cs) = run maxDepth ⟨.between, r⟩ cs := by
  rw [newline, List.cons_append, run_cons_quiet rfl]
  induction 2 * depth with
  | zero => rfl
  | succ n ih => rw [List.replicate_succ, List.cons_append, run_cons_quiet rfl, ih]

end Machine

theorem hexValue?_digitChar {d : ℕ} (h : d < 16) : hexValue? d.digitChar = some d := by
  interval_cases d <;> rfl

theorem advance_inCode (ps : List ℕ) (missing value : ℕ) {d : ℕ} (h : d < 16) :
    advance (.inCode ps (missing + 1) value) d.digitChar =
      some ⟨[], .inCode ps missing (value * 16 + d)⟩ := by
  rw [advance, hexValue?_digitChar h]
  rfl

theorem advance_inCode_zero (ps : List ℕ) (value : ℕ) {d : ℕ} (h : d < 16) :
    advance (.inCode ps 0 value) d.digitChar = some ⟨[], .inText ((value * 16 + d) :: ps)⟩ := by
  rw [advance, hexValue?_digitChar h]
  rfl

theorem run_codeEscape {n : ℕ} (h : n < 0x10000) (ps : List ℕ) (r : Reading) (cs : List Char) :
    Machine.run maxDepth ⟨.inText ps, r⟩ (codeEscape n ++ cs) =
      Machine.run maxDepth ⟨.inText (n :: ps), r⟩ cs := by
  have hdigit (k : ℕ) : n / k % 16 < 16 := Nat.mod_lt _ (by decide)
  have hvalue : (((0 * 16 + n / 4096 % 16) * 16 + n / 256 % 16) * 16 + n / 16 % 16) * 16 +
      n / 1 % 16 = n := by omega
  change Machine.run _ _ ('\\' :: 'u' :: (n / 4096 % 16).digitChar :: (n / 256 % 16).digitChar ::
    (n / 16 % 16).digitChar :: (n / 1 % 16).digitChar :: cs) = _
  rw [Machine.run_cons_quiet rfl, Machine.run_cons_quiet rfl,
    Machine.run_cons_quiet (advance_inCode _ _ _ (hdigit _)),
    Machine.run_cons_quiet (advance_inCode _ _ _ (hdigit _)),
    Machine.run_cons_quiet (advance_inCode _ _ _ (hdigit _)),
    Machine.run_cons_quiet (advance_inCode_zero _ _ (hdigit _)), hvalue]

theorem run_escapedChar (c : Char) (ps : List ℕ) (r : Reading) (cs : List Char) :
    Machine.run maxDepth ⟨.inText ps, r⟩ (escapedChar c ++ cs) =
      Machine.run maxDepth ⟨.inText ((Symbol.points (.char c)).reverse ++ ps), r⟩ cs := by
  have hvalid : c.toNat < 0x110000 := by
    have : c.toNat < 0xD800 ∨ 0xDFFF < c.toNat ∧ c.toNat < 0x110000 := c.valid
    omega
  unfold escapedChar
  split_ifs with h1 h2 h3 h4 h5 h6 h7 h8 h9
  · subst h1; rfl
  · subst h2; rfl
  · subst h3; rfl
  · subst h4; rfl
  · subst h5; rfl
  · rw [Symbol.points, if_pos (by omega), h6]
    rfl
  · rw [Symbol.points, if_pos (by omega), h7]
    rfl
  · have hplain : advance (.inText ps) c = some ⟨[], .inText (c.toNat :: ps)⟩ := by
      rw [advance, if_neg h1, if_neg h2, if_neg (by omega)]
    rw [Symbol.points, if_pos (by omega), List.singleton_append, Machine.run_cons_quiet hplain]
    rfl
  · rw [Symbol.points, if_pos h9, run_codeEscape h9]
    rfl
  · rw [Symbol.points, if_neg h9, List.append_assoc, run_codeEscape (by omega),
      run_codeEscape (by omega)]
    rfl

theorem run_escapedSymbol (s : Symbol) (ps : List ℕ) (r : Reading) (cs : List Char) :
    Machine.run maxDepth ⟨.inText ps, r⟩ (escapedSymbol s ++ cs) =
      Machine.run maxDepth ⟨.inText (s.points.reverse ++ ps), r⟩ cs := by
  cases s with
  | char c => exact run_escapedChar c ps r cs
  | half n => exact run_codeEscape (by omega) ps r cs

theorem run_escapedSymbols (s : Symbols) (ps : List ℕ) (r : Reading) (cs : List Char) :
    Machine.run maxDepth ⟨.inText ps, r⟩ (s.flatMap escapedSymbol ++ cs) =
      Machine.run maxDepth ⟨.inText (s.points.reverse ++ ps), r⟩ cs := by
  induction s generalizing ps with
  | nil => rfl
  | cons x s ih =>
    rw [List.flatMap_cons, List.append_assoc, run_escapedSymbol, ih, Symbols.points_cons,
      List.reverse_append, List.append_assoc]

/-- A string is one token. -/
theorem run_quoted {s : Symbols} (hs : s.Joined) {r r' : Reading}
    (h : r.next maxDepth (.text s) = .ok r') (cs : List Char) :
    Machine.run maxDepth ⟨.between, r⟩ (quoted s ++ cs) =
      Machine.run maxDepth ⟨.between, r'⟩ cs := by
  have hend : advance (.inText s.points.reverse) '"' = some ⟨[.text s], .between⟩ := by
    rw [advance, if_pos rfl, List.reverse_reverse, hs]
  rw [quoted, List.cons_append, List.cons_append, Machine.run_cons_quiet rfl, List.append_assoc,
    run_escapedSymbols, List.append_nil, List.singleton_append, Machine.run_cons_token hend h]

/-- What ends an atom. -/
def endsAtom (c : Char) : Bool := isBlank c || c == '"' || (punctuation? c).isSome

theorem endsAtom_eq_false {c : Char} (h : Text.isAsciiDigit c = true) : endsAtom c = false := by
  have hne : ∀ {d : Char}, Text.isAsciiDigit d = false → c ≠ d := Text.ne_of_isAsciiDigit h
  have hpunctuation : punctuation? c = none := by
    unfold punctuation?
    split
    case h_7 => rfl
    all_goals exact absurd rfl (hne rfl)
  have hblank : isBlank c = false := by
    simp only [isBlank, Bool.or_eq_false_iff, beq_eq_false_iff_ne]
    exact ⟨⟨⟨hne rfl, hne rfl⟩, hne rfl⟩, hne rfl⟩
  rw [endsAtom, hblank, hpunctuation, beq_false_of_ne (hne rfl)]
  rfl

theorem advance_inAtom (cs : List Char) (c : Char) : advance (.inAtom cs) c =
    if endsAtom c then some (outside [.atom cs.reverse] c) else some ⟨[], .inAtom (c :: cs)⟩ := rfl

theorem outside_eq (ended : List Token) (c : Char) :
    outside ended c = ⟨ended ++ (outside [] c).tokens, (outside [] c).mode⟩ := by
  unfold outside
  split_ifs
  · rw [List.append_nil]
  · rw [List.append_nil]
  · cases punctuation? c with
    | some t => rfl
    | none => rw [List.append_nil]

/-- Any token that can start a value is taken. -/
def Reading.AwaitsValue (maxDepth : ℕ) (r : Reading) : Prop :=
  ∀ t, t ≠ .closeArray → r.next maxDepth t = start maxDepth r.containers t

theorem awaitsValue_value (frames : List Frame) :
    Reading.AwaitsValue maxDepth ⟨frames, .value⟩ := by
  intro t _
  cases frames <;> rfl

theorem awaitsValue_firstItem (frames : List Frame) :
    Reading.AwaitsValue maxDepth ⟨frames, .firstItem⟩ := by
  intro t ht
  cases frames with
  | nil => rfl
  | cons f frames =>
    cases f with
    | object done key => rfl
    | array done => cases t with
      | closeArray => exact absurd rfl ht
      | _ => rfl

/-- Where the reader stands behind the text of a value that it has awaited. -/
inductive Behind (r : Reading) (v : Json) : Machine → Prop where
  | taken : Behind r v ⟨.between, ⟨r.containers, .afterValue v⟩⟩
  | inAtom {cs : List Char} (h : ofAtom cs = .ok v) : Behind r v ⟨.inAtom cs.reverse, r⟩

namespace Behind

variable {r : Reading} {v : Json} {m : Machine}

theorem next_atom (hr : r.AwaitsValue maxDepth) {cs : List Char} (h : ofAtom cs = .ok v) :
    r.next maxDepth (.atom cs) = .ok ⟨r.containers, .afterValue v⟩ := by
  rw [hr _ (by rintro ⟨⟩), Reading.start, h]
  rfl

/-- The next character finds the value taken. -/
theorem run_cons (hm : Behind r v m) (hr : r.AwaitsValue maxDepth) {c : Char}
    (hc : endsAtom c = true) (cs : List Char) : m.run maxDepth (c :: cs) =
      Machine.run maxDepth ⟨.between, ⟨r.containers, .afterValue v⟩⟩ (c :: cs) := by
  cases hm with
  | taken => rfl
  | inAtom h =>
    have hadvance : ∀ a : List Char, advance (.inAtom a) c =
        some ⟨.atom a.reverse :: (outside [] c).tokens, (outside [] c).mode⟩ := by
      intro a
      rw [advance_inAtom, if_pos hc, outside_eq]
      rfl
    rw [Machine.run, Machine.run, List.foldlM_cons, List.foldlM_cons, Machine.step, Machine.step,
      hadvance, List.reverse_reverse]
    change (Except.map _ (List.foldlM (Reading.next maxDepth) r (_ :: _)) >>= _) = _
    rw [List.foldlM_cons, next_atom hr h]
    rfl

theorem run_comma (hm : Behind r v m) (hr : r.AwaitsValue maxDepth) {r' : Reading}
    (h : Reading.next maxDepth ⟨r.containers, .afterValue v⟩ .comma = .ok r') (depth : ℕ)
    (cs : List Char) :
    m.run maxDepth (',' :: (newline depth ++ cs)) = Machine.run maxDepth ⟨.between, r'⟩ cs := by
  rw [hm.run_cons hr rfl, Machine.run_cons_token rfl h, Machine.run_newline]

theorem run_close (hm : Behind r v m) (hr : r.AwaitsValue maxDepth) {c : Char} {t : Token}
    (hc : advance .between c = some ⟨[t], .between⟩) {r' : Reading}
    (h : Reading.next maxDepth ⟨r.containers, .afterValue v⟩ t = .ok r') (depth : ℕ) :
    m.run maxDepth (newline depth ++ [c]) = .ok ⟨.between, r'⟩ := by
  have hrun : m.run maxDepth (newline depth ++ [c]) =
      Machine.run maxDepth ⟨.between, ⟨r.containers, .afterValue v⟩⟩ (newline depth ++ [c]) :=
    hm.run_cons hr rfl _
  rw [hrun, Machine.run_newline, Machine.run_cons_token hc h]
  rfl

/-- The end of the document does so too. -/
theorem finish (hm : Behind r v m) (hr : r.AwaitsValue maxDepth) (hopen : r.containers = []) :
    m.finish maxDepth = .ok v := by
  cases hm with
  | taken => rw [hopen]; rfl
  | inAtom h =>
    rw [Machine.finish, Token.finish, List.reverse_reverse]
    change (List.foldlM (Reading.next maxDepth) r [_] >>= Reading.result) = _
    rw [List.foldlM_cons, next_atom hr h, hopen]
    rfl

end Behind

/-- An atom leaves the reader in it. -/
theorem behind_atom {r : Reading} {v : Json} {c : Char} {cs : List Char}
    (hcs : ∀ d ∈ c :: cs, endsAtom d = false) (h : ofAtom (c :: cs) = .ok v) :
    ∃ m, Machine.run maxDepth ⟨.between, r⟩ (c :: cs) = .ok m ∧ Behind r v m := by
  have hinside : ∀ (ds as : List Char), (∀ d ∈ ds, endsAtom d = false) →
      Machine.run maxDepth ⟨.inAtom as, r⟩ ds = .ok ⟨.inAtom (ds.reverse ++ as), r⟩ := by
    intro ds
    induction ds with
    | nil => intro as _; rfl
    | cons d ds ih =>
      intro as hds
      rw [List.forall_mem_cons] at hds
      have hd : advance (.inAtom as) d = some ⟨[], .inAtom (d :: as)⟩ := by
        rw [advance_inAtom, hds.1]
        rfl
      rw [Machine.run_cons_quiet hd, ih _ hds.2, List.reverse_cons, List.append_assoc]
      rfl
  rw [List.forall_mem_cons] at hcs
  have hc : advance .between c = some ⟨[], .inAtom [c]⟩ := by
    have hends := hcs.1
    simp only [endsAtom, Bool.or_eq_false_iff, beq_eq_false_iff_ne] at hends
    obtain ⟨⟨hblank, hquote⟩, hpunctuation⟩ := hends
    rw [advance, outside, if_neg (by rw [hblank]; decide), if_neg hquote]
    cases hp : punctuation? c with
    | some t => rw [hp] at hpunctuation; cases hpunctuation
    | none => rfl
  refine ⟨_, by rw [Machine.run_cons_quiet hc, hinside cs [c] hcs.2], ?_⟩
  rw [← List.reverse_cons]
  exact .inAtom h

/-- Wherever a value is awaited and so many containers may still be opened, the text of the
value is read. -/
def Readable (maxDepth n : ℕ) (v : Json) : Prop :=
  ∀ (depth : ℕ) (r : Reading), r.AwaitsValue maxDepth → r.containers.length + n ≤ maxDepth →
    ∃ m, Machine.run maxDepth ⟨.between, r⟩ (render depth v) = .ok m ∧ Behind r v m

theorem readable_atom {n : ℕ} {v : Json} {c : Char} {cs : List Char}
    (hrender : ∀ depth, render depth v = c :: cs) (hcs : ∀ d ∈ c :: cs, endsAtom d = false)
    (h : ofAtom (c :: cs) = .ok v) : Readable maxDepth n v := by
  intro depth r _ _
  rw [hrender]
  exact behind_atom hcs h

theorem readable_int (n : ℕ) {i : ℤ} (hi : Text.FewDigits i) : Readable maxDepth n (.int i) := by
  have hends : ∀ d ∈ Text.integerDigits i, endsAtom d = false := by
    intro d hd
    rcases Text.mem_integerDigits hd with rfl | hd
    · rfl
    · exact endsAtom_eq_false hd
  have hatom := ofAtom_integerDigits hi
  cases hdigits : Text.integerDigits i with
  | nil => rw [hdigits] at hatom; cases hatom
  | cons c cs =>
    rw [hdigits] at hends hatom
    exact readable_atom (fun depth => by rw [render, hdigits]) hends hatom

theorem readable_str (n : ℕ) {s : Symbols} (hs : s.Joined) : Readable maxDepth n (.str s) := by
  intro depth r hr _
  refine ⟨_, ?_, .taken⟩
  have hnext : r.next maxDepth (.text s) = .ok ⟨r.containers, .afterValue (.str s)⟩ :=
    hr _ (by rintro ⟨⟩)
  have hquoted := run_quoted hs hnext []
  rw [List.append_nil] at hquoted
  rw [render, hquoted]
  rfl

/-- The items behind the first, up to the end of the array. -/
theorem run_renderItems {n : ℕ} {frames : List Frame} (hroom : frames.length + 1 + n ≤ maxDepth)
    {vs : List Json} (hvs : ∀ v ∈ vs, Readable maxDepth n v) (depth outer : ℕ) {v : Json}
    {done : List Json} {m : Machine} {r : Reading} (hm : Behind r v m) (hr : r.AwaitsValue maxDepth)
    (hopen : r.containers = .array done :: frames) :
    m.run maxDepth (renderItems depth vs ++ (newline outer ++ [']'])) =
      .ok ⟨.between, ⟨frames, .afterValue (.arr (done.reverse ++ v :: vs))⟩⟩ := by
  induction vs generalizing v done m r with
  | nil =>
    have hclose : Reading.next maxDepth ⟨r.containers, .afterValue v⟩ .closeArray =
        .ok ⟨frames, .afterValue (.arr (done.reverse ++ [v]))⟩ := by
      rw [hopen, ← List.reverse_cons]
      rfl
    exact hm.run_close hr rfl hclose outer
  | cons w vs ih =>
    rw [List.forall_mem_cons] at hvs
    have hcomma : Reading.next maxDepth ⟨r.containers, .afterValue v⟩ .comma =
        .ok ⟨.array (v :: done) :: frames, .value⟩ := by rw [hopen]; rfl
    obtain ⟨m', hrun, hm'⟩ := hvs.1 depth ⟨.array (v :: done) :: frames, .value⟩
      (awaitsValue_value _) hroom
    rw [renderItems, List.cons_append, List.cons_append, List.cons_append, List.append_assoc,
      List.append_assoc, hm.run_comma hr hcomma, Machine.run_append, hrun]
    change m'.run maxDepth _ = _
    rw [ih hvs.2 hm' (awaitsValue_value _) rfl, List.reverse_cons, List.append_assoc]
    rfl

theorem put_of_notMem {key : Symbols} {v : Json} {ms : List (Symbols × Json)}
    (h : key ∉ ms.map Prod.fst) : put key v ms = ms ++ [(key, v)] := by
  induction ms with
  | nil => rfl
  | cons m ms ih =>
    rw [List.map_cons, List.mem_cons, not_or] at h
    rw [put, if_neg (Ne.symm h.1), ih h.2]
    rfl

theorem put_of_nodup {key : Symbols} {v : Json} {done ms : List (Symbols × Json)}
    (h : ((done ++ (key, v) :: ms).map Prod.fst).Nodup) : put key v done = done ++ [(key, v)] := by
  apply put_of_notMem
  rw [List.map_append, List.nodup_append] at h
  intro hmem
  exact h.2.2 key hmem key List.mem_cons_self rfl

/-- A key with its colon, where a key may stand. -/
theorem run_key {frames : List Frame} {e : Expecting} {done : List (Symbols × Json)}
    {key : Symbols} (hkey : key.Joined)
    (h : Reading.next maxDepth ⟨frames, e⟩ (.text key) = .ok ⟨frames, .colon done key⟩)
    (cs : List Char) :
    Machine.run maxDepth ⟨.between, ⟨frames, e⟩⟩ (quoted key ++ ':' :: ' ' :: cs) =
      Machine.run maxDepth ⟨.between, ⟨.object done key :: frames, .value⟩⟩ cs := by
  have hcolon : Reading.next maxDepth ⟨frames, .colon done key⟩ .colon =
      .ok ⟨.object done key :: frames, .value⟩ := rfl
  rw [run_quoted hkey h, Machine.run_cons_token rfl hcolon, Machine.run_cons_quiet rfl]

/-- The members behind the first, up to the end of the object. -/
theorem run_renderMembers {n : ℕ} {frames : List Frame}
    (hroom : frames.length + 1 + n ≤ maxDepth) {ms : List (Symbols × Json)}
    (hvalues : ∀ m ∈ ms, Readable maxDepth n m.2) (hkeys : ∀ m ∈ ms, m.1.Joined) (depth outer : ℕ)
    {key : Symbols} {v : Json} {done : List (Symbols × Json)}
    (hdistinct : ((done ++ (key, v) :: ms).map Prod.fst).Nodup) {m : Machine} {r : Reading}
    (hm : Behind r v m) (hr : r.AwaitsValue maxDepth)
    (hopen : r.containers = .object done key :: frames) :
    m.run maxDepth (renderMembers depth ms ++ (newline outer ++ ['}'])) =
      .ok ⟨.between, ⟨frames, .afterValue (.obj (done ++ (key, v) :: ms))⟩⟩ := by
  induction ms generalizing key v done m r with
  | nil =>
    have hclose : Reading.next maxDepth ⟨r.containers, .afterValue v⟩ .closeObject =
        .ok ⟨frames, .afterValue (.obj (done ++ [(key, v)]))⟩ := by
      rw [hopen, ← put_of_nodup hdistinct]
      rfl
    exact hm.run_close hr rfl hclose outer
  | cons member ms ih =>
    rw [List.forall_mem_cons] at hvalues hkeys
    have hput := put_of_nodup hdistinct
    have hcomma : Reading.next maxDepth ⟨r.containers, .afterValue v⟩ .comma =
        .ok ⟨frames, .key (done ++ [(key, v)])⟩ := by rw [hopen, ← hput]; rfl
    obtain ⟨m', hrun, hm'⟩ := hvalues.1 depth
      ⟨.object (done ++ [(key, v)]) member.1 :: frames, .value⟩ (awaitsValue_value _) hroom
    have hrest : ((done ++ [(key, v)]) ++ (member.1, member.2) :: ms).map Prod.fst =
        (done ++ (key, v) :: member :: ms).map Prod.fst := by simp
    rw [← hrest] at hdistinct
    have hkey : Reading.next maxDepth ⟨frames, .key (done ++ [(key, v)])⟩ (.text member.1) =
        .ok ⟨frames, .colon (done ++ [(key, v)]) member.1⟩ := rfl
    simp only [renderMembers, List.cons_append, List.nil_append, List.append_assoc]
    rw [hm.run_comma hr hcomma, run_key hkeys.1 hkey, Machine.run_append, hrun]
    change m'.run maxDepth _ = _
    rw [ih hvalues.2 hkeys.2 hdistinct hm' (awaitsValue_value _) rfl, List.append_assoc]
    rfl

/-- Documents that are read back: integers have few digits, the keys of an object are
distinct, and no more than so many containers are nested. -/
inductive Legible : ℕ → Json → Prop where
  | null {n : ℕ} : Legible n .null
  | bool {n : ℕ} (b : Bool) : Legible n (.bool b)
  | int {n : ℕ} {i : ℤ} (hi : Text.FewDigits i) : Legible n (.int i)
  | str {n : ℕ} {s : Symbols} (hs : s.Joined) : Legible n (.str s)
  | arr {n : ℕ} {vs : List Json} (hvs : ∀ v ∈ vs, Legible n v) : Legible (n + 1) (.arr vs)
  | obj {n : ℕ} {ms : List (Symbols × Json)} (hvalues : ∀ m ∈ ms, Legible n m.2)
      (hkeys : ∀ m ∈ ms, m.1.Joined) (hdistinct : (ms.map Prod.fst).Nodup) :
      Legible (n + 1) (.obj ms)

/-- The room for one more container. -/
theorem descend_eq {frames : List Frame} {n : ℕ} (hroom : frames.length + (n + 1) ≤ maxDepth)
    (inside : Reading) : Reading.descend maxDepth frames inside = .ok inside :=
  if_pos (by omega)

theorem readable_arr {n : ℕ} {vs : List Json} (hvs : ∀ v ∈ vs, Readable maxDepth n v) :
    Readable maxDepth (n + 1) (.arr vs) := by
  intro depth r hr hroom
  have hopen : r.next maxDepth .openArray = .ok ⟨.array [] :: r.containers, .firstItem⟩ := by
    rw [hr _ (by rintro ⟨⟩), Reading.start, descend_eq hroom]
  refine ⟨_, ?_, .taken⟩
  cases vs with
  | nil =>
    have hclose : Reading.next maxDepth ⟨.array [] :: r.containers, .firstItem⟩ .closeArray =
        .ok ⟨r.containers, .afterValue (.arr [])⟩ := rfl
    rw [render, Machine.run_cons_token rfl hopen, Machine.run_cons_token rfl hclose]
    rfl
  | cons v vs =>
    rw [List.forall_mem_cons] at hvs
    obtain ⟨m, hrun, hm⟩ := hvs.1 (depth + 1) ⟨.array [] :: r.containers, .firstItem⟩
      (awaitsValue_firstItem _) (by rw [List.length_cons]; omega)
    simp only [render, List.cons_append, List.append_assoc]
    rw [Machine.run_cons_token rfl hopen, Machine.run_newline, Machine.run_append, hrun]
    exact run_renderItems (by omega) hvs.2 (depth + 1) depth hm (awaitsValue_firstItem _) rfl

theorem readable_obj {n : ℕ} {ms : List (Symbols × Json)}
    (hvalues : ∀ m ∈ ms, Readable maxDepth n m.2) (hkeys : ∀ m ∈ ms, m.1.Joined)
    (hdistinct : (ms.map Prod.fst).Nodup) : Readable maxDepth (n + 1) (.obj ms) := by
  intro depth r hr hroom
  have hopen : r.next maxDepth .openObject = .ok ⟨r.containers, .firstKey⟩ := by
    rw [hr _ (by rintro ⟨⟩), Reading.start, descend_eq hroom]
  refine ⟨_, ?_, .taken⟩
  cases ms with
  | nil =>
    have hclose : Reading.next maxDepth ⟨r.containers, .firstKey⟩ .closeObject =
        .ok ⟨r.containers, .afterValue (.obj [])⟩ := rfl
    rw [render, Machine.run_cons_token rfl hopen, Machine.run_cons_token rfl hclose]
    rfl
  | cons member ms =>
    rw [List.forall_mem_cons] at hvalues hkeys
    obtain ⟨m, hrun, hm⟩ := hvalues.1 (depth + 1) ⟨.object [] member.1 :: r.containers, .value⟩
      (awaitsValue_value _) (by rw [List.length_cons]; omega)
    have hkey : Reading.next maxDepth ⟨r.containers, .firstKey⟩ (.text member.1) =
        .ok ⟨r.containers, .colon [] member.1⟩ := rfl
    simp only [render, List.cons_append, List.nil_append, List.append_assoc]
    rw [Machine.run_cons_token rfl hopen, Machine.run_newline, run_key hkeys.1 hkey,
      Machine.run_append, hrun]
    exact run_renderMembers (by omega) hvalues.2 hkeys.2 (depth + 1) depth hdistinct hm
      (awaitsValue_value _) rfl

theorem Legible.readable {n : ℕ} {v : Json} (h : Legible n v) : Readable maxDepth n v := by
  have hletters {cs : List Char} (hcs : cs.any endsAtom = false) :
      ∀ d ∈ cs, endsAtom d = false := by
    intro d hd
    exact Bool.eq_false_iff.mpr (List.any_eq_false.mp hcs d hd)
  induction h with
  | null => exact readable_atom (fun _ => rfl) (hletters rfl) rfl
  | bool b =>
    cases b with
    | true => exact readable_atom (fun _ => rfl) (hletters rfl) rfl
    | false => exact readable_atom (fun _ => rfl) (hletters rfl) rfl
  | int hi => exact readable_int _ hi
  | str hs => exact readable_str _ hs
  | arr _ ih => exact readable_arr ih
  | obj _ hkeys hdistinct ih => exact readable_obj ih hkeys hdistinct

/-- A document is what its text is read as. -/
theorem parse_text {v : Json} (h : Legible maxDepth v) : parse (text v) maxDepth = .ok v := by
  have hreadable : Readable maxDepth maxDepth v := h.readable
  obtain ⟨m, hrun, hm⟩ := hreadable 0 ⟨[], .value⟩ (awaitsValue_value []) (by simp)
  rw [parse, text, String.toList_ofList]
  change (Machine.run maxDepth ⟨.between, ⟨[], .value⟩⟩ (render 0 v) >>= _) = _
  rw [hrun]
  exact hm.finish (awaitsValue_value []) rfl

end Json
end FoldingVerifier
