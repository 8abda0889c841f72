import FoldingVerifier.Cli
import Mathlib.Tactic

/-! The flag for the one-array form, given last, sets the form and nothing else.
Arguments that are refused without it are refused with it for the same reason: where it
is read as the value of a flag or as a plain argument, the arguments before it would
have been refused as well. -/
namespace FoldingVerifier
namespace Cli

/-- A long flag that is written in full and is the start of no other. -/
theorem role_of_filter {arg : String} {f : Flag} (hdashes : arg.startsWith "--" = true)
    (hname : splitAssignment arg = (arg, none))
    (hflags : (longFlags.filter fun f => f.1.startsWith arg) = [(arg, f)]) :
    role arg = .ok (.flag f) := by
  rw [role, if_pos hdashes, longRole, hname]
  simp only [hflags]

theorem role_flat : role "--opaque" = .ok (.flag .flat) :=
  role_of_filter (by simp) rfl (by simp [longFlags])

/-- What the flag is at the end of the arguments. -/
def lastRole (args : List String) : Role :=
  if "--" ∈ args then .plain "--opaque" else .flag .flat

theorem roles_append_flat (args : List String) :
    roles (args ++ ["--opaque"]) = (roles args).map fun rs => rs ++ [lastRole args] := by
  induction args with
  | nil =>
    change (do return (← role "--opaque") :: []) = _
    rw [role_flat]
    rfl
  | cons arg args ih =>
    by_cases h : arg = "--"
    · subst h
      have hlast : lastRole ("--" :: args) = .plain "--opaque" := if_pos List.mem_cons_self
      rw [hlast, List.cons_append, roles, roles, List.map_append]
      rfl
    · have hlast : lastRole (arg :: args) = lastRole args := by
        have hiff : "--" ∈ arg :: args ↔ "--" ∈ args := by
          rw [List.mem_cons, or_iff_right (Ne.symm h)]
        rw [lastRole, lastRole]
        simp only [hiff]
      rw [hlast, List.cons_append, roles, roles, ih]
      · cases role arg with
        | error r => rfl
        | ok a =>
          cases roles args with
          | error r => rfl
          | ok rs => rfl
      · exact h
      · exact h

/-- The separator is among the roles when it is among the arguments. -/
theorem separator_mem_roles {args : List String} {rs : List Role} (h : roles args = .ok rs)
    (hs : "--" ∈ args) : .separator ∈ rs := by
  induction args generalizing rs with
  | nil => cases hs
  | cons arg args ih =>
    by_cases ha : arg = "--"
    · subst ha
      cases h
      exact List.mem_cons_self
    · have htail : "--" ∈ args := (List.mem_cons.mp hs).resolve_left (Ne.symm ha)
      rw [roles] at h
      · cases hr : role arg with
        | error r => rw [hr] at h; cases h
        | ok a =>
          cases ht : roles args with
          | error r => rw [hr, ht] at h; cases h
          | ok rs' =>
            rw [hr, ht] at h
            cases h
            exact List.mem_cons_of_mem a (ih ht htail)
      · exact ha

namespace Settings

theorem set_surplus (s : Settings) (name : String) (f : File) :
    (s.set name f).surplus = s.surplus := by cases f <;> rfl

/-- Surplus stays, and the separator is surplus. -/
theorem take_surplus {s s' : Settings} {r : Role} (h : s.take r = .ok s')
    (hs : s.surplus = true ∨ r = .separator) : s'.surplus = true := by
  have hkept : r ≠ .separator → s.surplus = true := fun hr => hs.resolve_right hr
  unfold take at h
  split at h
  all_goals try split at h
  all_goals cases h
  · exact (set_surplus s _ _).trans (hkept (by rintro ⟨⟩))
  · exact hkept (by rintro ⟨⟩)
  · exact hkept (by rintro ⟨⟩)
  · exact (set_surplus s _ _).trans (hkept (by rintro ⟨⟩))
  all_goals rfl

theorem foldlM_take_surplus {rs : List Role} {s s' : Settings}
    (h : rs.foldlM take s = .ok s') (hs : s.surplus = true ∨ .separator ∈ rs) :
    s'.surplus = true := by
  induction rs generalizing s with
  | nil =>
    cases h
    exact hs.resolve_right List.not_mem_nil
  | cons r rs ih =>
    rw [List.foldlM_cons] at h
    cases ht : s.take r with
    | error x => rw [ht] at h; cases h
    | ok t =>
      rw [ht] at h
      refine ih h ?_
      rcases hs with hs | hs
      · exact .inl (take_surplus ht (.inl hs))
      · rcases List.mem_cons.mp hs with hr | hr
        · exact .inl (take_surplus ht (.inr hr.symm))
        · exact .inr hr

theorem settle_of_surplus {s : Settings} (h : s.surplus = true) : s.settle = .error .usage := by
  unfold settle
  split
  · next hs => rw [hs] at h; cases h
  · rfl

theorem settle_of_awaiting {s : Settings} {f : File} (h : s.awaiting = some f) :
    s.settle = .error .usage := by
  unfold settle
  split
  · next hs _ => rw [hs] at h; cases h
  · rfl

/-- A plain argument is taken where a value is awaited, and is surplus elsewhere. -/
theorem take_plain (s : Settings) (text : String) : ∃ s', s.take (.plain text) = .ok s' := by
  unfold take
  cases s.awaiting with
  | some f => exact ⟨_, rfl⟩
  | none => exact ⟨_, rfl⟩

theorem settle_take_plain {s : Settings} (h : s.surplus = true) (text : String) :
    (s.take (.plain text) >>= settle) = .error .usage := by
  obtain ⟨s', hs'⟩ := take_plain s text
  rw [hs']
  exact settle_of_surplus (take_surplus hs' (.inl h))

theorem settle_take_flat (s : Settings) :
    (s.take (.flag .flat) >>= settle) = s.settle.map fun o => { o with flat := true } := by
  cases ha : s.awaiting with
  | some f =>
    rw [settle_of_awaiting ha]
    unfold take
    rw [ha]
    rfl
  | none =>
    unfold take
    rw [ha]
    obtain ⟨key, proof, flat, awaiting, surplus⟩ := s
    cases ha
    cases key <;> cases proof <;> cases surplus <;> rfl

end Settings

theorem parse_append_flat (args : List String) :
    parse (args ++ ["--opaque"]) = (parse args).map fun o => { o with flat := true } := by
  unfold parse
  rw [roles_append_flat]
  cases hr : roles args with
  | error x => rfl
  | ok rs =>
    change ((rs ++ [lastRole args]).foldlM Settings.take .start >>= Settings.settle) =
      (rs.foldlM Settings.take .start >>= Settings.settle).map _
    rw [List.foldlM_append]
    cases hf : rs.foldlM Settings.take .start with
    | error x => rfl
    | ok s =>
      change (([lastRole args].foldlM Settings.take s) >>= Settings.settle) = s.settle.map _
      simp only [List.foldlM_cons, List.foldlM_nil, bind_pure]
      by_cases hs : "--" ∈ args
      · have hsurplus := Settings.foldlM_take_surplus hf (.inr (separator_mem_roles hr hs))
        rw [lastRole, if_pos hs, Settings.settle_of_surplus hsurplus]
        exact Settings.settle_take_plain hsurplus "--opaque"
      · rw [lastRole, if_neg hs]
        exact Settings.settle_take_flat s

end Cli
end FoldingVerifier
