import Mathlib.Data.List.TakeWhile
import RehashChart.Proofs.Files.Parts
import RehashChart.Settings.KeyPath

/-! # Keys without brackets

A key in which no bracket stands is one name as it stands, or it is split at its points.
-/

namespace RehashChart.Settings.KeyPath

open RehashChart.Settings.Tree (Step)
open RehashChart.Text (splitAt)

def byNames (names : List (List Char)) : List Step := names.map fun name => .key (String.ofList name)

theorem notMem_of_isNameChar {name : List Char} (h : ∀ c ∈ name, isNameChar c = true) :
    '.' ∉ name := by
  intro hpoint
  exact absurd (h '.' hpoint) (by decide)

/-- The rest of a key after a name goes on to where the points split it. -/
theorem readSteps_eq_some {text : List Char} {steps : List Step} (hbracket : '[' ∉ text)
    (h : readSteps text = some steps) :
    ∃ names, steps = byNames names ∧
      ∀ name, (∀ c ∈ name, isNameChar c = true) → splitAt '.' (name ++ text) = name :: names := by
  induction text using readSteps.induct generalizing steps with
  | case1 =>
      rw [readSteps] at h
      cases h
      refine ⟨[], rfl, ?_⟩
      intro name hname
      rw [List.append_nil, Text.splitAt_of_notMem (notMem_of_isNameChar hname)]
  | case2 rest name =>
      rename_i hempty
      rw [readSteps, if_pos hempty] at h
      cases h
  | case3 rest name =>
      rename_i hname ih
      rw [readSteps, if_neg hname] at h
      obtain ⟨inner, hinner, rfl⟩ := Option.map_eq_some_iff.mp h
      have hrest : '[' ∉ rest.dropWhile isNameChar := by
        intro hmem
        exact hbracket (List.mem_cons_of_mem _ ((List.dropWhile_sublist _).mem hmem))
      obtain ⟨names, rfl, hsplit⟩ := ih hrest hinner
      refine ⟨rest.takeWhile isNameChar :: names, rfl, ?_⟩
      intro before hbefore
      have hnext := hsplit (rest.takeWhile isNameChar) fun c hc => List.mem_takeWhile_imp hc
      rw [List.takeWhile_append_dropWhile] at hnext
      rw [Text.splitAt_append, Text.splitAt_of_notMem (notMem_of_isNameChar hbefore), hnext]
      rfl
  | case8 text hnil hpoint hopen =>
      rw [readSteps] at h
      · cases h
      · exact hnil
      · exact hpoint
      · exact hopen
  | _ => exact absurd List.mem_cons_self hbracket

theorem ofKey_of_notMem {key : String} (h : '[' ∉ key.toList) :
    ofKey key = [.key key] ∨ ofKey key = (Text.splitText '.' key).map .key := by
  have hread : read? key = none ∨ read? key = some ((Text.splitText '.' key).map .key) := by
    unfold read?
    dsimp only
    split
    · exact .inl rfl
    · cases hsteps : readSteps (key.toList.dropWhile isNameChar) with
      | none => exact .inl rfl
      | some steps =>
          have hrest : '[' ∉ key.toList.dropWhile isNameChar := by
            intro hmem
            exact h ((List.dropWhile_sublist _).mem hmem)
          obtain ⟨names, rfl, hsplit⟩ := readSteps_eq_some hrest hsteps
          have hkey := hsplit (key.toList.takeWhile isNameChar) fun c hc =>
            List.mem_takeWhile_imp hc
          rw [List.takeWhile_append_dropWhile] at hkey
          refine .inr ?_
          simp [Text.splitText, hkey, byNames]
  cases hread with
  | inl hnone => exact .inl (by rw [ofKey, hnone, Option.getD_none])
  | inr hsome => exact .inr (by rw [ofKey, hsome, Option.getD_some])

/-- A key without brackets leads by itself, or by two names at least. -/
theorem ofKey_cases {key : String} (h : '[' ∉ key.toList) :
    ofKey key = [.key key] ∨
      ∃ first second names, Text.splitText '.' key = first :: second :: names ∧
        ofKey key = .key first :: .key second :: names.map .key := by
  cases ofKey_of_notMem h with
  | inl hself => exact .inl hself
  | inr hsplit =>
      obtain ⟨first, rest, hparts⟩ := List.exists_cons_of_ne_nil
        (Text.splitAt_ne_nil '.' key.toList)
      cases rest with
      | nil =>
          refine .inl (hsplit.trans ?_)
          rw [Text.splitText, hparts, Text.splitAt_eq_singleton hparts]
          simp
      | cons second names =>
          refine .inr ⟨_, _, _, by rw [Text.splitText, hparts]; rfl, ?_⟩
          rw [hsplit, Text.splitText, hparts]
          rfl

theorem ofKey_eq_self {key : String} (hbracket : '[' ∉ key.toList) (hpoint : '.' ∉ key.toList) :
    ofKey key = [.key key] := by
  cases ofKey_cases hbracket with
  | inl hself => exact hself
  | inr hsplit =>
      obtain ⟨first, second, names, hparts, _⟩ := hsplit
      rw [Text.splitText, Text.splitAt_of_notMem hpoint] at hparts
      cases hparts

end RehashChart.Settings.KeyPath
