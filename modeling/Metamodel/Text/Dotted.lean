/-!
# Dotted names

A dotted name is cut at its last dot: what is before it says where the last segment belongs. The
operations are on lists of characters, and for any separator.

* `splitLast_eq_some`: the cut loses only the separator, and none is left after it.
* `splitLast_eq_none`: there is no cut exactly when the separator does not occur.
-/

namespace Metamodel.Text

/-- The parts before and after the last separator, or `none` if there is no separator. -/
def splitLast (sep : Char) : List Char → Option (List Char × List Char)
  | [] => none
  | c :: rest =>
    match splitLast sep rest with
    | some (before, after) => some (c :: before, after)
    | none => if c = sep then some ([], rest) else none

/-- What follows the last separator; everything if there is no separator. -/
def lastSegment (sep : Char) (cs : List Char) : List Char :=
  match splitLast sep cs with
  | some (_, after) => after
  | none => cs

/-- There is no cut exactly when the separator does not occur. -/
theorem splitLast_eq_none {sep : Char} {cs : List Char} : splitLast sep cs = none ↔ sep ∉ cs := by
  induction cs with
  | nil => simp [splitLast]
  | cons c rest ih =>
    rw [splitLast, List.mem_cons, not_or, ← ih]
    split
    · simp [*]
    · split
      · rename_i h
        simp [h.symm]
      · rename_i hr hc
        simp [hr, Ne.symm hc]

/-- The cut is at the last separator: it loses only that one, and none is left after it. -/
theorem splitLast_eq_some {sep : Char} {cs before after : List Char} :
    splitLast sep cs = some (before, after) ↔ cs = before ++ sep :: after ∧ sep ∉ after := by
  induction cs generalizing before after with
  | nil => simp [splitLast]
  | cons c rest ih =>
    rw [splitLast]
    split
    · rename_i b a h
      have hr := ih.1 h
      constructor
      · rintro ⟨⟩
        exact ⟨by rw [hr.1]; rfl, hr.2⟩
      · rintro ⟨hc, ha⟩
        cases before with
        | nil =>
          obtain ⟨-, rfl⟩ := List.cons.inj hc
          exact absurd (by rw [hr.1]; simp) ha
        | cons x xs =>
          obtain ⟨rfl, hx⟩ := List.cons.inj hc
          have := ih.2 ⟨hx, ha⟩
          rw [h] at this
          cases this
          rfl
    · rename_i h
      have hn := splitLast_eq_none.1 h
      split
      · rename_i hc
        subst hc
        constructor
        · rintro ⟨⟩
          exact ⟨rfl, hn⟩
        · rintro ⟨hc, -⟩
          cases before with
          | nil => obtain ⟨-, rfl⟩ := List.cons.inj hc; rfl
          | cons x xs => obtain ⟨-, rfl⟩ := List.cons.inj hc; simp at hn
      · rename_i hc
        constructor
        · intro h
          cases h
        · rintro ⟨hs, -⟩
          cases before with
          | nil => obtain ⟨rfl, -⟩ := List.cons.inj hs; exact absurd rfl hc
          | cons x xs => obtain ⟨-, rfl⟩ := List.cons.inj hs; simp at hn

end Metamodel.Text
