import Mathlib.Data.List.TakeWhile
import Metamodel.Text.Blank

/-!
# Trimmed texts

What is left of a text without the blank characters at both ends: a part of it that neither starts
nor ends with a blank, with blanks only around it.

* `Trims`: a text is this part, with blanks around it.
* `trimChars_eq_iff`: trimming finds the part, and there is only one.
* `isEmpty_trim`: nothing is left exactly of a text of blank characters.
-/

namespace Metamodel.Text

variable {cs core before rest after : List Char}

/-- With blanks around it the second text is the first one, and it has none at its ends. -/
structure Trims (cs core : List Char) : Prop where
  surrounded : ∃ before after, (∀ c ∈ before, isBlank c = true) ∧ (∀ c ∈ after, isBlank c = true) ∧
    cs = before ++ core ++ after
  head_visible : ∀ c ∈ core.head?, isBlank c = false
  last_visible : ∀ c ∈ core.getLast?, isBlank c = false

theorem dropWhile_isBlank_append (hbefore : ∀ c ∈ before, isBlank c = true)
    (hrest : ∀ c ∈ rest.head?, isBlank c = false) :
    (before ++ rest).dropWhile isBlank = rest := by
  rw [List.dropWhile_append_of_pos hbefore]
  cases rest with
  | nil => rfl
  | cons c cs => exact List.dropWhile_cons_of_neg (by simp [hrest c rfl])

theorem head?_dropWhile_isBlank (cs : List Char) :
    ∀ c ∈ (cs.dropWhile isBlank).head?, isBlank c = false := by
  intro c hc
  have h := List.head?_dropWhile_not isBlank cs
  rw [hc] at h
  exact h

theorem trims_trimChars (cs : List Char) : Trims cs (trimChars cs) := by
  let front := cs.dropWhile isBlank
  have hfront : front = trimChars cs ++ (front.reverse.takeWhile isBlank).reverse := by
    rw [trimChars, ← List.reverse_append, List.takeWhile_append_dropWhile, List.reverse_reverse]
  refine ⟨⟨cs.takeWhile isBlank, (front.reverse.takeWhile isBlank).reverse, ?_, ?_, ?_⟩, ?_, ?_⟩
  · exact fun c hc => List.mem_takeWhile_imp hc
  · exact fun c hc => List.mem_takeWhile_imp (List.mem_reverse.mp hc)
  · rw [List.append_assoc, ← hfront, List.takeWhile_append_dropWhile]
  · -- What starts the part starts the text behind its first blanks.
    intro c hc
    refine head?_dropWhile_isBlank cs c ?_
    show c ∈ front.head?
    rw [hfront, List.head?_append, hc]
    rfl
  · intro c hc
    rw [trimChars, List.getLast?_reverse] at hc
    exact head?_dropWhile_isBlank _ c hc

/-- Trimming finds the part, which is the only one. -/
theorem trimChars_eq_iff : trimChars cs = core ↔ Trims cs core := by
  refine ⟨fun h => h ▸ trims_trimChars cs, fun h => ?_⟩
  obtain ⟨before, after, hbefore, hafter, rfl⟩ := h.surrounded
  by_cases hcore : core = []
  · subst hcore
    have hall : ∀ c ∈ before ++ [] ++ after, isBlank c = true := by
      simpa [or_imp, forall_and] using ⟨hbefore, hafter⟩
    rw [trimChars, List.dropWhile_eq_nil_iff.mpr hall]
    rfl
  · have hhead : ∀ c ∈ (core ++ after).head?, isBlank c = false := by
      obtain ⟨c, rest, rfl⟩ := List.exists_cons_of_ne_nil hcore
      exact h.head_visible
    have hlast : ∀ c ∈ core.reverse.head?, isBlank c = false := by
      rw [List.head?_reverse]
      exact h.last_visible
    rw [trimChars, List.append_assoc, dropWhile_isBlank_append hbefore hhead, List.reverse_append,
      dropWhile_isBlank_append (fun c hc => hafter c (List.mem_reverse.mp hc)) hlast,
      List.reverse_reverse]

theorem trimChars_eq_nil_iff : trimChars cs = [] ↔ ∀ c ∈ cs, isBlank c = true := by
  rw [trimChars_eq_iff]
  constructor
  · intro h
    obtain ⟨before, after, hbefore, hafter, rfl⟩ := h.surrounded
    simpa [or_imp, forall_and] using ⟨hbefore, hafter⟩
  · intro h
    exact ⟨⟨cs, [], h, by simp, by simp⟩, by simp, by simp⟩

/-- Nothing is left of a text exactly if all of it is blank. -/
theorem isEmpty_trim (s : String) : (trim s).isEmpty = isBlankText s := by
  rw [Bool.eq_iff_iff, String.isEmpty_iff, trim, isBlankText, List.all_eq_true,
    ← trimChars_eq_nil_iff]
  exact String.ofList_eq_empty_iff

end Metamodel.Text
