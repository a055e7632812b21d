import Metamodel.Manifest
import Metamodel.Proofs.Writer.Limit

/-!
# Manifests, written through a buffer

A manifest is written through a buffer that is dropped afterwards. What the buffer still holds back
then is written without anyone hearing of a failure: the end of the last line, and the document too
if it fits into the buffer. The bytes that are within the limit of the space are written in any
case.

* `passedOn`: the number of bytes that are passed on before the buffer is dropped.
* `passedOn_lt_iff`: something is held back unless the buffer holds at most one byte.
* `writeBuffered_eq`: what is written, and which failures are heard of.
-/

namespace Metamodel.Manifest

variable (models : Manifest) (capacity : Nat)

/-- The number of bytes of a manifest that are passed on before the buffer is dropped. -/
def passedOn : Nat :=
  if capacity ≤ 1 then models.bytes.length
  else if (textBytes models.text).length < capacity then 0
  else (textBytes models.text).length

theorem length_endOfLine : (textBytes "\n").length = 1 := rfl

theorem length_bytes : models.bytes.length = (textBytes models.text).length + 1 := by
  rw [bytes, List.length_append, length_endOfLine]

/-- A document starts with a brace. -/
theorem length_text_pos : 0 < (textBytes models.text).length := by
  rw [length_textBytes, Nat.pos_iff_ne_zero, Ne, String.utf8ByteSize_eq_zero_iff]
  intro h
  have hchars := congrArg String.toList h
  simp [text, toJson, Json.pretty, Json.prettyChars] at hchars

theorem passedOn_le : models.passedOn capacity ≤ models.bytes.length := by
  rw [passedOn, length_bytes]
  split
  · exact Nat.le_refl _
  split <;> omega

/-- Something is held back until the buffer is dropped, unless the buffer holds at most one byte. -/
theorem passedOn_lt_iff : models.passedOn capacity < models.bytes.length ↔ 1 < capacity := by
  rw [passedOn, length_bytes]
  split
  · omega
  split <;> omega

section Writing

variable {ω : Type} {models capacity} {writer : Writer ω} {limit : Limit} {failure : String}
  {state : Bytes → ω}

/-- A limit that allows a manifest allows its document. -/
theorem allows_text (h : limit.Allows models.bytes.length) :
    limit.Allows (textBytes models.text).length :=
  h.mono (by rw [length_bytes]; exact Nat.le_succ _)

/-- If the document cannot be written, the end of its line is not tried. -/
theorem write_of_error {writeAll : ω → Bytes → ω × Except String Unit} {s s' : ω} {e : String}
    (h : writeAll s (textBytes models.text) = (s', .error e)) :
    models.write writeAll s = (s', .error (.writing e)) := by
  rw [write, h]

/-- If the document is written, the end of its line decides. -/
theorem write_of_ok {writeAll : ω → Bytes → ω × Except String Unit} {s s' s'' : ω}
    {outcome : Except String Unit} (h : writeAll s (textBytes models.text) = (s', .ok ()))
    (hline : writeAll s' (textBytes "\n") = (s'', outcome)) :
    models.write writeAll s = (s'', outcome.mapError .writing) := by
  rw [write, h]
  dsimp only
  rw [hline]
  cases outcome <;> rfl

theorem writeBuffered_of_write {s : ω} {b : Buffered ω} {outcome : Except Refusal Unit}
    (h : models.write (Buffered.writeAll writer capacity) (.start s) = (b, outcome)) :
    models.writeBuffered writer capacity s = (b.drop writer, outcome) := by
  rw [writeBuffered, h]

/-- A document that fits into the buffer is held back, and the end of its line too. -/
theorem writeBuffered_of_small (h : writer.TakesUpTo limit failure state) (hcapacity : 1 < capacity)
    (hsmall : (textBytes models.text).length < capacity) :
    models.writeBuffered writer capacity (state []) = (state (limit.cut models.bytes), .ok ()) := by
  have hdocument : Buffered.writeAll writer capacity ⟨state [], []⟩ (textBytes models.text) =
      (⟨state [], textBytes models.text⟩, .ok ()) :=
    Buffered.writeAll_of_fits writer (by simpa using Nat.le_of_lt hsmall) hsmall
  have hline : Buffered.writeAll writer capacity ⟨state [], textBytes models.text⟩
      (textBytes "\n") = (⟨state [], models.bytes⟩, .ok ()) :=
    Buffered.writeAll_of_fits writer hsmall hcapacity
  rw [writeBuffered_of_write (write_of_ok hdocument hline), Buffered.drop_eq_writeAll,
    h.writeAll_start]
  rfl

/-- A document that would fill the buffer is passed on directly. If it is not within the limit, that
is heard of. -/
theorem writeBuffered_of_not_allows (h : writer.TakesUpTo limit failure state)
    (hlarge : capacity ≤ (textBytes models.text).length)
    (hnone : ¬ limit.Allows (textBytes models.text).length) :
    models.writeBuffered writer capacity (state []) =
      (state (limit.cut models.bytes), .error (.writing failure)) := by
  have hdocument := Buffered.writeAll_of_large writer (state []) hlarge
  rw [h.writeAll_start, if_neg hnone] at hdocument
  rw [writeBuffered_of_write (write_of_error hdocument), Buffered.drop_start, bytes,
    Limit.cut_append_of_not_allows hnone]

/-- Behind a document that is passed on directly, the end of its line is held back. -/
theorem writeBuffered_of_large (h : writer.TakesUpTo limit failure state) (hcapacity : 1 < capacity)
    (hlarge : capacity ≤ (textBytes models.text).length)
    (hall : limit.Allows (textBytes models.text).length) :
    models.writeBuffered writer capacity (state []) = (state (limit.cut models.bytes), .ok ()) := by
  have hdocument := Buffered.writeAll_of_large writer (state []) hlarge
  rw [h.writeAll_start, if_pos hall, Limit.cut_eq_self_iff.mpr hall] at hdocument
  have hline : Buffered.writeAll writer capacity ⟨state (textBytes models.text), []⟩
      (textBytes "\n") = (⟨state (textBytes models.text), textBytes "\n"⟩, .ok ()) :=
    Buffered.writeAll_of_fits writer (Nat.le_of_lt hcapacity) hcapacity
  rw [writeBuffered_of_write (write_of_ok hdocument hline), Buffered.drop_eq_writeAll,
    h.writeAll hall]
  rfl

/-- If the buffer holds at most one byte, all is passed on directly. -/
theorem writeBuffered_of_le_one (h : writer.TakesUpTo limit failure state)
    (hcapacity : capacity ≤ 1) (hall : limit.Allows (textBytes models.text).length) :
    models.writeBuffered writer capacity (state []) =
      (state (limit.cut models.bytes),
        if limit.Allows models.bytes.length then .ok () else .error (.writing failure)) := by
  have hdocument := Buffered.writeAll_of_large writer (state [])
    (Nat.le_trans hcapacity (length_text_pos models))
  rw [h.writeAll_start, if_pos hall, Limit.cut_eq_self_iff.mpr hall] at hdocument
  have hline := Buffered.writeAll_of_large writer (state (textBytes models.text))
    (Nat.le_trans hcapacity (Nat.le_of_eq length_endOfLine.symm))
  rw [h.writeAll hall] at hline
  rw [writeBuffered_of_write (write_of_ok hdocument hline), Buffered.drop_start, bytes]
  split <;> rfl

/-- The bytes of a manifest are written as far as they are within the limit. A failure is heard of
if it concerns the bytes that are passed on before the buffer is dropped. -/
theorem writeBuffered_eq (h : writer.TakesUpTo limit failure state) (models : Manifest)
    (capacity : Nat) :
    models.writeBuffered writer capacity (state []) =
      (state (limit.cut models.bytes),
        if limit.Allows (models.passedOn capacity) then .ok () else .error (.writing failure)) := by
  -- Only what is passed on directly is tried before the buffer is dropped.
  rw [passedOn]
  rcases Nat.lt_or_ge 1 capacity with hcapacity | hcapacity
  · rw [if_neg (Nat.not_le.mpr hcapacity)]
    rcases Nat.lt_or_ge (textBytes models.text).length capacity with hsmall | hlarge
    · rw [if_pos hsmall, if_pos limit.allows_zero, writeBuffered_of_small h hcapacity hsmall]
    rw [if_neg (Nat.not_lt.mpr hlarge)]
    split
    · next hall => exact writeBuffered_of_large h hcapacity hlarge hall
    · next hnone => exact writeBuffered_of_not_allows h hlarge hnone
  rw [if_pos hcapacity]
  by_cases hall : limit.Allows (textBytes models.text).length
  · exact writeBuffered_of_le_one h hcapacity hall
  rw [if_neg (mt allows_text hall)]
  exact writeBuffered_of_not_allows h (Nat.le_trans hcapacity (length_text_pos models)) hall

end Writing

end Metamodel.Manifest
