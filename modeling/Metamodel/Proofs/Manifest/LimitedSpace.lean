import Metamodel.Derivation.Model
import Metamodel.Proofs.Manifest.Writing
import Metamodel.Proofs.Text.ByteOrder

/-!
# Manifests, written where there is limited space

Without a buffer, a manifest is written in two goes: the document, and the end of its line. Either
can be cut at any byte, within a character too. What is there in the end is cut at the limit, and a
failure is heard of exactly if something is missing.

* `write_of_holdsUpTo`: what is written within a limit, and what is heard of it.
* `write_cut_at_bound`: the same for a number of bytes and the text of the manifest.
-/

namespace Metamodel.Manifest

variable {ω : Type} {writer : Writer ω} {limit : Limit} {failure : String}
  {Holds : ω → Bytes → Prop}

/-- The bytes of a document are those of its characters, one after another. -/
theorem textBytes_text (models : Manifest) :
    textBytes models.text =
      (Json.prettyChars 0 models.toJson).flatMap String.utf8EncodeChar := by
  rw [textBytes_eq, text, Json.pretty, String.toList_ofList]

/-- The bytes of a manifest are written as far as they are within the limit, and a failure is heard
of if some are not. -/
theorem write_of_holdsUpTo (h : writer.HoldsUpTo limit failure Holds) {s : ω} (hs : Holds s [])
    (models : Manifest) :
    ∃ s', models.write writer.writeAll s =
        (s', if limit.Allows models.bytes.length then .ok () else .error (.writing failure)) ∧
      Holds s' (limit.cut models.bytes) := by
  obtain ⟨s₁, hdocument, hs₁⟩ := h.writeAll hs limit.allows_zero (textBytes models.text)
  rw [List.nil_append] at hdocument hs₁
  by_cases hall : limit.Allows (textBytes models.text).length
  · -- The document is within the limit, so that the end of its line decides.
    rw [if_pos hall] at hdocument
    rw [Limit.cut_eq_self_iff.mpr hall] at hs₁
    obtain ⟨s₂, hline, hs₂⟩ := h.writeAll hs₁ hall (textBytes "\n")
    refine ⟨s₂, ?_, hs₂⟩
    rw [write_of_ok hdocument hline, bytes]
    split <;> rfl
  · rw [if_neg hall] at hdocument
    refine ⟨s₁, ?_, ?_⟩
    · rw [write_of_error hdocument, if_neg (mt allows_text hall)]
    · rwa [bytes, Limit.cut_append_of_not_allows hall]

/-- A writer without a buffer that accepts a number of bytes in all and then fails holds as many of
the first bytes of a manifest in the end, with the end of the last line behind the text. Writing
succeeds exactly if these are all bytes, and otherwise gives the failure of the writer. -/
theorem write_cut_at_bound {bound : Nat} (h : writer.HoldsUpTo (some bound) failure Holds) {s : ω}
    (hs : Holds s []) (models : Manifest) :
    Holds (models.write writer.writeAll s).1
        ((textBytes (models.text ++ "\n")).take (min bound (models.text.utf8ByteSize + 1))) ∧
      ((models.write writer.writeAll s).2 = .ok () ↔ models.text.utf8ByteSize + 1 ≤ bound) ∧
      (¬ models.text.utf8ByteSize + 1 ≤ bound →
        (models.write writer.writeAll s).2 = .error (.writing failure)) := by
  have hbytes : textBytes (models.text ++ "\n") = models.bytes := textBytes_append _ _
  have hlength : models.text.utf8ByteSize + 1 = models.bytes.length := by
    rw [length_bytes, length_textBytes]
  have hcut : models.bytes.take (min bound models.bytes.length) =
      Limit.cut (some bound) models.bytes := by
    rw [Limit.cut_some, List.take_eq_take_iff, Nat.min_assoc, Nat.min_self]
  obtain ⟨s', hwrite, hs'⟩ := write_of_holdsUpTo h hs models
  rw [hwrite, hbytes, hlength, hcut]
  refine ⟨hs', ?_, fun hnone => ?_⟩
  · simp
  · simp [hnone]

/-- The manifest of a component whose name has a character of two bytes. -/
def cafe : Manifest := [.ofComponent .standard (.ofClass "" "Café")]

/-- Where there is space for 46 bytes, the manifest is cut within that character. -/
theorem write_cut_at_bound_cafe :
    (cafe.write (LimitedSpace.writer "no space left").writeAll ⟨[], 46⟩).1.content =
        textBytes "\x7b\n  \"models\": [\n    \x7b\n      \"component\": \"Caf" ++ [0xC3] ∧
      (cafe.write (LimitedSpace.writer "no space left").writeAll ⟨[], 46⟩).2 =
        .error (.writing "no space left") := by
  have h := (LimitedSpace.takesUpTo_writer "no space left" 46).holdsUpTo
  have hlong : ¬ cafe.text.utf8ByteSize + 1 ≤ 46 := by
    rw [← length_textBytes, textBytes_text]
    decide +kernel
  obtain ⟨hcontent, -, hfailure⟩ := write_cut_at_bound h (s := ⟨[], 46⟩) rfl cafe
  refine ⟨?_, hfailure hlong⟩
  -- The bytes are evaluated character by character, and only as far as there is space.
  rw [hcontent, Nat.min_eq_left (by omega), textBytes_append, textBytes_text, textBytes_eq,
    textBytes_eq]
  decide +kernel

end Metamodel.Manifest
