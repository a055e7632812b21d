import Metamodel.Command.Run
import Metamodel.Proofs.Command.Files
import Metamodel.Proofs.Manifest.Writing

/-!
# The manifest in a file

A run with a path for the manifest makes a file there and writes through a buffer. If the space does
not suffice, the file holds the first bytes of the manifest; whether the run fails depends on how
many of them were passed on before the buffer was dropped.

* `writeFile_of_file`, `writeFile_of_device`: what is in the file, and whether that failed.
* `writeFile_of_allows`: the manifest is in the file if there is space for it.
* `loss_unreported_iff`: when a manifest is lost without a failure.
-/

namespace Metamodel

namespace Command

variable {files created : Files} {path : String} {place : Place}

/-- A file takes the manifest as far as there is space. -/
theorem writeFile_of_file (hcreate : files.create path = .ok (created, place))
    (hfile : files.entry? place ≠ some .fullDevice) (models : Manifest) :
    writeFile files path models =
      (files.written place (Limit.cut files.room models.bytes),
        if Limit.Allows files.room (models.passedOn bufferCapacity) then .ok ()
        else .error (.unwritable (.writing Files.noSpace))) := by
  have hwrite := Manifest.writeBuffered_eq (Files.takesUpTo_writer_of_file files place) models
    bufferCapacity
  rw [← Files.created_eq_written hcreate hfile] at hwrite
  rw [writeFile, hcreate]
  simp only [hwrite]
  split <;> rfl

/-- A device that is always full stays as it is. -/
theorem writeFile_of_device (hcreate : files.create path = .ok (created, place))
    (hdevice : files.entry? place = some .fullDevice) (models : Manifest) :
    writeFile files path models =
      (files, if models.passedOn bufferCapacity = 0 then .ok ()
        else .error (.unwritable (.writing Files.noSpace))) := by
  have hwrite := Manifest.writeBuffered_eq (Files.takesUpTo_writer_of_device hdevice) models
    bufferCapacity
  simp only [Limit.allows_some, Nat.le_zero_eq] at hwrite
  rw [writeFile, hcreate, Files.created_eq_self hcreate hdevice]
  simp only [hwrite]
  split <;> rfl

/-- If there is space for the manifest, the file holds it. -/
theorem writeFile_of_allows {models : Manifest} (hcreate : files.create path = .ok (created, place))
    (hspace : (files.roomAt place).Allows models.bytes.length) :
    writeFile files path models = (files.written place models.bytes, .ok ()) := by
  have hfile : files.entry? place ≠ some .fullDevice := by
    intro hdevice
    rw [Files.roomAt, if_pos hdevice, Limit.allows_some, Manifest.length_bytes] at hspace
    exact Nat.not_succ_le_zero _ hspace
  rw [Files.roomAt, if_neg hfile] at hspace
  rw [writeFile_of_file hcreate hfile, Limit.cut_eq_self_iff.mpr hspace,
    if_pos (hspace.mono (models.passedOn_le bufferCapacity))]

/-- A manifest that is written through a buffer to where a number of bytes is taken is there as far
as these bytes go, however many of them a single move takes. A failure is reported if their number
is below that of the bytes that are passed on before the buffer is dropped. So the report of a
success means that the whole manifest is there, unless the space suffices for those bytes and not
for all. The file of a run is the case of one capacity. -/
theorem loss_unreported_iff (models : Manifest) (room : Nat) :
    (∀ {ω : Type} {writer : Writer ω} {failure : String} {state : Bytes → ω} {content : ω → Bytes},
      writer.TakesUpTo (some room) failure state → (∀ taken, content (state taken) = taken) →
      ∀ capacity : Nat,
        let written := models.writeBuffered writer capacity (state [])
        content written.1 = models.bytes.take room ∧
          (written.2 = if models.passedOn capacity ≤ room then .ok ()
            else .error (.writing failure)) ∧
          ((written.2 = .ok () → content written.1 = models.bytes) ↔
            ¬ (models.passedOn capacity ≤ room ∧ room < models.bytes.length))) ∧
    ∀ {files created : Files} {path : String} {place : Place},
      files.create path = .ok (created, place) → files.entry? place ≠ some .fullDevice →
      files.room = some room →
        let written := writeFile files path models
        written.1.read path = .ok (models.bytes.take room) ∧
          (written.2 = if models.passedOn bufferCapacity ≤ room then .ok ()
            else .error (.unwritable (.writing Files.noSpace))) ∧
          ((written.2 = .ok () → written.1.read path = .ok models.bytes) ↔
            ¬ (models.passedOn bufferCapacity ≤ room ∧ room < models.bytes.length)) := by
  have hwhole : models.bytes.take room = models.bytes ↔ models.bytes.length ≤ room := by
    rw [← Limit.cut_some, Limit.cut_eq_self_iff, Limit.allows_some]
  constructor
  · intro ω writer failure state content htakes hcontent capacity
    rw [Manifest.writeBuffered_eq htakes]
    simp only [hcontent, Limit.cut_some, Limit.allows_some, hwhole, true_and]
    by_cases hpassed : models.passedOn capacity ≤ room <;> simp [hpassed]
  · intro files created path place hcreate hfile hroom
    rw [writeFile_of_file hcreate hfile, hroom]
    simp only [Files.read_written hcreate, Limit.cut_some, Limit.allows_some, Except.ok.injEq,
      hwhole, true_and]
    by_cases hpassed : models.passedOn bufferCapacity ≤ room <;> simp [hpassed]

/-- The empty manifest has nineteen bytes. Where there is space for ten, too many of them are passed
on by a small buffer to hide the failure, and none by the buffer of a run. -/
theorem loss_unreported_iff_empty :
    let space := Manifest.writeBuffered (LimitedSpace.writer Files.noSpace) 4 ⟨[], 10⟩ []
    let file := writeFile ⟨[], some 10⟩ "m.json" []
    space.1.content = textBytes "\x7b\n  \x22model" ∧
      space.2 = .error (.writing Files.noSpace) ∧
      file.1.read "m.json" = .ok (textBytes "\x7b\n  \x22model") ∧ file.2 = .ok () := by
  obtain ⟨hspace, hfile⟩ := loss_unreported_iff [] 10
  have hbytes : (Manifest.bytes []).take 10 = textBytes "\x7b\n  \x22model" := by decide +kernel
  rw [hbytes] at hspace hfile
  have hcreate : (⟨[], some 10⟩ : Files).create "m.json" =
      .ok (⟨[(["m.json"], .file [])], some 10⟩, ["m.json"]) := rfl
  obtain ⟨hcontent, hreported, -⟩ := @hspace _ _ _ _ LimitedSpace.content
    (LimitedSpace.takesUpTo_writer Files.noSpace 10) (fun _ => rfl) 4
  obtain ⟨hread, hunreported, -⟩ := hfile hcreate (by decide +kernel) rfl
  rw [if_neg (by decide +kernel)] at hreported
  rw [if_pos (by decide +kernel)] at hunreported
  exact ⟨hcontent, hreported, hread, hunreported⟩

/-- The manifest of a run is lost on a device that is always full, and the run succeeds. -/
theorem manifest_lost_on_fullDevice :
    let options : Options := ⟨false, false, none, some "/dev/full", ["r.json"]⟩
    let files : Files :=
      ⟨[(["r.json"], .file (textBytes "\x7b\x7d")), (["/", "dev", "full"], .fullDevice)], none⟩
    (run options files).result = .ok () ∧ (run options files).files = files ∧
      (run options files).output = [] ∧
      Manifest.writeBuffered (LimitedSpace.writer Files.noSpace) bufferCapacity ⟨[], 0⟩ [] =
        (⟨[], 0⟩, .ok ()) ∧
      Manifest.bytes [] ≠ [] := by
  refine ⟨eq_ok_of_isOk (by decide +kernel), by decide +kernel, by decide +kernel, ?_,
    by decide +kernel⟩
  exact Prod.ext (by decide +kernel) (eq_ok_of_isOk (by decide +kernel))

end Command

end Metamodel
