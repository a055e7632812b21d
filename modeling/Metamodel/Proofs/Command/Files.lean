import Metamodel.Command.Files
import Metamodel.Proofs.Results
import Metamodel.Proofs.Writer.Limit

/-!
# Files that are written

A file that is written has one content after another, and all else stays as it is. So the file that
was made at a path is found there again, with what was written to it.

* `lookup_put`, `put_put`: what stands at which place after a file was given a content.
* `resolve_put`: a file that changes its content does not change where paths lead to.
* `create_eq_ok`: which files can be made.
* `takesUpTo_writer_of_file`, `takesUpTo_writer_of_device`: how much a file takes.
* `read_written`: the file that was made at a path is read there.
-/

namespace Metamodel.Command.Files

variable {files : Files} {place other : Place} {content : Bytes}

/-! ## Contents -/

theorem any_eq_isSome_lookup (entries : List (Place × Entry)) (place : Place) :
    entries.any (·.1 = place) = (entries.lookup place).isSome := by
  rw [Bool.eq_iff_iff, List.lookup_isSome_iff, List.any_eq_true]
  simp only [decide_eq_true_eq, beq_iff_eq, eq_comm (a := place)]

theorem lookup_map_replace (entries : List (Place × Entry)) (place other : Place) (entry : Entry) :
    (entries.map fun e => if e.1 = place then (place, entry) else e).lookup other =
      (entries.lookup other).map fun old => if other = place then entry else old := by
  induction entries with
  | nil => rfl
  | cons e rest ih =>
    obtain ⟨p, old⟩ := e
    have hkey : (if p = place then (place, entry) else (p, old)) =
        (p, if p = place then entry else old) := by
      split
      · next hp => rw [hp]
      · rfl
    rw [List.map_cons, hkey, List.lookup_cons, List.lookup_cons, ih]
    split
    · next hb => rw [eq_of_beq hb, Option.map_some]
    · rfl

/-- At the place there is the file, and elsewhere there is what was there. -/
theorem lookup_put (files : Files) (place : Place) (content : Bytes) (other : Place) :
    (files.put place content).entries.lookup other =
      if other = place then some (.file content) else files.entries.lookup other := by
  rw [put, any_eq_isSome_lookup]
  cases hlookup : files.entries.lookup place with
  | none =>
    by_cases ho : other = place
    · subst ho
      simp [List.lookup_append, hlookup]
    · have hnone : List.lookup other [(place, Entry.file content)] = none := by
        simp [List.lookup_eq_none_iff, ho]
      simp [List.lookup_append, hnone, ho]
  | some old =>
    by_cases ho : other = place
    · subst ho
      simp [lookup_map_replace, hlookup]
    · simp [lookup_map_replace, ho]

@[simp] theorem put_room (files : Files) (place : Place) (content : Bytes) :
    (files.put place content).room = files.room := by
  rw [put]
  split <;> rfl

/-- The later content counts. -/
@[simp] theorem put_put (files : Files) (place : Place) (content more : Bytes) :
    (files.put place content).put place more = files.put place more := by
  have hany : (files.put place content).entries.any (·.1 = place) = true := by
    rw [any_eq_isSome_lookup, lookup_put, if_pos rfl]
    rfl
  rw [put.eq_def (files.put place content), if_pos hany]
  rw [put, put]
  split
  · next hlisted =>
    simp only [List.map_map]
    congr 2
    funext e
    by_cases he : e.1 = place <;> simp [he]
  · next hlisted =>
    have hkept : files.entries.map (fun e => if e.1 = place then (place, .file more) else e) =
        files.entries := by
      refine (List.map_congr_left fun e he => if_neg fun hp => hlisted ?_).trans (List.map_id _)
      exact List.any_eq_true.mpr ⟨e, he, decide_eq_true hp⟩
    simp [hkept]

@[simp] theorem contentAt_put (files : Files) (place : Place) (content : Bytes) :
    (files.put place content).contentAt place = content := by
  rw [contentAt, lookup_put, if_pos rfl]

/-! ## Paths -/

/-- A file or a missing place is given a content: then a file is there. -/
theorem entry?_put_self (files : Files) (place : Place) (content : Bytes) :
    entry? (files.put place content) place =
      if place.isOutward then some .directory else some (.file content) := by
  rw [ entry?, lookup_put, if_pos rfl]

theorem mem_keys_put {other : Place} (h : other ∈ files.entries.map (·.1)) (place : Place)
    (content : Bytes) : other ∈ (files.put place content).entries.map (·.1) := by
  obtain ⟨e, he, rfl⟩ := List.mem_map.mp h
  rw [put]
  split
  · rw [List.map_map]
    refine List.mem_map.mpr ⟨e, he, ?_⟩
    simp only [Function.comp]
    split
    · next hp => exact hp.symm
    · rfl
  · rw [List.map_append]
    exact List.mem_append_left _ h

/-- A directory stays one, unless a file is put in its place. -/
theorem entry?_put_of_directory (hplace : files.entry? place ≠ some .directory)
    (hother : files.entry? other = some .directory) :
    entry? (files.put place content) other = some .directory := by
  have hne : other ≠ place := fun he => hplace (he ▸ hother)
  rw [ entry?] at hother ⊢
  rw [lookup_put, if_neg hne]
  split
  · rfl
  · next hinner =>
    rw [if_neg hinner] at hother
    cases hlookup : files.entries.lookup other with
    | some entry =>
      simpa [hlookup] using hother
    | none =>
      have hlisted : files.entries.any (fun e => other.isPrefixOf e.1) = true := by
        simpa [hlookup] using hother
      obtain ⟨e, he, hprefix⟩ := List.any_eq_true.mp hlisted
      obtain ⟨e', he', hkey⟩ :=
        List.mem_map.mp (mem_keys_put (List.mem_map_of_mem he) place content)
      exact if_pos (List.any_eq_true.mpr ⟨e', he', hkey ▸ hprefix⟩)

theorem enter_put {name : String} {start goal : Place}
    (hplace : files.entry? place ≠ some .directory) (h : files.enter start name = .ok goal) :
    (files.put place content).enter start name = .ok goal := by
  rw [enter] at h ⊢
  split at h
  · next hstay => rwa [if_pos hstay]
  next hstay =>
  rw [if_neg hstay]
  split at h
  · next hup => rwa [if_pos hup]
  next hup =>
  rw [if_neg hup]
  split at h
  · cases h
  next hlong =>
  rw [if_neg hlong]
  split at h
  · next hdirectory =>
    rw [ entry?_put_of_directory hplace hdirectory]
    exact h
  · cases h
  · cases h

theorem foldlM_enter_put {names : List String} {start goal : Place}
    (hplace : files.entry? place ≠ some .directory)
    (h : names.foldlM files.enter start = .ok goal) :
    names.foldlM (files.put place content).enter start = .ok goal := by
  induction names generalizing start with
  | nil => exact h
  | cons name rest ih =>
    rw [List.foldlM_cons, bind_eq_ok_iff] at h ⊢
    obtain ⟨next, henter, hrest⟩ := h
    exact ⟨next, enter_put hplace henter, ih hrest⟩

/-- A file that changes its content does not change where paths lead to. -/
theorem resolve_put {path : String} {goal : Goal} (hplace : files.entry? place ≠ some .directory)
    (h : files.resolve path = .ok goal) : (files.put place content).resolve path = .ok goal := by
  rw [resolve] at h ⊢
  split at h
  · cases h
  next hnul =>
  split at h
  · cases h
  next hlong =>
  split at h
  · cases h
  next hempty =>
  rw [if_neg hnul, if_neg hlong, if_neg hempty]
  obtain ⟨start, hfold, hgoal⟩ := map_eq_ok_iff.mp h
  exact map_eq_ok_iff.mpr ⟨start, foldlM_enter_put hplace hfold, hgoal⟩

/-- A file is made where the path leads to, if that is no directory. A device stays. -/
theorem create_eq_ok {path : String} {created : Files} :
    files.create path = .ok (created, place) ↔
      ∃ goal, files.resolve path = .ok goal ∧ goal.isDirectory = false ∧ goal.hasSlash = false ∧
        goal.name.utf8ByteSize ≤ nameLimit ∧ goal.full = place ∧
        files.entry? place ≠ some .directory ∧
        created = if files.entry? place = some .fullDevice then files else files.put place [] := by
  rw [create, bind_eq_ok_iff]
  refine exists_congr fun goal => and_congr_right fun _ => ?_
  cases hdirectory : goal.isDirectory with
  | true => simp
  | false =>
  cases hslash : goal.hasSlash with
  | true => simp
  | false =>
  by_cases hname : nameLimit < goal.name.utf8ByteSize
  · simp [hname, Nat.not_le.mpr hname]
  · by_cases hplace : goal.full = place
    · subst hplace
      cases hentry : files.entry? goal.full with
      | none => simp [hname, Nat.not_lt.mp hname, eq_comm]
      | some entry => cases entry <;> simp [hname, Nat.not_lt.mp hname, eq_comm]
    · cases hentry : files.entry? goal.full with
      | none => simp [hname, hplace]
      | some entry => cases entry <;> simp [hname, hplace]

/-! ## Space -/

/-- The number of bytes that can still be written to the file at a place. -/
def roomAt (files : Files) (place : Place) : Limit :=
  if files.entry? place = some .fullDevice then some 0 else files.room

/-- The files after some bytes were written to an empty file. -/
def written (files : Files) (place : Place) (taken : Bytes) : Files :=
  { files.put place taken with room := files.room.map (· - taken.length) }

@[simp] theorem written_room (files : Files) (place : Place) (taken : Bytes) :
    (files.written place taken).room = files.room.map (· - taken.length) := rfl

@[simp] theorem contentAt_written (files : Files) (place : Place) (taken : Bytes) :
    (files.written place taken).contentAt place = taken :=
  contentAt_put files place taken

/-- There is no space for a file if nothing is left of the space. -/
theorem isFull_written (files : Files) (place : Place) (taken : Bytes) :
    (files.written place taken).isFull place =
      decide (files.room.map (· - taken.length) = some 0) := by
  have hentry : entry? (files.written place taken) place =
      if place.isOutward then some .directory else some (.file taken) :=
    entry?_put_self files place taken
  have hfile : entry? (files.written place taken) place ≠ some .fullDevice := by
    rw [hentry]
    split <;> simp
  rw [isFull, decide_eq_false hfile, Bool.or_false, written_room]

theorem put_written (files : Files) (place : Place) (taken more : Bytes) :
    (files.written place taken).put place more =
      { files.put place more with room := files.room.map (· - taken.length) } := by
  have hroom : ∀ (files : Files) (room : Limit), ({ files with room } : Files).put place more =
      { files.put place more with room } := by
    intro files room
    rw [put, put]
    split <;> rfl
  rw [written, hroom, put_put]

/-- A file takes bytes as long as there is space. -/
theorem takesUpTo_writer_of_file (files : Files) (place : Place) :
    (writer place).TakesUpTo files.room noSpace (files.written place) where
  takes {taken bytes} hspace hbytes := by
    cases hroom : files.room with
    | none =>
      refine ⟨bytes.length, List.length_pos_iff.mpr hbytes, Nat.le_refl _, Limit.allows_none _, ?_⟩
      have hnext : files.written place (taken ++ bytes) =
          { files.put place (taken ++ bytes) with room := none } := by
        rw [written, hroom, Option.map_none]
      simp [writer, isFull_written, put_written, hroom, hnext]
    | some room =>
      rw [hroom, Limit.allows_some] at hspace
      have hlength := List.length_pos_iff.mpr hbytes
      have hleft : room - taken.length ≠ 0 := by omega
      refine ⟨min (room - taken.length) bytes.length, by omega, Nat.min_le_right _ _, ?_, ?_⟩
      · rw [Limit.allows_some]
        omega
      -- What is left of the space after both moves is what is left after one.
      · have hnext : files.written place (taken ++ bytes.take (room - taken.length)) =
            { files.put place (taken ++ bytes.take (room - taken.length)) with
              room := some (room - taken.length - (bytes.take (room - taken.length)).length) } := by
          rw [written, hroom, Option.map_some, List.length_append, Nat.sub_sub]
        have htake : bytes.take (min (room - taken.length) bytes.length) =
            bytes.take (room - taken.length) := by
          simp [List.take_eq_take_iff]
        rw [htake, hnext]
        simp [writer, isFull_written, put_written, hroom, hleft]
  fails {taken bytes} hreached _ := by
    simp [writer, isFull_written, hreached]

/-- A device that is always full takes nothing. -/
theorem takesUpTo_writer_of_device (hdevice : files.entry? place = some .fullDevice) :
    (writer place).TakesUpTo (some 0) noSpace fun _ => files where
  takes hspace := by
    rw [Limit.allows_some] at hspace
    exact absurd hspace (Nat.not_succ_le_zero _)
  fails _ _ := by
    simp [writer, isFull, hdevice]

/-! ## The file at a path -/

theorem written_nil (files : Files) (place : Place) :
    files.written place [] = files.put place [] := by
  simp only [written, List.length_nil, Nat.sub_zero, Option.map_id_fun', id_eq]
  rw [← put_room files place []]

variable {path : String} {created : Files}

/-- A file that was made is empty, and there is as much space as before. -/
theorem created_eq_written (hcreate : files.create path = .ok (created, place))
    (hfile : files.entry? place ≠ some .fullDevice) : created = files.written place [] := by
  obtain ⟨-, -, -, -, -, -, -, rfl⟩ := create_eq_ok.mp hcreate
  rw [if_neg hfile, written_nil]

theorem created_eq_self (hcreate : files.create path = .ok (created, place))
    (hdevice : files.entry? place = some .fullDevice) : created = files := by
  obtain ⟨-, -, -, -, -, -, -, rfl⟩ := create_eq_ok.mp hcreate
  rw [if_pos hdevice]

theorem readText_of_read {text : String} (hread : files.read path = .ok (textBytes text)) :
    files.readText path = .ok text := by
  rw [readText, bind_eq_ok_iff]
  exact ⟨textBytes text, hread, by rw [bytesText?_textBytes]⟩

/-- The file that was made at a path is found there, with what was written to it. -/
theorem read_written (hcreate : files.create path = .ok (created, place)) (content : Bytes) :
    (files.written place content).read path = .ok content := by
  obtain ⟨goal, hresolve, hname, hslash, hlength, rfl, hplace, -⟩ := create_eq_ok.mp hcreate
  have hinner : goal.full.isOutward = false := by
    cases houtward : goal.full.isOutward with
    | false => rfl
    | true => exact absurd (if_pos houtward) hplace
  have hentry : entry? (files.written goal.full content) goal.full = some (.file content) := by
    have hput := entry?_put_self files goal.full content
    rwa [hinner] at hput
  -- The way to the file leads through directories, none of which the file has replaced.
  have hback : (files.written goal.full content).resolve path = .ok goal :=
    resolve_put hplace hresolve
  rw [read, bind_eq_ok_iff]
  refine ⟨goal, hback, ?_⟩
  simp [hname, hslash, Nat.not_lt.mpr hlength, hentry]

end Metamodel.Command.Files
