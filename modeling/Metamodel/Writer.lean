/-!
# Writing bytes

A writer takes bytes into a state. One move may take only some of the bytes that it is offered, or
fail. `writeAll` makes moves until all bytes are taken or one fails. A buffered writer holds bytes
back and passes them on when its buffer is full or when it is dropped; a failure while it is
dropped is lost.

* `bytesText?_textBytes`: a text is found again in its bytes.
* `writeAll_nil`: to write nothing takes no move.
-/

namespace Metamodel

/-- A row of bytes. -/
abbrev Bytes := List UInt8

/-- The bytes of a text in UTF-8. -/
def textBytes (s : String) : Bytes :=
  s.toUTF8.data.toList

@[simp] theorem length_textBytes (s : String) : (textBytes s).length = s.utf8ByteSize := by
  rw [textBytes, Array.length_toList]
  rfl

/-- The text of bytes in UTF-8. -/
def bytesText? (bytes : Bytes) : Option String :=
  String.fromUTF8? ⟨bytes.toArray⟩

/-- A text is found again in its bytes. -/
theorem bytesText?_textBytes (s : String) : bytesText? (textBytes s) = some s := by
  have hbytes : (⟨(textBytes s).toArray⟩ : ByteArray) = s.toByteArray := rfl
  rw [bytesText?, hbytes, String.fromUTF8?, dif_pos s.isValidUTF8]
  rfl

/-- A machine that takes bytes. -/
structure Writer (ω : Type) where
  /-- The move for bytes that are offered: how many of them were taken, or why none was. -/
  write : ω → Bytes → ω × Except String Nat

namespace Writer

variable {ω : Type}

/-- What a failing move is called that takes no byte and gives no reason. -/
def stalled : String := "failed to write whole buffer"

/-- Moves until all bytes are taken or a move fails: the state, the bytes that are left, and the
failure. -/
def pour (writer : Writer ω) (s : ω) (bytes : Bytes) : ω × Bytes × Except String Unit :=
  match bytes with
  | [] => (s, [], .ok ())
  | b :: rest =>
    match writer.write s (b :: rest) with
    | (s, .error e) => (s, b :: rest, .error e)
    | (s, .ok 0) => (s, b :: rest, .error stalled)
    | (s, .ok (n + 1)) => pour writer s (rest.drop n)
termination_by bytes.length
decreasing_by simp only [List.length_cons, List.length_drop]; omega

/-- Moves until all bytes are taken or a move fails. -/
def writeAll (writer : Writer ω) (s : ω) (bytes : Bytes) : ω × Except String Unit :=
  let (s, _, outcome) := writer.pour s bytes
  (s, outcome)

/-- To write nothing takes no move. -/
@[simp] theorem writeAll_nil (writer : Writer ω) (s : ω) : writer.writeAll s [] = (s, .ok ()) := by
  simp [writeAll, pour]

end Writer

/-! ## Limited space -/

/-- What was written where there is space for a number of further bytes. -/
structure LimitedSpace where
  /-- The bytes that were written. -/
  content : Bytes
  /-- The number of bytes for which there is space. -/
  room : Nat
deriving DecidableEq, Repr

namespace LimitedSpace

/-- The writer that takes bytes as long as there is space, and then fails. -/
def writer (failure : String) : Writer LimitedSpace where
  write s bytes :=
    if s.room = 0 then (s, .error failure)
    else
      let taken := bytes.take s.room
      (⟨s.content ++ taken, s.room - taken.length⟩, .ok taken.length)

end LimitedSpace

/-! ## Buffers -/

/-- A writer with bytes that were not passed on yet. -/
structure Buffered (ω : Type) where
  /-- The state of the writer behind the buffer. -/
  inner : ω
  /-- The bytes that are held back. -/
  pending : Bytes
deriving DecidableEq, Repr

namespace Buffered

variable {ω : Type}

/-- An empty buffer in front of a writer. -/
def start (s : ω) : Buffered ω :=
  ⟨s, []⟩

/-- All bytes that are held back are passed on; what could not be passed on stays. -/
def flush (writer : Writer ω) (b : Buffered ω) : Buffered ω × Except String Unit :=
  let (s, left, outcome) := writer.pour b.inner b.pending
  (⟨s, left⟩, outcome)

/-- Bytes that fit into the buffer are held back. Otherwise the buffer is emptied first, and bytes
that would fill it are passed on directly. -/
def writeAll (writer : Writer ω) (capacity : Nat) (b : Buffered ω) (bytes : Bytes) :
    Buffered ω × Except String Unit :=
  let spare := capacity - b.pending.length
  if bytes.length < spare then (⟨b.inner, b.pending ++ bytes⟩, .ok ())
  else
    let (b, flushed) := if spare < bytes.length then b.flush writer else (b, .ok ())
    match flushed with
    | .error e => (b, .error e)
    | .ok () =>
      if capacity ≤ bytes.length then
        let (s, outcome) := writer.writeAll b.inner bytes
        (⟨s, b.pending⟩, outcome)
      else (⟨b.inner, b.pending ++ bytes⟩, .ok ())

/-- The state behind the buffer after the buffer is emptied for the last time. A failure of that is
lost. -/
def drop (writer : Writer ω) (b : Buffered ω) : ω :=
  (b.flush writer).1.inner

end Buffered

end Metamodel
