import Metamodel.Writer

/-!
# Writing up to a limit

Wherever bytes are written, there may be space for a number of them only. What is there in the end
is what was offered, as far as it is within the limit, however many bytes a single move takes.

* `Limit.cut`, `Limit.Allows`: the bytes within a limit, and the numbers of bytes that it allows.
* `HoldsUpTo`, `TakesUpTo`: a writer takes bytes up to a limit, and then fails.
* `HoldsUpTo.writeAll`: all bytes are taken, or those within the limit before a move fails.
* `Buffered.writeAll_of_fits`, `Buffered.writeAll_of_large`: which bytes a buffer holds back.
-/

namespace Metamodel

/-- The number of bytes for which there is space, if there is a bound. -/
abbrev Limit := Option Nat

namespace Limit

/-- The limit allows so many bytes. -/
def Allows (limit : Limit) (n : Nat) : Prop :=
  ∀ bound ∈ limit, n ≤ bound

instance (limit : Limit) (n : Nat) : Decidable (limit.Allows n) :=
  inferInstanceAs (Decidable (∀ bound ∈ limit, n ≤ bound))

/-- The bytes that are within the limit. -/
def cut (limit : Limit) (bytes : Bytes) : Bytes :=
  limit.elim bytes bytes.take

@[simp] theorem allows_none (n : Nat) : Allows none n := fun _ h => nomatch h

@[simp] theorem allows_some {bound n : Nat} : Allows (some bound) n ↔ n ≤ bound := by
  simp [Allows]

@[simp] theorem cut_none (bytes : Bytes) : cut none bytes = bytes := rfl

@[simp] theorem cut_some (bound : Nat) (bytes : Bytes) :
    cut (some bound) bytes = bytes.take bound := rfl

variable {limit : Limit} {bytes : Bytes}

theorem Allows.mono {m n : Nat} (h : limit.Allows n) (hle : m ≤ n) : limit.Allows m :=
  fun bound hbound => Nat.le_trans hle (h bound hbound)

/-- A limit that allows some bytes but not one more is reached by them. -/
theorem eq_some_of_not_allows {n : Nat} (h : limit.Allows n) (hnext : ¬ limit.Allows (n + 1)) :
    limit = some n := by
  cases limit with
  | none => exact absurd (allows_none _) hnext
  | some bound =>
    simp only [allows_some] at h hnext
    exact congrArg some (by omega)

theorem cut_eq_self_iff : limit.cut bytes = bytes ↔ limit.Allows bytes.length := by
  cases limit with
  | none => simp
  | some bound =>
    rw [cut_some, allows_some]
    refine ⟨fun h => ?_, List.take_of_length_le⟩
    rw [← h, List.length_take]
    exact Nat.min_le_left _ _

@[simp] theorem allows_zero (limit : Limit) : limit.Allows 0 := fun _ _ => Nat.zero_le _

theorem cut_append_of_not_allows (h : ¬ limit.Allows bytes.length) (more : Bytes) :
    limit.cut (bytes ++ more) = limit.cut bytes := by
  cases limit with
  | none => exact absurd (allows_none _) h
  | some bound =>
    rw [allows_some, Nat.not_le] at h
    exact List.take_append_of_le_length (Nat.le_of_lt h)

/-- If a limit is reached, all further bytes are beyond it. -/
theorem cut_append_of_reached (h : limit = some bytes.length) (more : Bytes) :
    limit.cut (bytes ++ more) = bytes := by
  simp [h]

end Limit

namespace Writer

variable {ω : Type} {writer : Writer ω} {limit : Limit} {failure : String} {state : Bytes → ω}
  {bytes : Bytes}

/-- The first move of several. -/
theorem writeAll_of_ok {s s' : ω} {n : Nat} (hpos : 0 < n)
    (hwrite : writer.write s bytes = (s', .ok n)) (hbytes : bytes ≠ []) :
    writer.writeAll s bytes = writer.writeAll s' (bytes.drop n) := by
  obtain ⟨b, rest, rfl⟩ := List.exists_cons_of_ne_nil hbytes
  obtain ⟨n, rfl⟩ := Nat.exists_eq_add_of_lt hpos
  rw [Nat.zero_add] at hwrite ⊢
  simp only [writeAll, List.drop_succ_cons]
  rw [pour, hwrite]

/-- The first move fails. -/
theorem writeAll_of_error {s s' : ω} {e : String} (hwrite : writer.write s bytes = (s', .error e))
    (hbytes : bytes ≠ []) : writer.writeAll s bytes = (s', .error e) := by
  obtain ⟨b, rest, rfl⟩ := List.exists_cons_of_ne_nil hbytes
  rw [writeAll, pour, hwrite]

/-- A writer takes bytes up to a limit and then fails, whatever else there is to its states. A move
takes as many as it likes within the limit, but at least one. The relation says which bytes a state
holds. -/
structure HoldsUpTo (writer : Writer ω) (limit : Limit) (failure : String)
    (Holds : ω → Bytes → Prop) : Prop where
  takes {s : ω} {taken bytes : Bytes} : Holds s taken → limit.Allows (taken.length + 1) →
    bytes ≠ [] → ∃ n s', 0 < n ∧ n ≤ bytes.length ∧ limit.Allows (taken.length + n) ∧
      writer.write s bytes = (s', .ok n) ∧ Holds s' (taken ++ bytes.take n)
  fails {s : ω} {taken bytes : Bytes} : Holds s taken → limit = some taken.length → bytes ≠ [] →
    ∃ s', writer.write s bytes = (s', .error failure) ∧ Holds s' taken

/-- All bytes are taken if the limit allows it. Otherwise those within the limit are taken before a
move fails. -/
theorem HoldsUpTo.writeAll {Holds : ω → Bytes → Prop} (h : writer.HoldsUpTo limit failure Holds)
    {s : ω} {taken : Bytes} (hs : Holds s taken) (htaken : limit.Allows taken.length)
    (bytes : Bytes) :
    ∃ s', writer.writeAll s bytes =
        (s', if limit.Allows (taken ++ bytes).length then .ok () else .error failure) ∧
      Holds s' (limit.cut (taken ++ bytes)) := by
  by_cases hbytes : bytes = []
  · subst hbytes
    rw [writeAll_nil, List.append_nil, Limit.cut_eq_self_iff.mpr htaken, if_pos htaken]
    exact ⟨s, rfl, hs⟩
  -- A move takes at least one byte, so that fewer are left, or there is no space and it fails.
  by_cases hspace : limit.Allows (taken.length + 1)
  · obtain ⟨n, s₁, hpos, hle, hn, hwrite, hs₁⟩ := h.takes hs hspace hbytes
    have hlength : (taken ++ bytes.take n).length = taken.length + n := by
      rw [List.length_append, List.length_take, Nat.min_eq_left hle]
    have hrest := h.writeAll hs₁ (by rwa [hlength]) (bytes.drop n)
    rwa [List.append_assoc, List.take_append_drop, ← writeAll_of_ok hpos hwrite hbytes] at hrest
  · have hreached := Limit.eq_some_of_not_allows htaken hspace
    have hnone : ¬ limit.Allows (taken ++ bytes).length := fun hall =>
      hspace (hall.mono (by
        have := List.length_pos_iff.mpr hbytes
        rw [List.length_append]
        omega))
    obtain ⟨s₁, hwrite, hs₁⟩ := h.fails hs hreached hbytes
    rw [writeAll_of_error hwrite hbytes, Limit.cut_append_of_reached hreached, if_neg hnone]
    exact ⟨s₁, rfl, hs₁⟩
termination_by bytes.length
decreasing_by
  have := List.length_pos_iff.mpr hbytes
  rw [List.length_drop]
  omega

/-- A writer takes bytes up to a limit and then fails. A move takes as many as it likes within the
limit, but at least one. The function says in which state the writer is when it has taken some
bytes in all. -/
structure TakesUpTo (writer : Writer ω) (limit : Limit) (failure : String)
    (state : Bytes → ω) : Prop where
  takes {taken bytes : Bytes} : limit.Allows (taken.length + 1) → bytes ≠ [] →
    ∃ n, 0 < n ∧ n ≤ bytes.length ∧ limit.Allows (taken.length + n) ∧
      writer.write (state taken) bytes = (state (taken ++ bytes.take n), .ok n)
  fails {taken bytes : Bytes} : limit = some taken.length → bytes ≠ [] →
    writer.write (state taken) bytes = (state taken, .error failure)

/-- A state that is a function of the bytes holds these bytes. -/
theorem TakesUpTo.holdsUpTo (h : writer.TakesUpTo limit failure state) :
    writer.HoldsUpTo limit failure fun s taken => s = state taken where
  takes := by
    rintro _ taken bytes rfl hspace hbytes
    obtain ⟨n, hpos, hle, hn, hwrite⟩ := h.takes hspace hbytes
    exact ⟨n, _, hpos, hle, hn, hwrite, rfl⟩
  fails := by
    rintro _ taken bytes rfl hreached hbytes
    exact ⟨_, h.fails hreached hbytes, rfl⟩

/-- All bytes are taken if the limit allows it. Otherwise those within the limit are taken before a
move fails. -/
theorem TakesUpTo.writeAll (h : writer.TakesUpTo limit failure state) {taken : Bytes}
    (htaken : limit.Allows taken.length) (bytes : Bytes) :
    writer.writeAll (state taken) bytes =
      (state (limit.cut (taken ++ bytes)),
        if limit.Allows (taken ++ bytes).length then .ok () else .error failure) := by
  obtain ⟨s, hwrite, rfl⟩ := h.holdsUpTo.writeAll rfl htaken bytes
  exact hwrite

/-- What a writer up to a limit does with the first bytes. -/
theorem TakesUpTo.writeAll_start (h : writer.TakesUpTo limit failure state) (bytes : Bytes) :
    writer.writeAll (state []) bytes =
      (state (limit.cut bytes),
        if limit.Allows bytes.length then .ok () else .error failure) := by
  have hnil : limit.Allows ([] : Bytes).length := limit.allows_zero
  exact h.writeAll hnil bytes

end Writer

/-- Where there is limited space, bytes are taken until it is used up. -/
theorem LimitedSpace.takesUpTo_writer (failure : String) (room : Nat) :
    (writer failure).TakesUpTo (some room) failure
      fun taken => ⟨taken, room - taken.length⟩ where
  takes {taken bytes} hspace hbytes := by
    have hlength := List.length_pos_iff.mpr hbytes
    rw [Limit.allows_some] at hspace
    refine ⟨min (room - taken.length) bytes.length, by omega, Nat.min_le_right _ _, ?_, ?_⟩
    · rw [Limit.allows_some]
      omega
    · have hroom : room - taken.length ≠ 0 := by omega
      simp [writer, hroom, List.take_eq_take_iff, Nat.sub_sub]
  fails {taken bytes} hreached _ := by
    simp [writer, Option.some.inj hreached]

namespace Buffered

variable {ω : Type} (writer : Writer ω) {capacity : Nat} {bytes : Bytes}

/-- Bytes that fit into what is left of the buffer, and would not fill it alone, are held back. -/
theorem writeAll_of_fits {b : Buffered ω} (hfits : b.pending.length + bytes.length ≤ capacity)
    (hsmall : bytes.length < capacity) :
    b.writeAll writer capacity bytes = (⟨b.inner, b.pending ++ bytes⟩, .ok ()) := by
  have hspare : ¬ capacity - b.pending.length < bytes.length := by omega
  simp [writeAll, hspare, Nat.not_le.mpr hsmall]

/-- Bytes that would fill an empty buffer are passed on directly. -/
theorem writeAll_of_large (s : ω) (hlarge : capacity ≤ bytes.length) :
    writeAll writer capacity (start s) bytes =
      (start (writer.writeAll s bytes).1, (writer.writeAll s bytes).2) := by
  have hempty : flush writer ⟨s, []⟩ = (⟨s, []⟩, .ok ()) := by
    simp [flush, Writer.pour]
  simp [writeAll, start, hempty, Nat.not_lt.mpr hlarge, hlarge]

/-- When the buffer is dropped, all that it holds back is written. -/
theorem drop_eq_writeAll (b : Buffered ω) : b.drop writer = (writer.writeAll b.inner b.pending).1 :=
  rfl

@[simp] theorem drop_start (s : ω) : (start s).drop writer = s := by
  rw [drop_eq_writeAll, start, Writer.writeAll_nil]

end Buffered

end Metamodel
