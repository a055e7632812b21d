import Metamodel.Derivation.Default
import Metamodel.Proofs.Literal.Spelling
import Metamodel.Proofs.Model.Attachment
import Metamodel.Proofs.Model.Form
import Metamodel.Proofs.Text.Trimming

/-!
# The default value of a property

Which texts give a property a default value, and which value it is. The text is that of a member of
the first mark of properties; each of the four types that can have a default value has a member of
its own, and a literal of its own form.

* `IsLiteral`: the literals of a type, with their values.
* `GivesDefault`: the text that a declaration gives for a member.
* `ofLiteral?_eq_some_iff`, `defaultText?_eq_some_iff`: the literals and texts that are found.
* `resolveDefault_exact`: what the default value of a property comes to.
-/

namespace Metamodel

open Literal Text

namespace DefaultValue

variable {p : Primitive} {key : String} {zero v : DefaultValue} {cs core : List Char}

/-! ## Literals -/

/-- The second text is the first one without one of two letters at its end, or it is the first one,
which ends in neither. -/
inductive DropsLetter (lower upper : Char) : List Char → List Char → Prop where
  | dropped {cs : List Char} {c : Char} (hc : c = lower ∨ c = upper) :
      DropsLetter lower upper (cs ++ [c]) cs
  | kept {cs : List Char} (hlast : ∀ c ∈ cs.getLast?, c ≠ lower ∧ c ≠ upper) :
      DropsLetter lower upper cs cs

theorem dropLetter_eq_iff {lower upper : Char} :
    dropLetter lower upper cs = core ↔ DropsLetter lower upper cs core := by
  constructor
  · rintro rfl
    unfold dropLetter
    split
    · next c hc =>
      split
      · next hletter =>
        obtain ⟨init, rfl⟩ := List.getLast?_eq_some_iff.mp hc
        rw [List.dropLast_concat]
        exact .dropped hletter
      · next hletter =>
        refine .kept fun d hd => ?_
        rw [hc] at hd
        cases hd
        exact not_or.mp hletter
    · next hnone => exact .kept (by simp [hnone])
  · intro h
    cases h with
    | dropped hc => simp [dropLetter, hc]
    | kept hlast =>
      unfold dropLetter
      split
      · next c hc => exact if_neg (not_or.mpr (hlast c hc))
      · rfl

/-- A text is a literal of a primitive type, for a value. A floating point number is finite and may
have the letter of its type behind it. -/
inductive IsLiteral : Primitive → List Char → DefaultValue → Prop where
  | int {cs : List Char} {n : Int} (hn : SpellsInt cs n) (hmin : -2 ^ 31 ≤ n)
      (hmax : n ≤ 2 ^ 31 - 1) : IsLiteral .int cs (.int (.ofInt n))
  | float {cs core : List Char} {x : Binary .single} (hletter : DropsLetter 'f' 'F' cs core)
      (hx : Reads .single core (.number x)) (hfinite : x.isFinite = true) :
      IsLiteral .float cs (.float x)
  | double {cs core : List Char} {x : Binary .double} (hletter : DropsLetter 'd' 'D' cs core)
      (hx : Reads .double core (.number x)) (hfinite : x.isFinite = true) :
      IsLiteral .double cs (.double x)
  | boolean {b : Bool} : IsLiteral .boolean (if b then "true" else "false").toList (.boolean b)

theorem ofLiteral?_eq_some_iff : ofLiteral? p cs = some v ↔ IsLiteral p cs v := by
  constructor
  · intro h
    cases p with
    | int =>
      obtain ⟨k, hk, rfl⟩ := Option.map_eq_some_iff.mp h
      obtain ⟨n, hn, hmin, hmax, rfl⟩ := readInt32_eq_some_iff.mp hk
      exact .int hn hmin hmax
    | float =>
      obtain ⟨x, hx, rfl⟩ := Option.map_eq_some_iff.mp h
      obtain ⟨hreads, hfinite⟩ := readBinary_eq_some_iff.mp hx
      exact .float (dropLetter_eq_iff.mp rfl) hreads hfinite
    | double =>
      obtain ⟨x, hx, rfl⟩ := Option.map_eq_some_iff.mp h
      obtain ⟨hreads, hfinite⟩ := readBinary_eq_some_iff.mp hx
      exact .double (dropLetter_eq_iff.mp rfl) hreads hfinite
    | boolean =>
      obtain ⟨b, hb, rfl⟩ := Option.map_eq_some_iff.mp h
      rw [readBool_eq_some_iff.mp hb]
      exact .boolean
    | _ => cases h
  · intro h
    cases h with
    | int hn hmin hmax =>
      exact Option.map_eq_some_iff.mpr
        ⟨_, readInt32_eq_some_iff.mpr ⟨_, hn, hmin, hmax, rfl⟩, rfl⟩
    | float hletter hx hfinite =>
      refine Option.map_eq_some_iff.mpr ⟨_, ?_, rfl⟩
      rw [dropLetter_eq_iff.mpr hletter]
      exact readBinary_eq_some_iff.mpr ⟨hx, hfinite⟩
    | double hletter hx hfinite =>
      refine Option.map_eq_some_iff.mpr ⟨_, ?_, rfl⟩
      rw [dropLetter_eq_iff.mpr hletter]
      exact readBinary_eq_some_iff.mpr ⟨hx, hfinite⟩
    | boolean => exact Option.map_eq_some_iff.mpr ⟨_, readBool_eq_some_iff.mpr rfl, rfl⟩

/-- A word for infinity is no literal, with or without the letter that is dropped. -/
example : ofLiteral? .float "inf".toList = none ∧ ofLiteral? .float "inff".toList = none := by
  decide +kernel

/-- A literal has a value of its type, which is finite. -/
theorem IsLiteral.primitive_eq (h : IsLiteral p cs v) : v.primitive = p := by
  cases h <;> rfl

theorem IsLiteral.isFinite (h : IsLiteral p cs v) : v.isFinite = true := by
  cases h with
  | float _ _ hfinite => exact hfinite
  | double _ _ hfinite => exact hfinite
  | _ => rfl

/-! ## Types that can have a default value -/

/-- The primitive types that can have a default value, each with the member of the mark that gives
it and with the value that holds without one. -/
def kinds : List (Primitive × String × DefaultValue) :=
  [(.int, "intDefault", .int 0), (.float, "floatDefault", .float .zero),
    (.double, "doubleDefault", .double .zero), (.boolean, "booleanDefault", .boolean false)]

theorem mem_kinds_iff :
    (p, key, zero) ∈ kinds ↔ member? p = some key ∧ zero? p = some zero := by
  cases p <;> simp [kinds, member?, zero?, eq_comm]

theorem member?_eq_none_iff : member? p = none ↔ ∀ kind ∈ kinds, p ≠ kind.1 := by
  cases p <;> simp [kinds, member?]

theorem primitive_of_mem_kinds (h : (p, key, zero) ∈ kinds) :
    zero.primitive = p ∧ zero.isFinite = true := by
  obtain ⟨-, hzero⟩ := mem_kinds_iff.mp h
  cases p <;> cases hzero <;> exact ⟨rfl, rfl⟩

end DefaultValue

open DefaultValue

variable {config : Config} {d : Declaration} {type : TypeRef} {p : Primitive}
  {key raw : String} {zero v : DefaultValue} {core : List Char}

/-- The first mark of the declaration that is a mark of properties has a member of the given name,
and the first one has the given text. -/
def GivesDefault (config : Config) (d : Declaration) (key raw : String) : Prop :=
  ∃ mark : Mark,
    (∃ earlier later, d.marks = earlier ++ mark :: later ∧
      mark.isNamed config.propertyMarker = true ∧
      ∀ m ∈ earlier, m.isNamed config.propertyMarker = false) ∧
    ∃ others more, mark.members = others ++ ⟨key, raw⟩ :: more ∧ ∀ m ∈ others, m.name ≠ key

theorem mark?_eq_some_iff {mark : Mark} {configured : String} :
    d.mark? configured = some mark ↔ ∃ earlier later, d.marks = earlier ++ mark :: later ∧
      mark.isNamed configured = true ∧ ∀ m ∈ earlier, m.isNamed configured = false := by
  simp only [Declaration.mark?, List.find?_eq_some_iff_append, Bool.not_eq_true']
  constructor
  · rintro ⟨hnamed, earlier, later, hmarks, hearlier⟩
    exact ⟨earlier, later, hmarks, hnamed, hearlier⟩
  · rintro ⟨earlier, later, hmarks, hnamed, hearlier⟩
    exact ⟨hnamed, earlier, later, hmarks, hearlier⟩

theorem member?_eq_some_iff {mark : Mark} :
    mark.member? key = some raw ↔
      ∃ others more, mark.members = others ++ ⟨key, raw⟩ :: more ∧ ∀ m ∈ others, m.name ≠ key := by
  simp only [Mark.member?, Option.map_eq_some_iff, List.find?_eq_some_iff_append,
    decide_eq_true_eq, Bool.not_eq_true', decide_eq_false_iff_not]
  constructor
  · rintro ⟨⟨name, value⟩, ⟨rfl, others, more, hmembers, hothers⟩, rfl⟩
    exact ⟨others, more, hmembers, hothers⟩
  · rintro ⟨others, more, hmembers, hothers⟩
    exact ⟨⟨key, raw⟩, ⟨rfl, others, more, hmembers, hothers⟩, rfl⟩

theorem defaultText?_eq_some_iff :
    defaultText? config d key = some raw ↔ GivesDefault config d key raw := by
  simp only [defaultText?, Option.bind_eq_some_iff, mark?_eq_some_iff, member?_eq_some_iff,
    GivesDefault]

theorem defaultText?_eq_none_iff :
    defaultText? config d key = none ↔ ∀ raw, ¬GivesDefault config d key raw := by
  simp only [← defaultText?_eq_some_iff, Option.eq_none_iff_forall_ne_some, ne_eq]

/-! ## Resolution -/

/-- Without a text for its member a property has the value that holds without one. -/
theorem resolveDefault_of_absent (hkind : (p, key, zero) ∈ kinds)
    (h : ∀ raw, ¬GivesDefault config d key raw) :
    resolveDefault config d (.primitive p) = .ok (some zero) := by
  obtain ⟨hkey, hzero⟩ := mem_kinds_iff.mp hkind
  simp only [resolveDefault, hkey, defaultText?_eq_none_iff.mpr h, hzero]

/-- With a text for its member, a property has the value of the literal that it is without the
blanks around it. -/
theorem resolveDefault_of_given (hkind : (p, key, zero) ∈ kinds)
    (hraw : GivesDefault config d key raw) (hcore : Trims raw.toList core) :
    resolveDefault config d (.primitive p) =
      match ofLiteral? p core with
      | some v => .ok (some v)
      | none => .error (.invalidDefault d.name key raw (.primitive p)) := by
  obtain ⟨hkey, -⟩ := mem_kinds_iff.mp hkind
  have hgiven := defaultText?_eq_some_iff.mpr hraw
  have htrimmed := trimChars_eq_iff.mpr hcore
  cases hvalue : ofLiteral? p core <;> simp only [resolveDefault, hkey, hgiven, htrimmed, hvalue]

/-- What the default value of a property of a primitive type comes to: with no text for its member
it is the value that holds without one; otherwise the text without the blanks around it is a literal
for the value, and a text that is no literal is a structural failure. -/
structure Resolves (config : Config) (d : Declaration) (p : Primitive) (key : String)
    (zero : DefaultValue) : Prop where
  absent : (∀ raw, ¬GivesDefault config d key raw) →
    resolveDefault config d (.primitive p) = .ok (some zero)
  literal_iff : ∀ raw core, GivesDefault config d key raw → Trims raw.toList core → ∀ v,
    resolveDefault config d (.primitive p) = .ok (some v) ↔ IsLiteral p core v
  invalid_iff : ∀ raw core, GivesDefault config d key raw → Trims raw.toList core →
    (resolveDefault config d (.primitive p) =
        .error (.invalidDefault d.name key raw (.primitive p)) ↔ ∀ v, ¬IsLiteral p core v)
  invalid_structural : ∀ rejection, resolveDefault config d (.primitive p) = .error rejection →
    rejection.category = .structural

theorem resolves_of_mem_kinds (config : Config) (d : Declaration)
    (hkind : (p, key, zero) ∈ kinds) : Resolves config d p key zero where
  absent := resolveDefault_of_absent hkind
  literal_iff raw core hraw hcore v := by
    rw [resolveDefault_of_given hkind hraw hcore, ← ofLiteral?_eq_some_iff]
    cases ofLiteral? p core <;> simp
  invalid_iff raw core hraw hcore := by
    simp only [resolveDefault_of_given hkind hraw hcore, ← ofLiteral?_eq_some_iff]
    cases ofLiteral? p core <;> simp
  invalid_structural rejection h := by
    obtain ⟨member, raw, rfl⟩ := resolveDefault_eq_error h
    rfl

/-- A type of any other kind has no default value. -/
theorem resolveDefault_of_no_kind (h : ∀ kind ∈ kinds, type ≠ .primitive kind.1) :
    resolveDefault config d type = .ok none := by
  cases type with
  | primitive p =>
    have hkey : member? p = none :=
      member?_eq_none_iff.mpr fun kind hkind hp => h kind hkind (congrArg _ hp)
    simp only [resolveDefault, hkey]
  | _ => rfl

/-- A property of a type that can have a default value has a finite one of its type, or fails. -/
theorem resolveDefault_of_kind (config : Config) (d : Declaration)
    (hkind : (p, key, zero) ∈ kinds) :
    (∃ v, resolveDefault config d (.primitive p) = .ok (some v) ∧ v.primitive = p ∧
      v.isFinite = true) ∨
    ∃ rejection, resolveDefault config d (.primitive p) = .error rejection := by
  have hresolves := resolves_of_mem_kinds config d hkind
  by_cases hgiven : ∃ raw, GivesDefault config d key raw
  · obtain ⟨raw, hraw⟩ := hgiven
    have hcore := trims_trimChars raw.toList
    by_cases hliteral : ∃ v, IsLiteral p (trimChars raw.toList) v
    · obtain ⟨v, hv⟩ := hliteral
      exact .inl ⟨v, (hresolves.literal_iff raw _ hraw hcore v).mpr hv, hv.primitive_eq,
        hv.isFinite⟩
    · exact .inr ⟨_, (hresolves.invalid_iff raw _ hraw hcore).mpr (not_exists.mp hliteral)⟩
  · obtain ⟨hprimitive, hfinite⟩ := primitive_of_mem_kinds hkind
    exact .inl ⟨zero, hresolves.absent (not_exists.mp hgiven), hprimitive, hfinite⟩

theorem exists_kind_or_none (type : TypeRef) :
    (∃ p key zero, (p, key, zero) ∈ kinds ∧ type = .primitive p) ∨
      ∀ kind ∈ kinds, type ≠ .primitive kind.1 := by
  by_cases hno : ∀ kind ∈ kinds, type ≠ .primitive kind.1
  · exact .inr hno
  · simp only [not_forall, Classical.not_not] at hno
    obtain ⟨⟨p, key, zero⟩, hkind, htype⟩ := hno
    exact .inl ⟨p, key, zero, hkind, htype⟩

/-- A default value is of the type of its property, and finite. -/
theorem primitive_of_resolveDefault (h : resolveDefault config d type = .ok (some v)) :
    type = .primitive v.primitive ∧ v.isFinite = true := by
  rcases exists_kind_or_none type with ⟨p, key, zero, hkind, rfl⟩ | hno
  · rcases resolveDefault_of_kind config d hkind with ⟨w, hw, rfl, hfinite⟩ | ⟨rejection, hw⟩
    · rw [hw] at h
      cases h
      exact ⟨rfl, hfinite⟩
    · rw [hw] at h
      cases h
  · rw [resolveDefault_of_no_kind hno] at h
    cases h

/-- What the default value of a property comes to, for any declaration and any type. There is none
exactly if the type is none of four primitive types, whatever the marks say. A property of one of
these has the value that the text for its member stands for, or the value that holds without a text,
or fails. A default value is of the type of the property, and finite. -/
theorem resolveDefault_exact (config : Config) (d : Declaration) (type : TypeRef) :
    (resolveDefault config d type = .ok none ↔ ∀ kind ∈ kinds, type ≠ .primitive kind.1) ∧
    (∀ p key zero, (p, key, zero) ∈ kinds → type = .primitive p → Resolves config d p key zero) ∧
    ∀ v, resolveDefault config d type = .ok (some v) →
      type = .primitive v.primitive ∧ v.isFinite = true := by
  refine ⟨⟨fun h => ?_, resolveDefault_of_no_kind⟩,
    fun p key zero hkind _ => resolves_of_mem_kinds config d hkind,
    fun v => primitive_of_resolveDefault⟩
  rcases exists_kind_or_none type with ⟨p, key, zero, hkind, rfl⟩ | hno
  · rcases resolveDefault_of_kind config d hkind with ⟨v, hv, -⟩ | ⟨rejection, hv⟩
    · rw [hv] at h
      cases h
    · rw [hv] at h
      cases h
  · exact hno

end Metamodel
