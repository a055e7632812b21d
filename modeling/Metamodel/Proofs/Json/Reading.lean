import Metamodel.Json.Reader
import Metamodel.Proofs.Json.Tokens

/-!
# What is written is read

A value is written as its tokens, with white space between some of them. The tokens are read back
from the text, and the value from the tokens.

* `WellFormed`: the values that a text can spell.
* `tokens`: the tokens of a value.
* `Spacing`: where white space stands; `compactChars_eq` and `prettyChars_eq` give those of the two
  layouts.
* `scan_chars`: the tokens of a text are those of the value that was written.
* `foldlM_tokens`: a reader that may start a value has read it after its tokens.
* `read_compact`, `read_pretty`: a value is read as it was written.
-/

namespace Metamodel.Json

/-- A value that a text can spell: its numbers are well spelled, and nothing in it is unreadable. -/
inductive WellFormed : Json → Prop where
  | null : WellFormed null
  | bool (b : Bool) : WellFormed (bool b)
  | number {n : Numeral} (h : n.WellSpelled) : WellFormed (number n)
  | string (s : String) : WellFormed (string s)
  | array {items : List Json} (h : ∀ item ∈ items, WellFormed item) : WellFormed (array items)
  | object {members : List (String × Json)} (h : ∀ m ∈ members, WellFormed m.2) :
    WellFormed (object members)

/-! ## Tokens -/

mutual

/-- The tokens of a value. -/
def tokens : Json → List Token
  | null => [.null]
  | bool b => [.bool b]
  | number n => [.number n]
  | string s => [.string s]
  | array [] => [.openArray, .closeArray]
  | array (item :: rest) => .openArray :: (item.tokens ++ tokensOfItems rest)
  | object [] => [.openObject, .closeObject]
  | object ((name, value) :: rest) =>
    .openObject :: .string name :: .colon :: (value.tokens ++ tokensOfMembers rest)
  | unreadable => [.unreadable]

/-- The tokens behind an item of an array: the items that follow it and the end. -/
def tokensOfItems : List Json → List Token
  | [] => [.closeArray]
  | item :: rest => .comma :: (item.tokens ++ tokensOfItems rest)

/-- The tokens behind a member of an object: the members that follow it and the end. -/
def tokensOfMembers : List (String × Json) → List Token
  | [] => [.closeObject]
  | (name, value) :: rest =>
    .comma :: .string name :: .colon :: (value.tokens ++ tokensOfMembers rest)

end

/-! ## White space -/

/-- Characters that are white space. -/
def Blank (cs : List Char) : Prop :=
  ∀ c ∈ cs, isSpace c = true

/-- Where the white space of a text stands: in front of items, members and ends, by the depth of
nesting, and behind colons. -/
structure Spacing where
  /-- What stands in front of an item, a member or an end. -/
  gap : Nat → List Char
  /-- What stands behind a colon. -/
  afterColon : List Char
  gap_blank : ∀ depth, Blank (gap depth)
  afterColon_blank : Blank afterColon

namespace Spacing

/-- No white space. -/
def compact : Spacing where
  gap _ := []
  afterColon := []
  gap_blank _ _ h := absurd h List.not_mem_nil
  afterColon_blank _ h := absurd h List.not_mem_nil

/-- A new line for each item, member and end, and a blank behind each colon. -/
def pretty : Spacing where
  gap := newLine
  afterColon := [' ']
  gap_blank depth c h := by
    rcases List.mem_cons.mp h with rfl | h
    · rfl
    · rw [(List.mem_replicate.mp h).2]
      rfl
  afterColon_blank c h := by
    rw [List.mem_singleton.mp h]
    rfl

variable (sp : Spacing)

mutual

/-- The characters of a value at a depth of nesting. -/
def chars (depth : Nat) : Json → List Char
  | .null => ['n', 'u', 'l', 'l']
  | .bool true => ['t', 'r', 'u', 'e']
  | .bool false => ['f', 'a', 'l', 's', 'e']
  | .number n => n.text
  | .string s => quote s
  | .array [] => ['[', ']']
  | .array (item :: rest) =>
    '[' :: (sp.gap (depth + 1) ++ (chars (depth + 1) item ++ charsOfItems depth rest))
  | .object [] => ['\x7b', '\x7d']
  | .object ((name, value) :: rest) =>
    '\x7b' :: (sp.gap (depth + 1) ++ (quote name ++ ':' :: (sp.afterColon ++
      (chars (depth + 1) value ++ charsOfMembers depth rest))))
  | .unreadable => ['n', 'u', 'l', 'l']

/-- The characters behind an item of an array: the items that follow it and the end. -/
def charsOfItems (depth : Nat) : List Json → List Char
  | [] => sp.gap depth ++ [']']
  | item :: rest =>
    ',' :: (sp.gap (depth + 1) ++ (chars (depth + 1) item ++ charsOfItems depth rest))

/-- The characters behind a member of an object: the members that follow it and the end. -/
def charsOfMembers (depth : Nat) : List (String × Json) → List Char
  | [] => sp.gap depth ++ ['\x7d']
  | (name, value) :: rest =>
    ',' :: (sp.gap (depth + 1) ++ (quote name ++ ':' :: (sp.afterColon ++
      (chars (depth + 1) value ++ charsOfMembers depth rest))))

end

end Spacing

mutual

/-- The compact layout has no white space. -/
theorem compactChars_eq : ∀ (json : Json) (depth : Nat),
    json.compactChars = Spacing.compact.chars depth json
  | null, _ => rfl
  | bool true, _ => rfl
  | bool false, _ => rfl
  | number _, _ => rfl
  | string _, _ => rfl
  | array [], _ => rfl
  | array (item :: rest), depth => by
    have hitem := compactChars_eq item (depth + 1)
    have hrest := compactItems_eq rest depth
    simp [compactChars, Spacing.chars, hitem, hrest, Spacing.compact]
  | object [], _ => rfl
  | object ((name, value) :: rest), depth => by
    have hvalue := compactChars_eq value (depth + 1)
    have hrest := compactMembers_eq rest depth
    simp [compactChars, Spacing.chars, hvalue, hrest, Spacing.compact]
  | unreadable, _ => rfl

theorem compactItems_eq : ∀ (items : List Json) (depth : Nat),
    compactItems items ++ [']'] = Spacing.compact.charsOfItems depth items
  | [], _ => rfl
  | item :: rest, depth => by
    have hitem := compactChars_eq item (depth + 1)
    have hrest := compactItems_eq rest depth
    simp [compactItems, Spacing.charsOfItems, hitem, hrest, Spacing.compact]

theorem compactMembers_eq : ∀ (members : List (String × Json)) (depth : Nat),
    compactMembers members ++ ['\x7d'] = Spacing.compact.charsOfMembers depth members
  | [], _ => rfl
  | (name, value) :: rest, depth => by
    have hvalue := compactChars_eq value (depth + 1)
    have hrest := compactMembers_eq rest depth
    simp [compactMembers, Spacing.charsOfMembers, hvalue, hrest, Spacing.compact]

end

mutual

/-- The pretty layout has a line for each item, member and end. -/
theorem prettyChars_eq : ∀ (json : Json) (depth : Nat),
    prettyChars depth json = Spacing.pretty.chars depth json
  | null, _ => rfl
  | bool true, _ => rfl
  | bool false, _ => rfl
  | number _, _ => rfl
  | string _, _ => rfl
  | array [], _ => rfl
  | array (item :: rest), depth => by
    have hitem := prettyChars_eq item (depth + 1)
    have hrest := prettyItems_eq rest depth
    simp [prettyChars, Spacing.chars, hitem, hrest, Spacing.pretty]
  | object [], _ => rfl
  | object ((name, value) :: rest), depth => by
    have hvalue := prettyChars_eq value (depth + 1)
    have hrest := prettyMembers_eq rest depth
    simp [prettyChars, Spacing.chars, hvalue, hrest, Spacing.pretty]
  | unreadable, _ => rfl

theorem prettyItems_eq : ∀ (items : List Json) (depth : Nat),
    prettyItems (depth + 1) items ++ (newLine depth ++ [']']) =
      Spacing.pretty.charsOfItems depth items
  | [], _ => rfl
  | item :: rest, depth => by
    have hitem := prettyChars_eq item (depth + 1)
    have hrest := prettyItems_eq rest depth
    simp [prettyItems, Spacing.charsOfItems, hitem, hrest, Spacing.pretty]

theorem prettyMembers_eq : ∀ (members : List (String × Json)) (depth : Nat),
    prettyMembers (depth + 1) members ++ (newLine depth ++ ['\x7d']) =
      Spacing.pretty.charsOfMembers depth members
  | [], _ => rfl
  | (name, value) :: rest, depth => by
    have hvalue := prettyChars_eq value (depth + 1)
    have hrest := prettyMembers_eq rest depth
    simp [prettyMembers, Spacing.charsOfMembers, hvalue, hrest, Spacing.pretty]

end

/-! ## Scanning -/

open Numeral

/-- White space is dropped. -/
theorem scan_blank {blank : List Char} (h : Blank blank) (cs : List Char) :
    scan (blank ++ cs) = scan cs := by
  induction blank with
  | nil => rfl
  | cons c blank ih =>
    rw [List.cons_append, scan_space (h c List.mem_cons_self)]
    exact ih fun c hc => h c (List.mem_cons_of_mem _ hc)

/-- White space does not continue a number, and neither does what follows it. -/
theorem ends_blank_append {blank cs : List Char} (h : Blank blank) (hcs : Ends cs) :
    Ends (blank ++ cs) := by
  cases blank with
  | nil => exact hcs
  | cons c blank =>
    rintro c ⟨⟩
    exact endsNumber_of_isSpace (h _ List.mem_cons_self)

namespace Spacing

variable {sp : Spacing} {depth : Nat} {rest : List Char} {ts : List Token}

theorem ends_charsOfItems (sp : Spacing) (depth : Nat) (items : List Json) (rest : List Char) :
    Ends (sp.charsOfItems depth items ++ rest) := by
  cases items with
  | nil =>
    rw [charsOfItems, List.append_assoc]
    refine ends_blank_append (sp.gap_blank depth) ?_
    rintro c ⟨⟩
    decide
  | cons item items =>
    rintro c ⟨⟩
    decide

theorem ends_charsOfMembers (sp : Spacing) (depth : Nat) (members : List (String × Json))
    (rest : List Char) : Ends (sp.charsOfMembers depth members ++ rest) := by
  cases members with
  | nil =>
    rw [charsOfMembers, List.append_assoc]
    refine ends_blank_append (sp.gap_blank depth) ?_
    rintro c ⟨⟩
    decide
  | cons m members =>
    rintro c ⟨⟩
    decide

/-- The text of a value is scanned as its tokens, if what follows does not continue a number. -/
def Scans (sp : Spacing) (json : Json) : Prop :=
  ∀ (depth : Nat) {rest : List Char} {ts : List Token}, Ends rest → scan rest = some ts →
    scan (sp.chars depth json ++ rest) = some (json.tokens ++ ts)

theorem scan_charsOfItems {items : List Json} (h : ∀ item ∈ items, sp.Scans item)
    (hrest : scan rest = some ts) :
    scan (sp.charsOfItems depth items ++ rest) = some (tokensOfItems items ++ ts) := by
  induction items with
  | nil =>
    rw [charsOfItems, List.append_assoc, scan_blank (sp.gap_blank depth)]
    exact scan_punctuation rfl rfl hrest
  | cons item items ih =>
    obtain ⟨hitem, hitems⟩ := List.forall_mem_cons.mp h
    have htail := hitem (depth + 1) (sp.ends_charsOfItems depth items rest) (ih hitems)
    rw [← List.append_assoc, ← scan_blank (sp.gap_blank (depth + 1))] at htail
    simpa [charsOfItems, tokensOfItems] using scan_punctuation rfl rfl htail

/-- A member is scanned as its name, a colon and the tokens of its value. -/
theorem scan_member {value : Json} (h : sp.Scans value) (depth : Nat) (name : String)
    (hends : Ends rest) (hrest : scan rest = some ts) :
    scan (sp.gap (depth + 1) ++ (quote name ++ ':' :: (sp.afterColon ++
      (sp.chars (depth + 1) value ++ rest)))) =
        some (.string name :: .colon :: (value.tokens ++ ts)) := by
  rw [scan_blank (sp.gap_blank (depth + 1))]
  refine scan_quote name (scan_punctuation rfl rfl ?_)
  rw [scan_blank sp.afterColon_blank]
  exact h (depth + 1) hends hrest

theorem scan_charsOfMembers {members : List (String × Json)} (h : ∀ m ∈ members, sp.Scans m.2)
    (hrest : scan rest = some ts) :
    scan (sp.charsOfMembers depth members ++ rest) = some (tokensOfMembers members ++ ts) := by
  induction members with
  | nil =>
    rw [charsOfMembers, List.append_assoc, scan_blank (sp.gap_blank depth)]
    exact scan_punctuation rfl rfl hrest
  | cons m members ih =>
    obtain ⟨hm, hmembers⟩ := List.forall_mem_cons.mp h
    have htail := scan_member hm depth m.1
      (sp.ends_charsOfMembers depth members rest) (ih hmembers)
    simpa [charsOfMembers, tokensOfMembers] using scan_punctuation rfl rfl htail

/-- The tokens of a text are those of the value that was written. -/
theorem scan_chars (sp : Spacing) {json : Json} (h : WellFormed json) : sp.Scans json := by
  induction h with
  | null =>
    exact fun _ _ _ _ hrest =>
      scan_append ['n', 'u', 'l', 'l'] (by simp [isSpace]) (by simp) rfl hrest
  | bool b =>
    cases b with
    | true =>
      exact fun _ _ _ _ hrest =>
        scan_append ['t', 'r', 'u', 'e'] (by simp [isSpace]) (by simp) rfl hrest
    | false =>
      exact fun _ _ _ _ hrest =>
        scan_append ['f', 'a', 'l', 's', 'e'] (by simp [isSpace]) (by simp) rfl hrest
  | number h => exact fun _ _ _ hends hrest => scan_text h hends hrest
  | string s => exact fun _ _ _ _ hrest => scan_quote s hrest
  | @array items h ih =>
    intro depth rest ts hends hrest
    cases items with
    | nil => exact scan_punctuation rfl rfl (scan_punctuation rfl rfl hrest)
    | cons item items =>
      obtain ⟨hitem, hitems⟩ := List.forall_mem_cons.mp ih
      have htail := hitem (depth + 1) (sp.ends_charsOfItems depth items rest)
        (scan_charsOfItems hitems hrest)
      rw [← scan_blank (sp.gap_blank (depth + 1))] at htail
      simpa [chars, tokens] using scan_punctuation rfl rfl htail
  | @object members h ih =>
    intro depth rest ts hends hrest
    cases members with
    | nil => exact scan_punctuation rfl rfl (scan_punctuation rfl rfl hrest)
    | cons m members =>
      obtain ⟨hm, hmembers⟩ := List.forall_mem_cons.mp ih
      have htail := scan_member hm depth m.1 (sp.ends_charsOfMembers depth members rest)
        (scan_charsOfMembers hmembers hrest)
      simpa [chars, tokens] using scan_punctuation rfl rfl htail

end Spacing

/-! ## Reading tokens -/

/-- A reader that may start a value has read the value after its tokens. -/
def Reads (json : Json) : Prop :=
  ∀ within : List Open, json.tokens.foldlM Reader.step ⟨.value, within⟩ = some ⟨.after json, within⟩

/-- Behind the tokens of a value the reader goes on with the value. -/
theorem Reads.foldlM_append {json : Json} (h : json.Reads) (within : List Open) (ts : List Token) :
    (json.tokens ++ ts).foldlM Reader.step ⟨.value, within⟩ =
      ts.foldlM Reader.step ⟨.after json, within⟩ := by
  simp [List.foldlM_append, h within]

/-- Behind the tokens of a member the reader goes on with its name and value. -/
theorem Reads.foldlM_member {value : Json} (h : value.Reads) (name : String)
    (done : List (String × Json)) (within : List Open) (ts : List Token) :
    (.string name :: .colon :: (value.tokens ++ ts)).foldlM Reader.step
        ⟨.name (some done), within⟩ =
      ts.foldlM Reader.step ⟨.after value, .object (some done) (some name) :: within⟩ :=
  h.foldlM_append (.object (some done) (some name) :: within) ts

/-- The first token of a value does not end an array. So a value may start where an array may end
just as anywhere else. -/
theorem foldlM_itemOrEnd (json : Json) (done : List Json) (within : List Open) (ts : List Token) :
    (json.tokens ++ ts).foldlM Reader.step ⟨.itemOrEnd, .array done :: within⟩ =
      (json.tokens ++ ts).foldlM Reader.step ⟨.value, .array done :: within⟩ := by
  cases json with
  | array items => cases items <;> rfl
  | object members => cases members <;> rfl
  | _ => rfl

/-- An array is finished behind the tokens that follow one of its items. -/
theorem foldlM_tokensOfItems {items : List Json} (h : ∀ item ∈ items, item.Reads)
    (value : Json) (done : List Json) (within : List Open) :
    (tokensOfItems items).foldlM Reader.step ⟨.after value, .array done :: within⟩ =
      some ⟨.after (.array (done.reverse ++ value :: items)), within⟩ := by
  induction items generalizing value done with
  | nil => simp [tokensOfItems, Reader.step, Reader.continueAfter]
  | cons item items ih =>
    obtain ⟨hitem, hitems⟩ := List.forall_mem_cons.mp h
    have hcomma : (tokensOfItems (item :: items)).foldlM Reader.step
        ⟨.after value, .array done :: within⟩ = (item.tokens ++ tokensOfItems items).foldlM
          Reader.step ⟨.value, .array (value :: done) :: within⟩ := rfl
    rw [hcomma, hitem.foldlM_append, ih hitems]
    simp

/-- An object is finished behind the tokens that follow one of its members. -/
theorem foldlM_tokensOfMembers {members : List (String × Json)} (h : ∀ m ∈ members, m.2.Reads)
    (name : String) (value : Json) (done : List (String × Json)) (within : List Open) :
    (tokensOfMembers members).foldlM Reader.step
        ⟨.after value, .object (some done) (some name) :: within⟩ =
      some ⟨.after (.object (done.reverse ++ (name, value) :: members)), within⟩ := by
  induction members generalizing name value done with
  | nil =>
    simp [tokensOfMembers, Reader.step, Reader.continueAfter, Reader.addMember,
      Reader.finishObject]
  | cons m members ih =>
    obtain ⟨hm, hmembers⟩ := List.forall_mem_cons.mp h
    have hcomma : (tokensOfMembers (m :: members)).foldlM Reader.step
        ⟨.after value, .object (some done) (some name) :: within⟩ =
          (.string m.1 :: .colon :: (m.2.tokens ++ tokensOfMembers members)).foldlM Reader.step
            ⟨.name (some ((name, value) :: done)), within⟩ := rfl
    rw [hcomma, hm.foldlM_member, ih hmembers]
    simp

/-- A reader that may start a value has read it after its tokens, wherever the value stands. -/
theorem foldlM_tokens {json : Json} (h : WellFormed json) : json.Reads := by
  induction h with
  | null => exact fun _ => rfl
  | bool b => exact fun _ => rfl
  | number h => exact fun _ => rfl
  | string s => exact fun _ => rfl
  | @array items h ih =>
    intro within
    cases items with
    | nil => rfl
    | cons item items =>
      obtain ⟨hitem, hitems⟩ := List.forall_mem_cons.mp ih
      have hopen : (array (item :: items)).tokens.foldlM Reader.step ⟨.value, within⟩ =
          (item.tokens ++ tokensOfItems items).foldlM Reader.step
            ⟨.itemOrEnd, .array [] :: within⟩ := rfl
      rw [hopen, foldlM_itemOrEnd, hitem.foldlM_append, foldlM_tokensOfItems hitems]
      rfl
  | @object members h ih =>
    intro within
    cases members with
    | nil => rfl
    | cons m members =>
      obtain ⟨hm, hmembers⟩ := List.forall_mem_cons.mp ih
      -- The first name of an object is read as any other.
      have hopen : (object (m :: members)).tokens.foldlM Reader.step ⟨.value, within⟩ =
          (.string m.1 :: .colon :: (m.2.tokens ++ tokensOfMembers members)).foldlM Reader.step
            ⟨.name (some []), within⟩ := rfl
      rw [hopen, hm.foldlM_member, foldlM_tokensOfMembers hmembers]
      rfl

/-! ## Texts -/

/-- Whatever white space is put between tokens, a value is read as it was written. -/
theorem read_chars (sp : Spacing) {json : Json} (h : WellFormed json) :
    read (String.ofList (sp.chars 0 json)) = some json := by
  have hends : Ends [] := by rintro c ⟨⟩
  have hscan : scan (sp.chars 0 json) = some json.tokens := by
    simpa using sp.scan_chars h 0 hends rfl
  have hread : json.tokens.foldlM Reader.step Reader.start = some ⟨.after json, []⟩ :=
    foldlM_tokens h []
  simp [read, hscan, readTokens, hread, Reader.result?]

theorem read_compact {json : Json} (h : WellFormed json) : read json.compact = some json := by
  rw [compact, compactChars_eq json 0, read_chars _ h]

theorem read_pretty {json : Json} (h : WellFormed json) : read json.pretty = some json := by
  rw [pretty, prettyChars_eq json 0, read_chars _ h]

end Metamodel.Json
