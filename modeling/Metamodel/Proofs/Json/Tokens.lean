import Metamodel.Json.Printer
import Metamodel.Json.Token

/-!
# Tokens that are written

What is written for a number or a string is read as one token, whatever follows a string, and as
long as what follows a number does not continue it.

* `Numeral.WellSpelled`: the numerals as JSON spells them.
* `spanNumber_text`: a numeral is read as it was written.
* `spanString_flatMap_escape`: a string is read as it was quoted.
* `scan_append`, `scan_quote`, `scan_text`: a text that starts with a token, a quoted string or a
  numeral has the tokens of the rest behind it.
-/

namespace Metamodel

/-! ## Digits -/

/-- The text does not go on with a digit. -/
def StopsDigits (cs : List Char) : Prop :=
  ∀ c ∈ cs.head?, isDigit c = false

/-- A row of digits is read up to its end. -/
theorem spanDigits_append {ds rest : List Char} (hds : ∀ c ∈ ds, isDigit c = true)
    (hrest : StopsDigits rest) : spanDigits (ds ++ rest) = (ds, rest) := by
  have htake : rest.takeWhile isDigit = [] ∧ rest.dropWhile isDigit = rest := by
    cases rest with
    | nil => exact ⟨rfl, rfl⟩
    | cons c cs => simp [hrest c rfl]
  rw [spanDigits, List.takeWhile_append_of_pos hds, List.dropWhile_append_of_pos hds, htake.1,
    htake.2, List.append_nil]

namespace Numeral

/-- A numeral as JSON spells it: digits before the point, without zeros that could be left out, and
digits behind the mark of an exponent. -/
structure WellSpelled (n : Numeral) : Prop where
  whole_ne_nil : n.whole ≠ []
  whole_digits : ∀ c ∈ n.whole, isDigit c = true
  whole_leading : n.whole.head? = some '0' → n.whole = ['0']
  fraction_digits : ∀ c ∈ n.fraction, isDigit c = true
  exponent_ne_nil : ∀ e ∈ n.exponent, e.2 ≠ []
  exponent_digits : ∀ e ∈ n.exponent, ∀ c ∈ e.2, isDigit c = true

/-- The text does not continue a number in front of it. -/
def Ends (cs : List Char) : Prop :=
  ∀ c ∈ cs.head?, isDigit c = false ∧ c ≠ '.' ∧ c ≠ 'e' ∧ c ≠ 'E'

theorem Ends.stopsDigits {cs : List Char} (h : Ends cs) : StopsDigits cs :=
  fun c hc => (h c hc).1

/-- A sign is read as it was written, in front of a digit. -/
theorem span_exponentSign (sign : ExponentSign) {ds rest : List Char} (hne : ds ≠ [])
    (hds : ∀ c ∈ ds, isDigit c = true) :
    ExponentSign.span (sign.text ++ (ds ++ rest)) = (sign, ds ++ rest) := by
  obtain ⟨d, ds, rfl⟩ := List.exists_cons_of_ne_nil hne
  have hd : isDigit d = true := hds d List.mem_cons_self
  cases sign with
  | plus => rfl
  | minus => rfl
  | bare =>
    have hplus : d ≠ '+' := by rintro rfl; simp [isDigit] at hd
    have hminus : d ≠ '-' := by rintro rfl; simp [isDigit] at hd
    simp [ExponentSign.text, ExponentSign.span, hplus, hminus]

/-- An exponent is read as it was written. -/
theorem spanExponent_append {exponent : Option (ExponentSign × List Char)} {rest : List Char}
    (hne : ∀ e ∈ exponent, e.2 ≠ []) (hds : ∀ e ∈ exponent, ∀ c ∈ e.2, isDigit c = true)
    (hrest : Ends rest) : spanExponent (exponentText exponent ++ rest) = some (exponent, rest) := by
  cases exponent with
  | none =>
    cases rest with
    | nil => rfl
    | cons c cs =>
      obtain ⟨-, -, he, hE⟩ := hrest c rfl
      simp [exponentText, spanExponent, he, hE]
  | some e =>
    obtain ⟨sign, ds⟩ := e
    have hempty : ds.isEmpty = false := by simpa using hne _ rfl
    simp [exponentText, spanExponent, span_exponentSign sign (hne _ rfl) (hds _ rfl),
      spanDigits_append (hds _ rfl) hrest.stopsDigits, hempty]

/-- The point and the digits behind it; nothing if there are none. -/
def fractionText (fraction : List Char) : List Char :=
  if fraction.isEmpty then [] else '.' :: fraction

/-- The parts of a numeral, with what follows it. -/
theorem text_append (n : Numeral) (rest : List Char) :
    n.text ++ rest = (if n.negative then ['-'] else []) ++
      (n.whole ++ (fractionText n.fraction ++ (exponentText n.exponent ++ rest))) := by
  simp [text, fractionText]

/-- An exponent and what follows it do not start with a digit or a point. -/
theorem exponentText_append_head (exponent : Option (ExponentSign × List Char)) {rest : List Char}
    (hrest : Ends rest) :
    ∀ c ∈ (exponentText exponent ++ rest).head?, isDigit c = false ∧ c ≠ '.' := by
  cases exponent with
  | none => exact fun c hc => ⟨(hrest c hc).1, (hrest c hc).2.1⟩
  | some e =>
    rintro c ⟨⟩
    exact ⟨rfl, by decide⟩

/-- What follows the digits before the point does not start with a digit. -/
theorem stopsDigits_fractionText (fraction : List Char)
    (exponent : Option (ExponentSign × List Char)) {rest : List Char} (hrest : Ends rest) :
    StopsDigits (fractionText fraction ++ (exponentText exponent ++ rest)) := by
  cases fraction with
  | nil => exact fun c hc => (exponentText_append_head exponent hrest c hc).1
  | cons d ds =>
    rintro c ⟨⟩
    rfl

end Numeral

namespace Json

open Numeral

/-- A fraction is read as it was written. -/
theorem spanFraction_append {fraction : List Char} (hds : ∀ c ∈ fraction, isDigit c = true)
    (exponent : Option (ExponentSign × List Char)) {rest : List Char} (hrest : Ends rest) :
    spanFraction (fractionText fraction ++ (exponentText exponent ++ rest)) =
      some (fraction, exponentText exponent ++ rest) := by
  have hhead := exponentText_append_head exponent hrest
  cases fraction with
  | nil =>
    cases hcs : exponentText exponent ++ rest with
    | nil => rfl
    | cons c cs =>
      have hc : c ≠ '.' := (hhead c (by rw [hcs]; rfl)).2
      simp [fractionText, spanFraction, hc]
  | cons d ds =>
    have hspan := spanDigits_append hds fun c hc => (hhead c hc).1
    rw [List.cons_append] at hspan
    simp [fractionText, spanFraction, hspan]

/-- The digits before the point are read as they were written. -/
theorem spanWhole_append {whole rest : List Char} (hds : ∀ c ∈ whole, isDigit c = true)
    (hleading : whole.head? = some '0' → whole = ['0']) (hrest : StopsDigits rest)
    (hne : whole ≠ []) : spanWhole (whole ++ rest) = (whole, rest) := by
  obtain ⟨d, ds, rfl⟩ := List.exists_cons_of_ne_nil hne
  by_cases hd : d = '0'
  · subst hd
    obtain rfl : ds = [] := by simpa using hleading rfl
    rfl
  · have hspan : spanWhole (d :: ds ++ rest) = spanDigits (d :: ds ++ rest) := by
      simp [spanWhole, hd]
    rw [hspan, spanDigits_append hds hrest]

/-- A numeral is read as it was written, if what follows does not continue it. -/
theorem spanNumber_text {n : Numeral} (h : n.WellSpelled) {rest : List Char} (hrest : Ends rest) :
    spanNumber (n.text ++ rest) = some (.number n, rest) := by
  obtain ⟨negative, whole, fraction, exponent⟩ := n
  have hwhole := spanWhole_append h.whole_digits h.whole_leading
    (stopsDigits_fractionText fraction exponent hrest) h.whole_ne_nil
  have hfraction := spanFraction_append h.fraction_digits exponent hrest
  have hexponent := spanExponent_append h.exponent_ne_nil h.exponent_digits hrest
  have hempty : whole.isEmpty = false := by simpa using h.whole_ne_nil
  dsimp only at hwhole hfraction hexponent
  rw [text_append]
  cases negative with
  | true => simp [spanNumber, hwhole, hfraction, hexponent, hempty]
  | false =>
    obtain ⟨d, ds, rfl⟩ := List.exists_cons_of_ne_nil h.whole_ne_nil
    -- The first digit is not taken for a sign.
    have hminus : d ≠ '-' := by
      rintro rfl
      have hdigit := h.whole_digits '-' List.mem_cons_self
      simp [isDigit] at hdigit
    rw [List.cons_append] at hwhole
    simp [spanNumber, hwhole, hfraction, hexponent, hminus]

/-! ## Strings -/

/-- A character that is written by its number. -/
def isNumbered (c : Char) : Bool :=
  c.toNat < 0x20 && !(['\x08', '\t', '\n', '\x0c', '\r'].contains c)

/-- The piece that a character is read as when it was written inside quotation marks. -/
def piece (c : Char) : Piece :=
  if isNumbered c then .unit c.toNat else .char c

/-- A short escape is read as the character that it stands for. -/
theorem spanPieces_short {e c : Char} (he : e ≠ 'u') (h : shortEscape e = some c)
    (rest : List Char) : spanPieces ('\x5c' :: e :: rest) =
      (spanPieces rest).map fun p => (.char c :: p.1, p.2) := by
  rw [spanPieces]
  · rw [h]
    cases spanPieces rest <;> rfl
  · rintro a b c d r ⟨⟩
    exact absurd rfl he

/-- Two hexadecimal digits are read as they were written. -/
theorem hexValue4_hexDigit {n : Nat} (h : n < 0x20) :
    hexValue4 '0' '0' (hexDigit (n / 16)) (hexDigit (n % 16)) = some n := by
  have hall : ∀ n < 0x20,
      hexValue4 '0' '0' (hexDigit (n / 16)) (hexDigit (n % 16)) = some n := by decide
  exact hall n h

/-- A character of which the number was written is read as its number. -/
theorem spanPieces_numbered {n : Nat} (h : n < 0x20) (rest : List Char) :
    spanPieces ('\x5c' :: 'u' :: '0' :: '0' :: hexDigit (n / 16) :: hexDigit (n % 16) :: rest) =
      (spanPieces rest).map fun p => (.unit n :: p.1, p.2) := by
  rw [spanPieces, hexValue4_hexDigit h]
  cases spanPieces rest <;> rfl

/-- A character that needs no escape is read as it is. -/
theorem spanPieces_plain {c : Char} (hquote : c ≠ '\x22') (hslash : c ≠ '\x5c')
    (hc : ¬ c.toNat < 0x20) (rest : List Char) :
    spanPieces (c :: rest) = (spanPieces rest).map fun p => (.char c :: p.1, p.2) := by
  rw [spanPieces]
  · rw [if_neg (by simp [hc, hslash])]
    cases spanPieces rest <;> rfl
  all_goals simp [hquote, hslash]

/-- The three ways in which a character is written inside quotation marks. -/
theorem escape_cases (c : Char) :
    (∃ e, escape c = ['\x5c', e] ∧ e ≠ 'u' ∧ shortEscape e = some c ∧ piece c = .char c) ∨
    (escape c = ['\x5c', 'u', '0', '0', hexDigit (c.toNat / 16), hexDigit (c.toNat % 16)] ∧
      c.toNat < 0x20 ∧ piece c = .unit c.toNat) ∨
    (escape c = [c] ∧ c ≠ '\x22' ∧ c ≠ '\x5c' ∧ ¬ c.toNat < 0x20 ∧ piece c = .char c) := by
  by_cases hshort : c ∈ ['\x22', '\x5c', '\x08', '\t', '\n', '\x0c', '\r']
  · left
    simp only [List.mem_cons, List.not_mem_nil, or_false] at hshort
    rcases hshort with rfl | rfl | rfl | rfl | rfl | rfl | rfl
    all_goals exact ⟨_, rfl, by decide, rfl, by decide⟩
  · right
    simp only [List.mem_cons, List.not_mem_nil, or_false, not_or] at hshort
    obtain ⟨h1, h2, h3, h4, h5, h6, h7⟩ := hshort
    by_cases hc : c.toNat < 0x20
    · left
      simp [escape, piece, isNumbered, h1, h2, h3, h4, h5, h6, h7, hc]
    · right
      simp [escape, piece, isNumbered, h1, h2, h3, h4, h5, h6, h7, hc]

/-- A character that was escaped is read as one piece. -/
theorem spanPieces_escape (c : Char) (rest : List Char) :
    spanPieces (escape c ++ rest) = (spanPieces rest).map fun p => (piece c :: p.1, p.2) := by
  rcases escape_cases c with ⟨e, he, hu, hshort, hp⟩ | ⟨he, hc, hp⟩ | ⟨he, hquote, hslash, hc, hp⟩
  · rw [he, hp]
    exact spanPieces_short hu hshort rest
  · rw [he, hp]
    exact spanPieces_numbered hc rest
  · rw [he, hp]
    exact spanPieces_plain hquote hslash hc rest

/-- The pieces of a text that was escaped go up to the quotation mark that closes it. -/
theorem spanPieces_flatMap_escape (cs rest : List Char) :
    spanPieces (cs.flatMap escape ++ '\x22' :: rest) = some (cs.map piece, rest) := by
  induction cs with
  | nil => rfl
  | cons c cs ih =>
    rw [List.flatMap_cons, List.append_assoc, spanPieces_escape, ih]
    rfl

/-- A code unit below the surrogates stands for one character. -/
theorem joinPieces_unit {code : Nat} (h : code < 0xD800) (rest : List Piece) :
    joinPieces (.unit code :: rest) = (joinPieces rest).map (Char.ofNat code :: ·) := by
  have hhigh : isHighSurrogate code = false := by simp [isHighSurrogate]; omega
  have hlow : isLowSurrogate code = false := by simp [isLowSurrogate]; omega
  match rest with
  | [] => simp [joinPieces, hhigh, hlow]
  | .char c :: rest => simp [joinPieces, hhigh, hlow]
  | .unit low :: rest => simp [joinPieces, hhigh, hlow]

/-- The pieces of a text stand for the text. -/
theorem joinPieces_map_piece (cs : List Char) : joinPieces (cs.map piece) = some cs := by
  induction cs with
  | nil => rfl
  | cons c cs ih =>
    rw [List.map_cons, piece]
    split
    · rename_i hc
      have hlt : c.toNat < 0xD800 := by
        simp [isNumbered] at hc
        omega
      rw [joinPieces_unit hlt, ih, Char.ofNat_toNat]
      rfl
    · rw [joinPieces, ih]
      rfl

/-- A string that was quoted is read as it was, whatever follows it. -/
theorem spanString_flatMap_escape (s : String) (rest : List Char) :
    spanString (s.toList.flatMap escape ++ '\x22' :: rest) = some (.string s, rest) := by
  rw [spanString, spanPieces_flatMap_escape]
  simp [joinPieces_map_piece]

/-! ## Tokens -/

/-- White space does not continue a number. -/
theorem endsNumber_of_isSpace {c : Char} (h : isSpace c = true) :
    isDigit c = false ∧ c ≠ '.' ∧ c ≠ 'e' ∧ c ≠ 'E' := by
  simp only [isSpace, Bool.or_eq_true, decide_eq_true_eq] at h
  rcases h with ((rfl | rfl) | rfl) | rfl
  all_goals decide

/-- More fuel than is needed changes nothing. -/
theorem scanWithin_of_le {fuel more : Nat} {cs : List Char} {tokens : List Token}
    (h : scanWithin fuel cs = some tokens) (hle : fuel ≤ more) :
    scanWithin more cs = some tokens := by
  induction fuel generalizing more cs tokens with
  | zero =>
    cases cs with
    | nil => simpa [scanWithin] using h
    | cons c cs => simp [scanWithin] at h
  | succ fuel ih =>
    obtain ⟨more, rfl⟩ := Nat.exists_eq_succ_of_ne_zero (Nat.ne_zero_of_lt hle)
    have hle : fuel ≤ more := Nat.le_of_succ_le_succ hle
    cases cs with
    | nil => simpa [scanWithin] using h
    | cons c cs =>
      by_cases hs : isSpace c = true
      · simp only [scanWithin, hs, if_true] at h ⊢
        exact ih h hle
      · cases ht : spanToken (c :: cs) with
        | none => simp [scanWithin, hs, ht] at h
        | some p =>
          cases hr : scanWithin fuel p.2 with
          | none => simp [scanWithin, hs, ht, hr] at h
          | some ts => simpa [scanWithin, hs, ht, hr, ih hr hle] using h

/-- White space is dropped. -/
theorem scan_space {c : Char} (h : isSpace c = true) (cs : List Char) :
    scan (c :: cs) = scan cs := by
  simp [scan, scanWithin, h]

/-- A text that starts with a token has the tokens of the rest behind it. -/
theorem scan_append (text : List Char) {rest : List Char} {token : Token} {tokens : List Token}
    (hspace : ∀ c ∈ text.head?, isSpace c = false) (hne : text ≠ [])
    (htoken : spanToken (text ++ rest) = some (token, rest)) (hrest : scan rest = some tokens) :
    scan (text ++ rest) = some (token :: tokens) := by
  obtain ⟨c, cs, rfl⟩ := List.exists_cons_of_ne_nil hne
  have hc : isSpace c = false := hspace c rfl
  have hlong : scanWithin (cs ++ rest).length rest = some tokens :=
    scanWithin_of_le hrest (by simp)
  have hscan : scan (c :: (cs ++ rest)) = (spanToken (c :: (cs ++ rest))).bind fun p =>
      (scanWithin (cs ++ rest).length p.2).bind fun ts => some (p.1 :: ts) := by
    simp [scan, scanWithin, hc]
  rw [List.cons_append] at htoken ⊢
  rw [hscan, htoken, Option.bind_some, hlong]
  rfl

/-- A punctuation mark is a token of its own. -/
theorem scan_punctuation {c : Char} {rest : List Char} {token : Token} {tokens : List Token}
    (hspace : isSpace c = false) (htoken : spanToken (c :: rest) = some (token, rest))
    (hrest : scan rest = some tokens) : scan (c :: rest) = some (token :: tokens) :=
  scan_append [c] (by simpa using hspace) (List.cons_ne_nil _ _) htoken hrest

/-- A quoted string is one token. -/
theorem scan_quote (s : String) {rest : List Char} {tokens : List Token}
    (hrest : scan rest = some tokens) :
    scan (quote s ++ rest) = some (.string s :: tokens) := by
  refine scan_append (quote s) (by simp [quote, isSpace]) (List.cons_ne_nil _ _) ?_ hrest
  have hquote : quote s ++ rest = '\x22' :: (s.toList.flatMap escape ++ '\x22' :: rest) := by
    simp [quote]
  rw [hquote, ← spanString_flatMap_escape]
  rfl

/-- What starts with a digit or a minus sign is a number. -/
theorem spanToken_of_numeric {c : Char} (hc : isDigit c = true ∨ c = '-') (cs : List Char) :
    spanToken (c :: cs) = spanNumber (c :: cs) := by
  unfold spanToken
  split
  all_goals first | rfl | (rename_i h; cases h; simp [isDigit] at hc)

/-- A numeral starts with a digit or a minus sign. -/
theorem exists_text_eq_cons {n : Numeral} (h : n.WellSpelled) :
    ∃ c cs, n.text = c :: cs ∧ (isDigit c = true ∨ c = '-') := by
  obtain ⟨d, ds, hd⟩ := List.exists_cons_of_ne_nil h.whole_ne_nil
  have hdigit : isDigit d = true := h.whole_digits d (by rw [hd]; exact List.mem_cons_self)
  have htext := n.text_append []
  rw [hd, List.append_nil] at htext
  cases hn : n.negative with
  | true => exact ⟨'-', _, by rw [htext, hn]; rfl, .inr rfl⟩
  | false => exact ⟨d, _, by rw [htext, hn]; rfl, .inl hdigit⟩

/-- A numeral is one token, if what follows does not continue it. -/
theorem scan_text {n : Numeral} (h : n.WellSpelled) {rest : List Char} {tokens : List Token}
    (hends : Ends rest) (hrest : scan rest = some tokens) :
    scan (n.text ++ rest) = some (.number n :: tokens) := by
  obtain ⟨c, cs, htext, hc⟩ := exists_text_eq_cons h
  have hspace : isSpace c = false := by
    rcases hc with hc | rfl
    · exact Bool.eq_false_iff.mpr fun hs => by simp [(endsNumber_of_isSpace hs).1] at hc
    · rfl
  refine scan_append n.text (by rw [htext]; simpa using hspace) (by simp [htext]) ?_ hrest
  rw [htext, List.cons_append, spanToken_of_numeric hc, ← List.cons_append, ← htext,
    spanNumber_text h hends]

end Json

end Metamodel
