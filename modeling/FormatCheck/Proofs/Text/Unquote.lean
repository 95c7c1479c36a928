import FormatCheck.Proofs.Numeral.Radix
import FormatCheck.Text.Quoted
import Mathlib.Tactic.SplitIfs

/-!
# Quotations read back

`unquote?` reads a quoted literal: either delimiter, a backslash before the escaped character or its
letter, and numeric escapes of two, four or eight hexadecimal digits. A quotation is a delimiter, a
body that does not end early (`Body`) and the delimiter again, all of it printable, and
`quotation_quote` says that it is read as the text that was quoted.

A body is written one character at a time, so what is to be shown of a whole body is shown of the
text of each character first (`ShownAs`).
-/

namespace FormatCheck
namespace Text

/-! ## Reading -/

/-- The character that a single character after a backslash stands for. -/
def shortEscape? (e : Char) : Option Char :=
  if e = '\\' ∨ e = '\'' ∨ e = '"' then some e
  else if e = 't' then some '\t'
  else if e = 'n' then some '\n'
  else if e = 'r' then some '\r'
  else none

/-- The number of hexadecimal digits that follow the letter of a numeric escape. -/
def hexDigitsAfter? (e : Char) : Option Nat :=
  if e = 'x' then some 2
  else if e = 'u' then some 4
  else if e = 'U' then some 8
  else none

/-- The character whose code point is written in hexadecimal digits. -/
def charOfHex? (digits : List Char) : Option Char :=
  (Numeral.readIn? 16 digits).bind fun n =>
    if h : n.isValidChar then some (Char.ofNatAux n h) else none

/-- Takes what follows the backslash of an escape. -/
def takeEscape? : List Char → Option (Char × List Char)
  | [] => none
  | e :: s =>
    match hexDigitsAfter? e with
    | some count =>
      if count ≤ s.length then (charOfHex? (s.take count)).map fun c => (c, s.drop count) else none
    | none => (shortEscape? e).map fun c => (c, s)

theorem length_lt_of_takeEscape? {s rest : List Char} {c : Char}
    (h : takeEscape? s = some (c, rest)) : rest.length < s.length := by
  cases s with
  | nil =>
      cases h
  | cons e s =>
      rw [takeEscape?] at h
      split at h
      · split at h
        · rcases Option.map_eq_some_iff.mp h with ⟨_, _, heq⟩
          cases heq
          rw [List.length_drop, List.length_cons]
          exact Nat.lt_succ_of_le (Nat.sub_le _ _)
        · cases h
      · rcases Option.map_eq_some_iff.mp h with ⟨_, _, heq⟩
        cases heq
        exact Nat.lt_succ_self _

/-- Reads what follows the opening delimiter, up to the closing one, which ends the text. -/
def readBody? (delim : Char) : List Char → Option (List Char)
  | [] => none
  | c :: s =>
    -- Nothing may follow the closing delimiter.
    if c = delim then if s = [] then some [] else none
    else if c = '\\' then
      match _ : takeEscape? s with
      | none => none
      | some (d, rest) => (readBody? delim rest).map (d :: ·)
    else (readBody? delim s).map (c :: ·)
termination_by s => s.length
decreasing_by
  · have hlt := length_lt_of_takeEscape? ‹_›
    exact Nat.lt_succ_of_lt hlt
  · exact Nat.lt_succ_self _

/-- The text that a quoted literal stands for. -/
def unquote? : List Char → Option (List Char)
  | [] => none
  | delim :: s => if delim = '\'' ∨ delim = '"' then readBody? delim s else none

/-- A text that a delimiter ends no earlier than at its end: no delimiter outside an escape, and no
backslash that would escape what comes after. -/
inductive Body (delim : Char) : List Char → Prop where
  | nil : Body delim []
  | plain {c : Char} {s : List Char} : c ≠ delim → c ≠ '\\' → Body delim s → Body delim (c :: s)
  | escape {c : Char} {s : List Char} : Body delim s → Body delim ('\\' :: c :: s)

variable {delim c : Char} {s t rest : List Char} {asciiOnly : Bool}

theorem Body.append (hs : Body delim s) (ht : Body delim t) : Body delim (s ++ t) := by
  induction hs with
  | nil => exact ht
  | plain hdelim hback _ ih => exact .plain hdelim hback ih
  | escape _ ih => exact .escape ih

theorem body_of_forall (hs : ∀ c ∈ s, c ≠ delim ∧ c ≠ '\\') : Body delim s := by
  induction s with
  | nil => exact .nil
  | cons c s ih =>
      have hc := hs c List.mem_cons_self
      have hrest := ih fun d hd => hs d (List.mem_cons_of_mem c hd)
      exact .plain hc.1 hc.2 hrest

theorem readBody?_plain (hdelim : c ≠ delim) (hback : c ≠ '\\') (s : List Char) :
    readBody? delim (c :: s) = (readBody? delim s).map (c :: ·) := by
  rw [readBody?, if_neg hdelim, if_neg hback]

theorem readBody?_escape (hdelim : delim ≠ '\\') (h : takeEscape? s = some (c, rest)) :
    readBody? delim ('\\' :: s) = (readBody? delim rest).map (c :: ·) := by
  rw [readBody?, if_neg hdelim.symm, if_pos rfl]
  split
  · next hnone => cases hnone.symm.trans h
  · next hsome =>
    cases hsome.symm.trans h
    rfl

theorem readBody?_end (delim : Char) : readBody? delim [delim] = some [] := by
  rw [readBody?, if_pos rfl, if_pos rfl]

/-! ## Hexadecimal digits -/

theorem isGraphicAscii_iff : isGraphicAscii c = true ↔ ' ' ≤ c ∧ c ≤ '~' := by
  simp only [isGraphicAscii, inRanges, List.any_cons, List.any_nil, Bool.or_false,
    CodeRange.contains, Bool.and_eq_true, decide_eq_true_eq]
  exact Iff.rfl

theorem isPrintable_of_isGraphicAscii (hc : isGraphicAscii c = true) : isPrintable c = true := by
  rw [isPrintable, hc, Bool.true_or]

theorem mem_hexText {width n : Nat} {d : Char} (hd : d ∈ hexText width n) :
    ∃ k < 16, d = Numeral.digitChar k := by
  rcases List.mem_append.mp hd with hzero | hdigit
  · exact ⟨0, by decide, List.eq_of_mem_replicate hzero⟩
  · rcases List.mem_map.mp hdigit with ⟨k, hk, rfl⟩
    exact ⟨k, Numeral.lt_of_mem_digits (by decide) hk, rfl⟩

/-- The digits of an escape are as many as its letter says. -/
theorem length_hexText {width n : Nat} (hwidth : 0 < width) (hn : n < 16 ^ width) :
    (hexText width n).length = width :=
  Numeral.length_zeroPad_text (by decide) hwidth hn

theorem charOfHex?_hexText (width : Nat) (c : Char) :
    charOfHex? (hexText width c.toNat) = some c := by
  have hread : Numeral.readIn? 16 (hexText width c.toNat) = some c.toNat :=
    Numeral.readIn?_zeros_append Numeral.spells_digitChar rfl (by decide) (by decide) _ _
  have hvalid : c.toNat.isValidChar := c.valid
  rw [charOfHex?, hread, Option.bind_some, dif_pos hvalid]
  rfl

theorem takeEscape?_hexText {e : Char} {width : Nat} (he : hexDigitsAfter? e = some width)
    (hwidth : 0 < width) (hc : c.toNat < 16 ^ width) (rest : List Char) :
    takeEscape? (e :: (hexText width c.toNat ++ rest)) = some (c, rest) := by
  have hlength := length_hexText hwidth hc
  have hroom : width ≤ (hexText width c.toNat ++ rest).length := by
    rw [List.length_append, hlength]
    exact Nat.le_add_right _ _
  have htake : (hexText width c.toNat ++ rest).take width = hexText width c.toNat :=
    List.take_left' hlength
  have hdrop : (hexText width c.toNat ++ rest).drop width = rest := List.drop_left' hlength
  simp only [takeEscape?, he, if_pos hroom, htake, hdrop, charOfHex?_hexText, Option.map_some]

/-! ## The text of a character -/

/-- A part of a body that shows a character: it is read as that character, whatever follows it. -/
structure ShownAs (delim : Char) (asciiOnly : Bool) (c : Char) (text : List Char) : Prop where
  body : Body delim text
  printable : ∀ d ∈ text, isPrintable d = true
  ascii : asciiOnly = true → ∀ d ∈ text, isGraphicAscii d = true
  reads : ∀ rest, readBody? delim (text ++ rest) = (readBody? delim rest).map (c :: ·)

theorem shownAs_plain (hdelim : c ≠ delim) (hback : c ≠ '\\')
    (hc : (isGraphicAscii c || (!asciiOnly && isPrintable c)) = true) :
    ShownAs delim asciiOnly c [c] := by
  refine ⟨.plain hdelim hback .nil, ?_, ?_, readBody?_plain hdelim hback⟩
  · rw [List.forall_mem_singleton]
    rcases Bool.or_eq_true_iff.mp hc with hgraphic | hshown
    · exact isPrintable_of_isGraphicAscii hgraphic
    · exact (Bool.and_eq_true_iff.mp hshown).2
  · rintro rfl
    rw [List.forall_mem_singleton]
    simpa using hc

theorem shownAs_escape {e : Char} {digits : List Char} (hdelim : delim ≠ '\\')
    (hgraphic : ∀ d ∈ e :: digits, isGraphicAscii d = true)
    (hdigits : ∀ d ∈ digits, d ≠ delim ∧ d ≠ '\\')
    (hread : ∀ rest, takeEscape? (e :: (digits ++ rest)) = some (c, rest)) :
    ShownAs delim asciiOnly c ('\\' :: e :: digits) := by
  have hall : ∀ d ∈ '\\' :: e :: digits, isGraphicAscii d = true :=
    List.forall_mem_cons.mpr ⟨by decide, hgraphic⟩
  refine ⟨.escape (body_of_forall hdigits), ?_, fun _ => hall, ?_⟩
  · intro d hd
    exact isPrintable_of_isGraphicAscii (hall d hd)
  · intro rest
    exact readBody?_escape hdelim (hread rest)

theorem shownAs_shortEscape {e : Char} (hdelim : delim ≠ '\\') (he : isGraphicAscii e = true)
    (hread : ∀ rest, takeEscape? (e :: rest) = some (c, rest)) :
    ShownAs delim asciiOnly c ['\\', e] :=
  shownAs_escape hdelim (List.forall_mem_singleton.mpr he) (List.forall_mem_nil _) hread

theorem shownAs_hexText (hdelim : delim = '\'' ∨ delim = '"') {e : Char} {width : Nat}
    (hgraphic : isGraphicAscii e = true) (he : hexDigitsAfter? e = some width) (hwidth : 0 < width)
    (hc : c.toNat < 16 ^ width) :
    ShownAs delim asciiOnly c ('\\' :: e :: hexText width c.toNat) := by
  have hdigit : ∀ k < 16, isGraphicAscii (Numeral.digitChar k) = true ∧
      Numeral.digitChar k ≠ '\'' ∧ Numeral.digitChar k ≠ '"' ∧ Numeral.digitChar k ≠ '\\' := by
    decide
  have hback : delim ≠ '\\' := by
    rcases hdelim with rfl | rfl <;> decide
  apply shownAs_escape hback
  · refine List.forall_mem_cons.mpr ⟨hgraphic, ?_⟩
    intro d hd
    rcases mem_hexText hd with ⟨k, hk, rfl⟩
    exact (hdigit k hk).1
  · intro d hd
    rcases mem_hexText hd with ⟨k, hk, rfl⟩
    rcases hdelim with rfl | rfl
    · exact ⟨(hdigit k hk).2.1, (hdigit k hk).2.2.2⟩
    · exact ⟨(hdigit k hk).2.2.1, (hdigit k hk).2.2.2⟩
  · exact takeEscape?_hexText he hwidth hc

theorem shownAs_numericEscape (hdelim : delim = '\'' ∨ delim = '"') (asciiOnly : Bool) (c : Char) :
    ShownAs delim asciiOnly c (numericEscape c) := by
  have hcode : c.toNat < 16 ^ 8 := by
    have hvalid : c.toNat.isValidChar := c.valid
    unfold Nat.isValidChar at hvalid
    omega
  unfold numericEscape
  dsimp only
  split
  · exact shownAs_hexText hdelim (by decide) rfl (by decide) (by omega)
  · split
    · exact shownAs_hexText hdelim (by decide) rfl (by decide) (by omega)
    · exact shownAs_hexText hdelim (by decide) rfl (by decide) hcode

theorem shownAs_quoteChar (hdelim : delim = '\'' ∨ delim = '"') (asciiOnly : Bool) (c : Char) :
    ShownAs delim asciiOnly c (quoteChar delim asciiOnly c) := by
  have hback : delim ≠ '\\' := by
    rcases hdelim with rfl | rfl <;> decide
  unfold quoteChar
  split_ifs with hslash htab hfeed hreturn hend hshown
  · subst hslash
    exact shownAs_shortEscape hback (by decide) fun _ => rfl
  · subst htab
    exact shownAs_shortEscape hback (by decide) fun _ => rfl
  · subst hfeed
    exact shownAs_shortEscape hback (by decide) fun _ => rfl
  · subst hreturn
    exact shownAs_shortEscape hback (by decide) fun _ => rfl
  · subst hend
    rcases hdelim with rfl | rfl
    · exact shownAs_shortEscape hback (by decide) fun _ => rfl
    · exact shownAs_shortEscape hback (by decide) fun _ => rfl
  · exact shownAs_plain hend hslash hshown
  · exact shownAs_numericEscape hdelim asciiOnly c

/-! ## Quotations -/

theorem delimiter_eq (s : List Char) : delimiter s = '\'' ∨ delimiter s = '"' := by
  unfold delimiter
  split
  · exact Or.inr rfl
  · exact Or.inl rfl

theorem delimiter_eq_double_iff : delimiter s = '"' ↔ '\'' ∈ s ∧ '"' ∉ s := by
  unfold delimiter
  split
  · next h => simpa using h
  · next h => simpa using h

theorem body_flatMap (hdelim : delim = '\'' ∨ delim = '"') (asciiOnly : Bool) (s : List Char) :
    Body delim (s.flatMap (quoteChar delim asciiOnly)) := by
  induction s with
  | nil => exact .nil
  | cons c s ih => exact (shownAs_quoteChar hdelim asciiOnly c).body.append ih

theorem readBody?_flatMap (hdelim : delim = '\'' ∨ delim = '"') (asciiOnly : Bool) (s : List Char) :
    readBody? delim (s.flatMap (quoteChar delim asciiOnly) ++ [delim]) = some s := by
  induction s with
  | nil => exact readBody?_end delim
  | cons c s ih =>
      have hshown := shownAs_quoteChar hdelim asciiOnly c
      calc
        readBody? delim ((c :: s).flatMap (quoteChar delim asciiOnly) ++ [delim]) =
            (readBody? delim (s.flatMap (quoteChar delim asciiOnly) ++ [delim])).map (c :: ·) := by
          rw [List.flatMap_cons, List.append_assoc, hshown.reads]
        _ = some (c :: s) := by rw [ih, Option.map_some]

/-- A class of characters that every quoted character and both delimiters are in holds the whole
quotation. -/
theorem forall_mem_quoteChars {p : Char → Prop} (hdelim : ∀ d, d = '\'' ∨ d = '"' → p d)
    (hchar : ∀ c, ∀ d ∈ quoteChar (delimiter s) asciiOnly c, p d) :
    ∀ d ∈ quoteChars asciiOnly s, p d := by
  have hend : p (delimiter s) := hdelim _ (delimiter_eq s)
  refine List.forall_mem_cons.mpr ⟨hend, ?_⟩
  intro d hd
  rcases List.mem_append.mp hd with hbody | hlast
  · rcases List.mem_flatMap.mp hbody with ⟨c, _, hc⟩
    exact hchar c d hc
  · exact List.mem_singleton.mp hlast ▸ hend

/-- A faithful quotation of a text. -/
structure Quotation (asciiOnly : Bool) (s text : List Char) : Prop where
  enclosed : ∃ delim body, text = delim :: (body ++ [delim]) ∧ (delim = '\'' ∨ delim = '"') ∧
    (delim = '"' ↔ '\'' ∈ s ∧ '"' ∉ s) ∧ Body delim body
  printable : ∀ c ∈ text, isPrintable c = true
  ascii : asciiOnly = true → ∀ c ∈ text, ' ' ≤ c ∧ c ≤ '~'
  reads : unquote? text = some s

theorem quotation_quoteChars (asciiOnly : Bool) (s : List Char) :
    Quotation asciiOnly s (quoteChars asciiOnly s) := by
  have hdelim := delimiter_eq s
  have hshown := shownAs_quoteChar hdelim asciiOnly
  constructor
  case enclosed =>
    exact ⟨_, _, rfl, hdelim, delimiter_eq_double_iff, body_flatMap hdelim asciiOnly s⟩
  case printable =>
    refine forall_mem_quoteChars ?_ fun c => (hshown c).printable
    rintro d (rfl | rfl) <;> decide
  case ascii =>
    intro hascii c hc
    apply isGraphicAscii_iff.mp
    refine forall_mem_quoteChars ?_ (fun c => (hshown c).ascii hascii) c hc
    rintro d (rfl | rfl) <;> decide
  case reads =>
    rw [quoteChars, unquote?, if_pos hdelim]
    exact readBody?_flatMap hdelim asciiOnly s

/-- Every text is quoted faithfully, and no two texts have the same quotation, be it one of ASCII
alone or not. -/
theorem quotation_quote :
    (∀ (asciiOnly : Bool) (s : String), Quotation asciiOnly s.toList (quote asciiOnly s).toList) ∧
      ∀ (asciiOnly asciiOnly' : Bool) (s t : String),
        quote asciiOnly s = quote asciiOnly' t → s = t := by
  have hquotation : ∀ (asciiOnly : Bool) (s : String),
      Quotation asciiOnly s.toList (quote asciiOnly s).toList := by
    intro asciiOnly s
    rw [quote, String.toList_ofList]
    exact quotation_quoteChars asciiOnly s.toList
  refine ⟨hquotation, ?_⟩
  intro asciiOnly asciiOnly' s t heq
  have hs := (hquotation asciiOnly s).reads
  have ht := (hquotation asciiOnly' t).reads
  rw [heq] at hs
  exact String.toList_inj.mp (Option.some.inj (hs.symm.trans ht))

/-- A text with a single quote, a character that is not shown and a line feed. -/
theorem quotation_quote_zeroWidth :
    quote true "it's\u200b\n" = "\"it's\\u200b\\n\"" ∧
      Quotation true "it's\u200b\n".toList (quote true "it's\u200b\n").toList ∧
      quote true "it's\u200b\n" = quote false "it's\u200b\n" ∧
      "it's\u200b\n" = "it's\u200b\n" :=
  have hsame : quote true "it's\u200b\n" = quote false "it's\u200b\n" := by decide +kernel
  ⟨by decide +kernel, quotation_quote.1 true _, hsame, quotation_quote.2 true false _ _ hsame⟩

end Text
end FormatCheck
