import FormatCheck.Proofs.Template.Cursor

/-!
# A scan tiles its template

The cursor takes what the scanner of characters takes, and stops at the position before the
characters that are left (`At.agrees_takeAt`). A scan to its end is therefore a run of segments each
of which starts where the one before it stopped and stands for all the text in between (`Tiles`),
with at most one defect after them.
-/

namespace FormatCheck
namespace Template
namespace Cursor

open Text (utf8)

variable {text : String} {pos : Nat} {s front rest : List Char}

/-! ## Positions -/

/-- A byte position before the characters that are left of a text. -/
structure At (text : String) (pos : Nat) (rest : List Char) : Prop where
  suffix : rest <:+ text.toList
  length_eq : pos + String.utf8Len rest = text.utf8ByteSize

theorem at_start (text : String) : At text 0 text.toList where
  suffix := List.suffix_rfl
  length_eq := by rw [String.utf8Len_toList, Nat.zero_add]

theorem At.advance (h : At text pos (front ++ rest)) :
    At text (pos + String.utf8Len front) rest where
  suffix := (List.suffix_append front rest).trans h.suffix
  length_eq := calc
    pos + String.utf8Len front + String.utf8Len rest = pos + String.utf8Len (front ++ rest) := by
      rw [String.utf8Len_append, Nat.add_assoc]
    _ = text.utf8ByteSize := h.length_eq

theorem At.tail {c : Char} (h : At text pos (c :: rest)) : At text (pos + c.utf8Size) rest := by
  have hrest := At.advance (show At text pos ([c] ++ rest) from h)
  rwa [String.utf8Len_cons, String.utf8Len_nil, Nat.zero_add] at hrest

theorem At.exists_before (h : At text pos rest) :
    ∃ before, text = String.ofList (before ++ rest) ∧ pos = String.utf8Len before := by
  rcases h.suffix with ⟨before, htext⟩
  refine ⟨before, by rw [htext, String.ofList_toList], ?_⟩
  apply Nat.add_right_cancel
  calc
    pos + String.utf8Len rest = String.utf8Len text.toList := by
      rw [h.length_eq, String.utf8Len_toList]
    _ = String.utf8Len before + String.utf8Len rest := by rw [← htext, String.utf8Len_append]

theorem At.le_iff (h : At text pos rest) : text.utf8ByteSize ≤ pos ↔ rest = [] := by
  rw [← h.length_eq, ← String.utf8Len_eq_zero]
  omega

theorem At.drop_utf8 (h : At text pos rest) : (utf8 text).drop pos = encode rest := by
  rcases h.exists_before with ⟨before, rfl, rfl⟩
  rw [utf8_eq_encode, String.toList_ofList, encode_append]
  exact List.drop_left' (length_encode before)

theorem At.getElem?_utf8 (h : At text pos rest) : (utf8 text)[pos]? = (encode rest).head? := by
  rw [← h.drop_utf8, List.head?_drop]

/-- The character at a position is a mark just if the byte there is. -/
theorem At.getElem?_utf8_eq_iff {m : Char} (h : At text pos rest) (hm : m.toNat < 128) :
    (utf8 text)[pos]? = some m.toUInt8 ↔ rest.head? = some m := by
  rw [h.getElem?_utf8]
  cases rest with
  | nil => simp [encode]
  | cons c rest =>
      rcases exists_head?_encode c rest with ⟨b, hb, hhead⟩
      rw [hhead, List.head?_cons, Option.some_inj, Option.some_inj, eq_toUInt8_iff hm hb]

theorem At.isValid (h : At text pos rest) : (⟨pos⟩ : String.Pos.Raw).IsValid text := by
  rcases h.exists_before with ⟨before, rfl, rfl⟩
  rw [String.Pos.Raw.isValid_iff_exists_append]
  exact ⟨String.ofList before, String.ofList rest, String.ofList_append,
    (String.rawEndPos_ofList before).symm⟩

/-- The text between two positions. -/
theorem At.slice_eq (h : At text pos (front ++ rest)) :
    slice text pos (pos + String.utf8Len front) = .ok (String.ofList front) := by
  rw [slice, if_pos ⟨Nat.le_add_right _ _, h.isValid, h.advance.isValid⟩]
  rcases h.exists_before with ⟨before, rfl, rfl⟩
  rw [← List.append_assoc, String.extract_of_valid]

theorem At.slice_end (h : At text pos rest) :
    slice text pos text.utf8ByteSize = .ok (String.ofList rest) := by
  have hall : At text pos (rest ++ []) := by rwa [List.append_nil]
  rw [← h.length_eq]
  exact hall.slice_eq

/-! ## What the cursor takes -/

/-- A cursor does as the scanner of characters does: it finds the same defect, or takes the same and
stops at the position before what is left. -/
inductive Agrees {α : Type} (text : String) :
    Except FormatError (α × List Char) → Except Fault (α × Nat) → Prop where
  | defect (e : FormatError) : Agrees text (.error e) (.error (.defect e))
  | taken {a : α} {rest : List Char} {pos : Nat} :
      At text pos rest → Agrees text (.ok (a, rest)) (.ok (a, pos))

variable {name plain : List Char} {conversion : Option Char}

theorem At.agrees_takeSpecAt (h : At text pos s) :
    Agrees text (takeFieldSpec name conversion s)
      (takeSpecAt text (String.ofList name) conversion pos) := by
  unfold takeSpecAt takeFieldSpec
  rw [h.drop_utf8, pastSpec_encode]
  cases hspec : takeSpec 1 s with
  | error e => exact .defect e
  | ok taken =>
      rcases taken with ⟨spec, rest⟩
      rcases closes_of_takeSpec hspec with ⟨rfl, _⟩
      -- The position is behind the brace that ends the specifier.
      have hrest : At text (pos + String.utf8Len spec + 1) rest := h.advance.tail
      simp only [specEnd, bind, Except.bind, Nat.add_sub_cancel, h.slice_eq, Bool.false_or]
      exact .taken hrest

theorem At.agrees_takeConversionAt (h : At text pos s) :
    Agrees text (takeConversion name s) (takeConversionAt text (String.ofList name) pos) := by
  unfold takeConversionAt
  simp only [h.slice_end, bind, Except.bind, String.toList_ofList]
  cases s with
  | nil => exact .defect _
  | cons c s =>
      have hafter := h.tail
      cases s with
      | nil =>
          -- The end of the text ends the specifier that is looked for.
          simp only [List.head?_cons, hafter.getElem?_utf8]
          exact hafter.agrees_takeSpecAt
      | cons d s =>
          rcases exists_head?_encode d s with ⟨b, hb, hhead⟩
          simp only [List.head?_cons, hafter.getElem?_utf8, hhead,
            eq_toUInt8_iff (m := '}') (by decide) hb, eq_toUInt8_iff (m := ':') (by decide) hb,
            ne_eq]
          by_cases hclose : d = '}'
          · subst hclose
            exact .taken hafter.tail
          · by_cases hcolon : d = ':'
            · subst hcolon
              exact hafter.tail.agrees_takeSpecAt
            · have hdefect : takeConversion name (c :: d :: s) =
                  .error .expectedColonAfterConversion := by
                simp [takeConversion]
              rw [if_neg hclose, if_pos hcolon, hdefect]
              exact .defect _

theorem At.agrees_takeFieldAt (h : At text pos s) :
    Agrees text (takeField s) (takeFieldAt text pos) := by
  unfold takeFieldAt takeField
  rw [h.drop_utf8, (pastName_encode pos s).1]
  cases hname : takeName false s with
  | error e => exact .defect e
  | ok e =>
      rcases e with ⟨name, stop, rest⟩
      rcases append_of_takeName hname with ⟨rfl, hstop⟩
      simp only [nameEnd, bind, Except.bind, Nat.add_sub_cancel, h.slice_eq]
      rcases hstop with rfl | rfl | rfl
      · exact .taken h.advance.tail
      · exact h.advance.tail.agrees_takeSpecAt
      · exact h.advance.tail.agrees_takeConversionAt

theorem Agrees.segment {x : Except FormatError (Field × List Char)} {y : Except Fault (Field × Nat)}
    (h : Agrees text x y) :
    Agrees text (x.map fun (field, rest) => (Segment.field field, rest))
      (y.map fun (field, pos) => (Segment.field field, pos)) := by
  cases h with
  | defect e => exact .defect e
  | taken hrest => exact .taken hrest

theorem toNat_lt_of_brace {c : Char} (hbrace : c = '{' ∨ c = '}') : c.toNat < 128 := by
  rcases hbrace with rfl | rfl <;> decide

/-- A doubled brace goes to the literal before it. -/
theorem At.agrees_doubled {c : Char} (hbrace : c = '{' ∨ c = '}')
    (h : At text pos (plain ++ c :: c :: rest)) :
    Agrees text (segmentAt plain (c :: c :: rest))
      (takeBraceAt text pos (pos + String.utf8Len plain) c.toUInt8) := by
  have hascii := toNat_lt_of_brace hbrace
  have hsize : c.utf8Size = 1 := Text.utf8Size_eq_one_iff.mpr hascii
  have hfront : At text pos ((plain ++ [c]) ++ c :: rest) := by
    simpa using h
  have hlength : pos + String.utf8Len (plain ++ [c]) = pos + String.utf8Len plain + 1 := by
    simp [hsize, Nat.add_assoc]
  have hslice : slice text pos (pos + String.utf8Len plain + 1) =
      .ok (String.ofList (plain ++ [c])) := hlength ▸ hfront.slice_eq
  have hafter : At text (pos + String.utf8Len plain + 1) (c :: rest) := hlength ▸ hfront.advance
  have hrest : At text (pos + String.utf8Len plain + 1 + 1) rest := hsize ▸ hafter.tail
  have hsegment : segmentAt plain (c :: c :: rest) =
      .ok (.literal (String.ofList (plain ++ [c])), rest) := by
    rcases hbrace with rfl | rfl <;> rfl
  simp only [takeBraceAt, hafter.getElem?_utf8_eq_iff hascii, hafter.le_iff, List.head?_cons,
    not_true_eq_false, and_false, if_false, List.cons_ne_nil, if_true, hslice, hsegment]
  exact .taken hrest

/-- A brace that is not doubled opens a field, or is a defect. -/
theorem At.agrees_single {c : Char} (hbrace : c = '{' ∨ c = '}')
    (h : At text pos (plain ++ c :: rest)) (hsingle : rest.head? ≠ some c) :
    Agrees text (segmentAt plain (c :: rest))
      (takeBraceAt text pos (pos + String.utf8Len plain) c.toUInt8) := by
  have hascii := toNat_lt_of_brace hbrace
  have hsize : c.utf8Size = 1 := Text.utf8Size_eq_one_iff.mpr hascii
  have hafter : At text (pos + String.utf8Len plain + 1) rest := hsize ▸ h.advance.tail
  simp only [takeBraceAt, hafter.getElem?_utf8_eq_iff hascii, hafter.le_iff, h.slice_eq, hsingle,
    not_false_eq_true, and_true, if_false]
  rcases hbrace with rfl | rfl
  · cases rest with
    | nil => exact .defect _
    | cons d rest =>
        have hd : d ≠ '{' := by simpa using hsingle
        have hopen : '{'.toUInt8 ≠ '}'.toUInt8 := by decide
        rw [segmentAt_field hd]
        by_cases hempty : plain = []
        · subst hempty
          exact hafter.agrees_takeFieldAt.segment
        · have hliteral : String.ofList plain ≠ "" := by simpa using hempty
          simp only [hopen, hempty, hliteral, if_false, List.cons_ne_nil, and_false, bind,
            Except.bind, ne_eq, not_false_eq_true, if_true]
          exact .taken h.advance
  · have hsegment : segmentAt plain ('}' :: rest) = .error (.unbalancedBrace '}') := by
      cases rest with
      | nil => rfl
      | cons d rest =>
          have hd : d ≠ '}' := by simpa using hsingle
          simp [segmentAt, hd]
    rw [hsegment]
    exact .defect _

theorem upTo_braces (pos : Nat) (s : List Char) :
    upTo ['{', '}'] pos (encode s) =
      (pos + String.utf8Len (plainStart s), encode (braceStart s)) := by
  have hmarks : (fun c => decide (c ∉ ['{', '}'])) = fun c => !isBrace c := by
    funext c
    simp [isBrace]
  rw [upTo_encode rfl, hmarks]
  rfl

theorem At.agrees_takeAt (h : At text pos s) : Agrees text (nextSegment s) (takeAt text pos) := by
  have hsplit : plainStart s ++ braceStart s = s := plainStart_append_braceStart s
  have hstops : Text.Stops (fun c => !isBrace c) (braceStart s) := Text.stops_dropWhile _ s
  rw [nextSegment_eq, takeAt, h.drop_utf8, upTo_braces]
  generalize plainStart s = plain at hsplit ⊢
  generalize braceStart s = after at hsplit hstops ⊢
  subst hsplit
  -- The loop has stopped at the end of the text or at a brace.
  cases after with
  | nil =>
      have hend := h.advance
      rw [List.append_nil] at h
      simp only [encode, List.flatMap_nil, h.slice_end]
      exact .taken hend
  | cons c after =>
      have hbrace : c = '{' ∨ c = '}' := by
        simpa [isBrace, or_iff_not_imp_left] using hstops c rfl
      rw [encode_cons_ascii (toNat_lt_of_brace hbrace)]
      by_cases hdoubled : after.head? = some c
      · rcases List.head?_eq_some_iff.mp hdoubled with ⟨rest, rfl⟩
        exact h.agrees_doubled hbrace
      · exact h.agrees_single hbrace hdoubled

/-! ## Draining -/

/-- A segment and the byte positions that its source is between. -/
structure Tile where
  segment : Segment
  start : Nat
  stop : Nat

/-- Items taken from a cursor one after another until there is none, and the cursor after them. -/
inductive Drains : Cursor → List (Except FormatError Tile) → Cursor → Prop where
  | done {c last : Cursor} : c.next = some (none, last) → Drains c [] last
  | more {c c' last : Cursor} {item : Except FormatError Segment}
      {items : List (Except FormatError Tile)} :
      c.next = some (some item, c') → Drains c' items last →
      Drains c (item.map (fun segment => ⟨segment, c.pos, c'.pos⟩) :: items) last

/-- Tiles from one position to another, each adjacent to the next and cut out of the text as its
segment is written there. -/
inductive Tiles (text : String) : Nat → List Tile → Nat → Prop where
  | nil (pos : Nat) : Tiles text pos [] pos
  | cons {segment : Segment} {start stop last : Nat} {source : List Char} {tiles : List Tile} :
      slice text start stop = .ok (String.ofList source) → SourceOf segment source →
      Tiles text stop tiles last → Tiles text start (⟨segment, start, stop⟩ :: tiles) last

theorem next_of_failed (text : String) (pos : Nat) :
    next ⟨text, pos, true⟩ = some (none, ⟨text, pos, true⟩) := if_pos (Or.inl rfl)

theorem At.next_of_nil (h : At text pos []) :
    next ⟨text, pos, false⟩ = some (none, ⟨text, pos, false⟩) := if_pos (Or.inr (h.le_iff.mpr rfl))

theorem At.next_of_ne_nil (h : At text pos s) (hs : s ≠ []) :
    next ⟨text, pos, false⟩ =
      match takeAt text pos with
      | .ok (segment, pos) => some (some (.ok segment), ⟨text, pos, false⟩)
      | .error (.defect e) => some (some (.error e), ⟨text, pos, true⟩)
      | .error .slice => none := by
  refine if_neg ?_
  simpa [h.le_iff] using hs

theorem At.next_of_error (h : At text pos s) (hs : s ≠ []) {e : FormatError}
    (hnext : nextSegment s = .error e) :
    next ⟨text, pos, false⟩ = some (some (.error e), ⟨text, pos, true⟩) := by
  have hagrees := h.agrees_takeAt
  rw [hnext] at hagrees
  rw [h.next_of_ne_nil hs]
  generalize takeAt text pos = taken at hagrees ⊢
  cases hagrees
  rfl

/-- A step takes a segment with its whole source, and is left at the position before the rest. -/
theorem At.next_of_ok (h : At text pos s) (hs : s ≠ []) {segment : Segment}
    (hnext : nextSegment s = .ok (segment, rest)) :
    ∃ stop, next ⟨text, pos, false⟩ = some (some (.ok segment), ⟨text, stop, false⟩) ∧
      At text stop rest ∧
      ∃ source, slice text pos stop = .ok (String.ofList source) ∧ SourceOf segment source := by
  rcases exists_source_of_nextSegment hs hnext with ⟨source, rfl, hsource⟩
  have hagrees := h.agrees_takeAt
  rw [hnext] at hagrees
  rw [h.next_of_ne_nil hs]
  generalize takeAt text pos = taken at hagrees ⊢
  cases hagrees with
  | @taken _ _ stop hrest =>
      -- Before the same rest there is only one position.
      have hstop : stop = pos + String.utf8Len source := by
        have hlength := h.advance.length_eq
        have hlength' := hrest.length_eq
        omega
      refine ⟨stop, rfl, hrest, source, ?_, hsource⟩
      rw [hstop]
      exact h.slice_eq

/-- A cursor is drained in one way only. -/
theorem Drains.unique {c last last' : Cursor} {items items' : List (Except FormatError Tile)}
    (h : Drains c items last) (h' : Drains c items' last') : items' = items ∧ last' = last := by
  induction h generalizing items' with
  | done hnone =>
      cases h' with
      | done hnone' =>
          cases hnone.symm.trans hnone'
          exact ⟨rfl, rfl⟩
      | more hsome _ => cases hnone.symm.trans hsome
  | more hsome _ ih =>
      cases h' with
      | done hnone => cases hnone.symm.trans hsome
      | more hsome' hrest =>
          cases hsome.symm.trans hsome'
          rcases ih hrest with ⟨rfl, rfl⟩
          exact ⟨rfl, rfl⟩

/-- From a position on, the cursor drains to what the scanner of characters yields. -/
theorem At.exists_drains (h : At text pos s) :
    ∃ tiles stop last,
      Drains ⟨text, pos, false⟩ (tiles.map .ok ++ (scanAll s).2.toList.map .error) last ∧
      last.next = some (none, last) ∧ Tiles text pos tiles stop ∧
      tiles.map Tile.segment = (scanAll s).1 ∧
      ((scanAll s).2 = none → stop = text.utf8ByteSize) := by
  induction hlength : s.length using Nat.strongRecOn generalizing s pos with
  | _ n ih =>
      by_cases hs : s = []
      · -- At the end there is nothing more to take.
        subst hs
        have hlast := h.next_of_nil
        refine ⟨[], pos, _, .done hlast, hlast, .nil pos, rfl, fun _ => ?_⟩
        simpa using h.length_eq
      · cases hnext : nextSegment s with
        | error e =>
            have hlast := next_of_failed text pos
            rw [scanAll_of_error hs hnext]
            exact ⟨[], pos, _, .more (h.next_of_error hs hnext) (.done hlast), hlast, .nil pos, rfl,
              nofun⟩
        | ok taken =>
            rcases taken with ⟨segment, rest⟩
            rcases h.next_of_ok hs hnext with ⟨stop, hstep, hrest, source, hslice, hsource⟩
            -- The source of the segment is not empty, so fewer characters are left.
            have hlt : rest.length < n := hlength ▸ length_lt_of_nextSegment hs hnext
            rcases ih _ hlt hrest rfl with
              ⟨tiles, stop', last, hdrains, hlast, htiles, hmap, hcover⟩
            rw [scanAll_of_ok hs hnext]
            exact ⟨⟨segment, pos, stop⟩ :: tiles, stop', last, .more hstep hdrains, hlast,
              .cons hslice hsource htiles, congrArg (segment :: ·) hmap, hcover⟩

/-- Every template is scanned to an end by byte position:

1. the items are the segments that the scanner of characters yields and the defect that ends its
   scan, if there is one, and no item comes after them;
2. the segments tile the template from its start on, each written out between its two positions;
3. without a defect they cover the template. -/
theorem drains_tiles (template : String) :
    ∃ tiles stop last,
      (∀ items last', Drains (start template) items last' ↔
        items = tiles.map .ok ++ (scan template).2.toList.map .error ∧ last' = last) ∧
      last.next = some (none, last) ∧ Tiles template 0 tiles stop ∧
      tiles.map Tile.segment = (scan template).1 ∧
      ((scan template).2 = none → stop = template.utf8ByteSize) := by
  have hscan : scan template = scanAll template.toList := by
    rw [← scan_ofList, String.ofList_toList]
  rcases (at_start template).exists_drains with
    ⟨tiles, stop, last, hdrains, hlast, htiles, hmap, hcover⟩
  rw [hscan]
  refine ⟨tiles, stop, last, ?_, hlast, htiles, hmap, hcover⟩
  intro items last'
  constructor
  · exact hdrains.unique
  · rintro ⟨rfl, rfl⟩
    exact hdrains

/-- A conversion of two bytes, between a doubled brace and a nested field. -/
theorem drains_tiles_multibyte :
    let template := "é\x7d\x7d\x7b0!é:\x7bx\x7d\x7d"
    let segments := [.literal "é\x7d", .field ⟨"0", some 'é', "\x7bx\x7d", true⟩]
    scan template = (segments, none) ∧
      ∃ tiles last, Drains (start template) (tiles.map .ok) last ∧
        last.next = some (none, last) ∧ Tiles template 0 tiles 14 ∧
        tiles.map Tile.segment = segments := by
  intro template segments
  have hscan : scan template = (segments, none) := by decide +kernel
  refine ⟨hscan, ?_⟩
  rcases drains_tiles template with ⟨tiles, stop, last, hdrains, hlast, htiles, hmap, hcover⟩
  rw [hscan] at hdrains hmap hcover
  have hstop : stop = 14 := hcover rfl
  have hall : Drains (start template) (tiles.map .ok) last :=
    (hdrains _ _).mpr ⟨(List.append_nil _).symm, rfl⟩
  exact ⟨tiles, last, hall, hlast, hstop ▸ htiles, hmap⟩

end Cursor
end Template
end FormatCheck
