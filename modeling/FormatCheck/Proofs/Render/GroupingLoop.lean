import FormatCheck.Proofs.Counter
import FormatCheck.Proofs.Render.Grouping
import FormatCheck.Render
import Mathlib.Data.List.Basic

/-!
# Grouping as a loop

`insertGrouping` recurs on the digits given from the right. Here the same groups are written by a
loop that keeps two signed 64-bit counters, the digits left and the characters still asked for, and
that reads each group off the digits by its two positions.

A run of the loop is a chain of rounds: `Ends` has no case for a position out of range or for a
number that its counters cannot hold, nor for a loop that goes on forever. `ends_iff` says when the
loop ends all the same, and that it does so with the text of `insertGrouping` and no other. It does
not where the characters asked for are so far below zero that those written cannot be counted off
them, nor for a group so large that its size is a negative counter.
-/

namespace FormatCheck
namespace Render

open Counter

/-! ## Rounds -/

/-- What the loop keeps: the digits that are left, the characters still asked for, and the text so
far from its right end. -/
structure GroupingState where
  remaining : Int
  missing : Int
  written : List Char

/-- The digits from one position up to another, where these are positions in this order. -/
def slice? (digits : List Char) (start stop : Int) : Option (List Char) :=
  if 0 ≤ start ∧ start ≤ stop ∧ stop ≤ digits.length then
    some ((digits.take stop.toNat).drop start.toNat)
  else none

namespace GroupingState

/-- Before the first round all digits are left and nothing is written. -/
def start (digits : List Char) (minWidth : Int) : GroupingState :=
  ⟨digits.length, minWidth, []⟩

/-- Writes a group: the last digits that are left, then zeros where these are too few. -/
def writeGroup? (size : Int) (digits : List Char) (s : GroupingState) : Option GroupingState :=
  let length := min size (max (max s.remaining s.missing) 1)
  let zeros := max (length - s.remaining) 0
  let taken := max (min s.remaining length) 0
  if Fits (length - s.remaining) ∧ Fits (s.remaining - taken) ∧ Fits (s.missing - length) then
    (slice? digits (s.remaining - taken) s.remaining).map fun group =>
      { remaining := s.remaining - taken
        missing := s.missing - length
        written := s.written ++ (group.reverse ++ List.replicate zeros.toNat '0') }
  else none

/-- Whether all digits are written and no character is missing. -/
def Finished (s : GroupingState) : Prop := s.remaining ≤ 0 ∧ s.missing ≤ 0

/-- Writes the separator before a further group. -/
def separate (separator : Char) (s : GroupingState) : GroupingState :=
  { s with missing := s.missing - 1, written := s.written ++ [separator] }

/-- From this state the loop ends, with this text. -/
inductive Ends (separator : Char) (size : Int) (digits : List Char) :
    GroupingState → List Char → Prop where
  | last {s s' : GroupingState} :
      s.writeGroup? size digits = some s' → s'.Finished →
      Ends separator size digits s s'.written.reverse
  | more {s s' : GroupingState} {text : List Char} :
      s.writeGroup? size digits = some s' → ¬s'.Finished → Fits (s'.missing - 1) →
      Ends separator size digits (s'.separate separator) text →
      Ends separator size digits s text

variable {separator : Char} {digits : List Char}

/-- The loop ends with one text at most. -/
theorem Ends.unique {size : Int} {s : GroupingState} {text text' : List Char}
    (h : Ends separator size digits s text) (h' : Ends separator size digits s text') :
    text = text' := by
  induction h with
  | last hround hfinished =>
      cases h' with
      | last hround' _ =>
          cases hround.symm.trans hround'
          rfl
      | more hround' hmore' _ _ =>
          cases hround.symm.trans hround'
          exact absurd hfinished hmore'
  | more hround hmore _ _ ih =>
      cases h' with
      | last hround' hfinished' =>
          cases hround.symm.trans hround'
          exact absurd hfinished' hmore
      | more hround' _ _ hrest' =>
          cases hround.symm.trans hround'
          exact ih hrest'

/-! ## Negative sizes -/

/-- A group of negative size takes no digit. -/
theorem remaining_of_writeGroup? {size : Int} (hsize : size < 0) {s s' : GroupingState}
    (h : s.writeGroup? size digits = some s') : s'.remaining = s.remaining := by
  unfold writeGroup? at h
  simp only at h
  split at h
  · rcases Option.map_eq_some_iff.mp h with ⟨_, _, rfl⟩
    simp only
    omega
  · cases h

/-- While digits are left the loop does not end with groups of negative size. -/
theorem not_ends_of_size_neg {size : Int} (hsize : size < 0) {s : GroupingState}
    (hremaining : 0 < s.remaining) (text : List Char) :
    ¬Ends separator size digits s text := by
  intro h
  -- No round takes a digit, so every round leaves the loop where it was.
  induction h with
  | last hround hfinished =>
      rw [Finished, remaining_of_writeGroup? hsize hround] at hfinished
      omega
  | more hround _ _ _ ih =>
      apply ih
      simpa only [separate, remaining_of_writeGroup? hsize hround] using hremaining

/-! ## The digits that are left -/

/-- The last of the digits before a position are in range. -/
theorem slice?_of_prefix {rest : List Char} (hrest : rest.reverse <+: digits) (count : Nat) :
    slice? digits (rest.drop count).length rest.length = some (rest.take count).reverse := by
  rcases hrest with ⟨after, rfl⟩
  have hlength : (rest.reverse ++ after).length = rest.length + after.length := by simp
  have hdrop : (rest.drop count).length = rest.length - count := List.length_drop
  have hbefore : (rest.reverse ++ after).take rest.length = rest.reverse := by
    simp
  unfold slice?
  rw [if_pos (by omega), Int.toNat_natCast, Int.toNat_natCast, hbefore, hdrop, List.reverse_take]

/-- What is left of the digits after a group stays at their front. -/
theorem reverse_drop_isPrefix {rest : List Char} (hrest : rest.reverse <+: digits) (count : Nat) :
    (rest.drop count).reverse <+: digits := by
  rw [List.reverse_drop]
  exact (List.take_prefix _ _).trans hrest

variable {size : Nat}

/-- A round takes a group off the digits that are left, if the characters missing can be counted
down by it. -/
theorem writeGroup?_eq (hsize : 1 ≤ size) (hcount : digits.length < 2 ^ 63)
    {rest : List Char} (hrest : rest.reverse <+: digits) {minWidth : Int} (hmin : Fits minWidth)
    (written : List Char) {count : Nat}
    (hgroup : count = min (max size 1) (max rest.length (max minWidth 1).toNat)) :
    writeGroup? size digits ⟨rest.length, minWidth, written⟩ =
      if -2 ^ 63 ≤ minWidth - count then
        some ⟨(rest.drop count).length, minWidth - count,
          written ++ (rest.take count ++ List.replicate (count - rest.length) '0')⟩
      else none := by
  have hle : rest.length ≤ digits.length := by
    simpa using hrest.length_le
  have hlength : min (size : Int) (max (max (rest.length : Int) minWidth) 1) = count := by omega
  have hdrop : (rest.drop count).length = rest.length - count := List.length_drop
  have hleft : (rest.length : Int) - max (min (rest.length : Int) count) 0 =
      (rest.drop count).length := by omega
  have hzeros : (max ((count : Int) - rest.length) 0).toNat = count - rest.length := by omega
  have hfits : Fits (count - rest.length) ∧ Fits (rest.drop count).length ∧
      Fits (minWidth - count) ↔ -2 ^ 63 ≤ minWidth - count := by
    unfold Fits at *
    omega
  simp only [writeGroup?, hlength, hleft, hzeros, slice?_of_prefix hrest count, hfits,
    Option.map_some, List.reverse_reverse]

/-- The loop writes what is left of the digits as the recursion does, where its counters can hold
what is left of the width. -/
theorem ends_groupReversed (separator : Char) (hsize : 1 ≤ size) (hcount : digits.length < 2 ^ 63)
    {rest : List Char} (hrest : rest.reverse <+: digits) {minWidth : Int} (hmin : Fits minWidth)
    (written : List Char)
    (hroom : -2 ^ 63 ≤ minWidth - (groupReversed separator size rest minWidth).length) :
    Ends separator size digits ⟨rest.length, minWidth, written⟩
      (written ++ groupReversed separator size rest minWidth).reverse := by
  -- The recursion takes groups off `rest`, which stays the front of the digits in the loop.
  fun_induction groupReversed separator size rest minWidth generalizing written with
  | case1 rest minWidth count chunk missing hlast =>
      rw [length_group] at hroom
      have hgroup : count = min (max size 1) (max rest.length (max minWidth 1).toNat) := rfl
      have hround := writeGroup?_eq hsize hcount hrest hmin written hgroup
      rw [if_pos hroom] at hround
      apply Ends.last hround
      have hnone : (rest.drop count).length = 0 := by
        rw [List.length_drop]
        omega
      exact ⟨Int.le_of_eq (Int.natCast_eq_zero.mpr hnone), hlast.2⟩
  | case2 rest minWidth count chunk missing hmore ih =>
      -- What is still to be written bounds the counter from below, in this round and in the next.
      rw [List.length_append, List.length_cons, length_group] at hroom
      have hgroup : count = min (max size 1) (max rest.length (max minWidth 1).toNat) := rfl
      have hround := writeGroup?_eq hsize hcount hrest hmin written hgroup
      rw [if_pos (by omega)] at hround
      have hhigh := hmin.2
      have hnext : Fits (missing - 1) := ⟨by omega, by omega⟩
      have hends := ih (reverse_drop_isPrefix hrest count) hnext (written ++ chunk ++ [separator])
        (by omega)
      apply Ends.more hround
      · rintro ⟨hleft, hmissing⟩
        apply hmore
        have hnone : rest.length - count ≤ 0 := by simpa using hleft
        exact ⟨by omega, hmissing⟩
      · exact hnext
      · simpa [separate, chunk, missing] using hends

/-- A loop that ends has a first round. -/
theorem Ends.exists_round {size : Int} {s : GroupingState} {text : List Char}
    (h : Ends separator size digits s text) :
    ∃ s', s.writeGroup? size digits = some s' ∧
      (s'.Finished ∨
        Fits (s'.missing - 1) ∧ Ends separator size digits (s'.separate separator) text) := by
  cases h with
  | last hround hfinished => exact ⟨_, hround, Or.inl hfinished⟩
  | more hround _ hfits hrest => exact ⟨_, hround, Or.inr ⟨hfits, hrest⟩⟩

/-- Where the loop ends its counters hold what is left of the width. -/
theorem Ends.room (hsize : 1 ≤ size) (hcount : digits.length < 2 ^ 63)
    {rest : List Char} (hrest : rest.reverse <+: digits) {minWidth : Int} (hmin : Fits minWidth)
    (written : List Char) {text : List Char}
    (hloop : Ends separator size digits ⟨rest.length, minWidth, written⟩ text) :
    -2 ^ 63 ≤ minWidth - (groupReversed separator size rest minWidth).length := by
  fun_induction groupReversed separator size rest minWidth generalizing written with
  | case1 rest minWidth count chunk missing hlast =>
      have hgroup : count = min (max size 1) (max rest.length (max minWidth 1).toNat) := rfl
      rcases hloop.exists_round with ⟨s', hround, _⟩
      rw [writeGroup?_eq hsize hcount hrest hmin written hgroup,
        Option.ite_none_right_eq_some] at hround
      rw [length_group]
      exact hround.1
  | case2 rest minWidth count chunk missing hmore ih =>
      have hgroup : count = min (max size 1) (max rest.length (max minWidth 1).toNat) := rfl
      rcases hloop.exists_round with ⟨s', hround, hrest'⟩
      rw [writeGroup?_eq hsize hcount hrest hmin written hgroup,
        Option.ite_none_right_eq_some] at hround
      rcases hround with ⟨_, hstate⟩
      cases hstate
      rw [List.length_append, List.length_cons, length_group]
      rcases hrest' with hfinished | ⟨hnext, hends⟩
      · have hnone : rest.length - count ≤ 0 := by simpa using hfinished.1
        exact absurd ⟨by omega, hfinished.2⟩ hmore
      · have hroom := ih (reverse_drop_isPrefix hrest count) hnext _ hends
        omega

/-- The loop ends just if its counters can hold the size of a group and what is left of the width,
and then with the text of the recursion. -/
theorem ends_iff (separator : Char) (hsize : 1 ≤ size) (hword : size < 2 ^ 64)
    (hdigits : digits ≠ []) (hcount : digits.length < 2 ^ 63) {minWidth : Int}
    (hmin : Fits minWidth) (text : List Char) :
    Ends separator (signed size) digits (start digits minWidth) text ↔
      (size < 2 ^ 63 ∧
          -2 ^ 63 ≤ minWidth - (insertGrouping separator size digits minWidth).length) ∧
        text = insertGrouping separator size digits minWidth := by
  by_cases hlow : size < 2 ^ 63
  · have hall : digits.reverse.reverse <+: digits := by simp
    have hstart : start digits minWidth = ⟨digits.reverse.length, minWidth, []⟩ := by
      rw [start, List.length_reverse]
    have hlength : (insertGrouping separator size digits minWidth).length =
        (groupReversed separator size digits.reverse minWidth).length := List.length_reverse
    rw [signed_of_lt hlow, hstart, hlength]
    constructor
    · intro hends
      have hroom := hends.room hsize hcount hall hmin []
      exact ⟨⟨hlow, hroom⟩,
        hends.unique (ends_groupReversed separator hsize hcount hall hmin [] hroom)⟩
    · rintro ⟨⟨_, hroom⟩, rfl⟩
      exact ends_groupReversed separator hsize hcount hall hmin [] hroom
  · have hremaining : 0 < (start digits minWidth).remaining :=
      Int.natCast_pos.mpr (List.length_pos_iff.mpr hdigits)
    refine iff_of_false (not_ends_of_size_neg (signed_neg hlow hword) hremaining text) ?_
    rintro ⟨⟨hlt, _⟩, _⟩
    exact hlow hlt

end GroupingState

/-! ## What inserting separators does -/

open GroupingState (Ends start)

/-- `text` shows the digits in groups behind `zeros` zeros, the fewest that reach the width. -/
structure GroupsBehindZeros (separator : Char) (size : Nat) (digits : List Char) (minWidth : Int)
    (zeros : Nat) (text : List Char) : Prop where
  /-- A separator can only be told from the digits where it is none of them. -/
  deleted : separator ∉ '0' :: digits →
    text.filter (· ≠ separator) = List.replicate zeros '0' ++ digits
  first : text.head? = (List.replicate zeros '0' ++ digits).head?
  last : text.getLast? = digits.getLast?
  /-- Counted from the right, a separator follows every whole group, and digits stand elsewhere. -/
  places : ∀ i < text.length, text.reverse[i]? =
    if SeparatorAt size (i + 1) then some separator
    else (List.replicate zeros '0' ++ digits).reverse[i - i / (size + 1)]?
  reaches : minWidth ≤ text.length
  fewest : ∀ fewer < zeros,
    (grouped separator size (List.replicate fewer '0' ++ digits)).length < minWidth
  length_of_reached : minWidth ≤ (grouped separator size digits).length →
    text = grouped separator size digits
  length_of_short : ∀ width : Nat, minWidth = width →
    (grouped separator size digits).length < width →
    text.length = if SeparatorAt size width then width + 1 else width

/-- What inserting separators writes are the digits in groups behind the fewest zeros that reach the
width. -/
theorem exists_groupsBehindZeros (separator : Char) {size : Nat} (hsize : 1 ≤ size)
    {digits : List Char} (hdigits : digits ≠ []) (minWidth : Int) :
    ∃ zeros, GroupsBehindZeros separator size digits minWidth zeros
      (insertGrouping separator size digits minWidth) := by
  have hcount : 0 < digits.length := List.length_pos_iff.mpr hdigits
  rcases exists_insertGrouping separator hsize digits minWidth with ⟨zeros, hzeros, htext⟩
  have hlength : (insertGrouping separator size digits minWidth).length =
      groupedLength size (zeros + digits.length) := by
    rw [htext, length_grouped, List.length_append, List.length_replicate]
  refine ⟨zeros, ?_⟩
  constructor
  case deleted =>
    intro hseparator
    rw [htext]
    apply filter_grouped
    · simp
    · intro c hc
      have hmem : c ∈ '0' :: digits := by
        rcases List.mem_append.mp hc with hfill | hdigit
        · exact List.eq_of_mem_replicate hfill ▸ List.mem_cons_self
        · exact List.mem_cons_of_mem _ hdigit
      have hne : c ≠ separator := fun heq => hseparator (heq ▸ hmem)
      simpa using hne
  case first => rw [htext, head?_grouped]
  case last =>
    rw [htext, getLast?_grouped, List.getLast?_append, List.getLast?_eq_some_getLast hdigits]
    rfl
  case places =>
    intro i hi
    rw [htext] at hi ⊢
    exact getElem?_reverse_grouped separator hsize _ hi
  case reaches => exact hlength ▸ hzeros.reaches
  case fewest =>
    intro fewer hfewer
    rw [length_grouped, List.length_append, List.length_replicate]
    exact hzeros.fewest fewer hfewer (by omega)
  case length_of_reached =>
    intro hreached
    rw [length_grouped] at hreached
    rw [htext, hzeros.eq_zero hcount hreached, List.replicate_zero, List.nil_append]
  case length_of_short =>
    rintro width rfl hshort
    rw [length_grouped] at hshort
    rw [hlength, hzeros.groupedLength_eq hsize hcount hshort]

/-- The characters that are written can be counted off the width just if the digits alone can be:
where zeros are written the width is positive. -/
theorem room_insertGrouping_iff (separator : Char) {size : Nat} (hsize : 1 ≤ size)
    {digits : List Char} (hdigits : digits ≠ []) (minWidth : Int) :
    -2 ^ 63 ≤ minWidth - (insertGrouping separator size digits minWidth).length ↔
      (groupedLength size digits.length : Int) ≤ minWidth + 2 ^ 63 := by
  have hcount : 0 < digits.length := List.length_pos_iff.mpr hdigits
  rcases exists_insertGrouping separator hsize digits minWidth with ⟨zeros, hzeros, htext⟩
  rw [htext, length_grouped, List.length_append, List.length_replicate]
  rcases Nat.eq_zero_or_pos zeros with rfl | hpos
  · rw [Nat.zero_add]
    omega
  · have hfewest := hzeros.fewest 0 hpos (by omega)
    obtain ⟨width, rfl⟩ : ∃ width : Nat, minWidth = width := ⟨minWidth.toNat, by omega⟩
    rw [Nat.zero_add] at hfewest
    rw [hzeros.groupedLength_eq hsize hcount (by omega)]
    split <;> omega

/-- The loop over groups reads no digit out of range, and ends just if its counters can hold the
size of a group and the digits can be counted off the width. It has then grouped the digits behind
the fewest zeros that reach the width. The size is any unsigned and the width any signed number of 64
bits, and the digits are as many as a memory holds. -/
theorem insertGrouping_groupsBehindZeros (separator : Char) {size : Nat} (hsize : 1 ≤ size)
    (hword : size < 2 ^ 64) {digits : List Char} (hdigits : digits ≠ [])
    (hcount : digits.length < 2 ^ 63) {minWidth : Int} (hmin : Fits minWidth) :
    (∀ text, Ends separator (signed size) digits (start digits minWidth) text ↔
      (size < 2 ^ 63 ∧ (groupedLength size digits.length : Int) ≤ minWidth + 2 ^ 63) ∧
        text = insertGrouping separator size digits minWidth) ∧
      ∃ zeros, GroupsBehindZeros separator size digits minWidth zeros
        (insertGrouping separator size digits minWidth) := by
  constructor
  · intro text
    rw [GroupingState.ends_iff separator hsize hword hdigits hcount hmin,
      room_insertGrouping_iff separator hsize hdigits]
  · exact exists_groupsBehindZeros separator hsize hdigits minWidth

/-- Eight characters of thousands would begin with a separator, so there are nine. -/
theorem insertGrouping_groupsBehindZeros_separatorFirst :
    insertGrouping ',' 3 ['1', '2', '3', '4'] 8 = "0,001,234".toList ∧
      (∀ text, Ends ',' (signed 3) ['1', '2', '3', '4'] (start ['1', '2', '3', '4'] 8) text ↔
        (3 < 2 ^ 63 ∧ (groupedLength 3 4 : Int) ≤ 8 + 2 ^ 63) ∧ text = "0,001,234".toList) ∧
      ∃ zeros, GroupsBehindZeros ',' 3 ['1', '2', '3', '4'] 8 zeros "0,001,234".toList := by
  have htext : insertGrouping ',' 3 ['1', '2', '3', '4'] 8 = "0,001,234".toList := by decide +kernel
  rcases insertGrouping_groupsBehindZeros ',' (by decide : 1 ≤ 3) (by decide)
    (List.cons_ne_nil '1' ['2', '3', '4']) (by decide) (by decide : Fits 8) with ⟨hends, hgroups⟩
  rw [htext] at hends hgroups
  exact ⟨htext, hends, hgroups⟩

/-- Zero-filled to `2 ^ 63` characters, a number asks the loop for the least width that a counter
holds, and a single digit cannot be counted off that. Zero-filled to one more, it is shown without a
zero. -/
theorem not_forall_ends :
    (∃ spec, Spec.parse "int" "09223372036854775808," = .ok spec ∧
        spec.resolveFill .right = ('0', .afterSign) ∧ signedWidth spec.width = -2 ^ 63) ∧
      (¬∀ (separator : Char) (size : Nat) (digits : List Char) (minWidth : Int),
        1 ≤ size → size < 2 ^ 64 → digits ≠ [] → digits.length < 2 ^ 63 → Fits minWidth →
          ∃ text, Ends separator (signed size) digits (start digits minWidth) text) ∧
      ¬∀ (text : String) (spec : Spec) (i : Int64) (shown : List Char),
        Spec.parse "int" text = .ok spec → spec.resolveFill .right = ('0', .afterSign) →
          formatWith (.int i) spec = .ok shown → spec.width.getD 0 ≤ shown.length := by
  refine ⟨?_, ?_, ?_⟩
  · refine ⟨{ zeroPad := true, width := some (2 ^ 63), grouping := some .comma }, ?_, rfl, ?_⟩
    · decide +kernel
    · decide +kernel
  · intro hall
    rcases hall ',' 3 ['5'] (-2 ^ 63) (by decide) (by decide) (by decide) (by decide) (by decide)
      with ⟨text, hends⟩
    rcases (GroupingState.ends_iff ',' (by decide) (by decide) (by decide) (by decide) (by decide)
      text).mp hends with ⟨⟨_, hroom⟩, _⟩
    exact absurd hroom (by decide +kernel)
  · intro hall
    have hlength := hall "09223372036854775809,"
      { zeroPad := true, width := some (2 ^ 63 + 1), grouping := some .comma } 5 ['5']
      (by decide +kernel) rfl (by decide +kernel)
    exact absurd hlength (by decide)

end Render
end FormatCheck
