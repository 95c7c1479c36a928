import FormatCheck.Diff
import FormatCheck.Proofs.Text.Lines
import FormatCheck.Proofs.Text.Quoted

/-!
# What a difference shows

The place given first is the length of the longest common beginning, and after it there is one hunk
for each line at which the texts differ, in order. Unequal texts have at least one, since cutting a
text into lines loses nothing. What a hunk shows of a line has no line feed, so the hunks can be told
apart again in the text.
-/

namespace FormatCheck
namespace Diff

open Json (OneLine oneLine_cons oneLine_append oneLine_of_all)

/-! ## The common beginning -/

/-- A text that two texts begin with, and no longer one is. -/
structure IsCommonBeginning (p s t : List Char) : Prop where
  left : p <+: s
  right : p <+: t
  longest : ∀ q, q <+: s → q <+: t → q.length ≤ p.length

theorem IsCommonBeginning.cons {p s t : List Char} (h : IsCommonBeginning p s t) (c : Char) :
    IsCommonBeginning (c :: p) (c :: s) (c :: t) where
  left := List.cons_prefix_cons.mpr ⟨rfl, h.left⟩
  right := List.cons_prefix_cons.mpr ⟨rfl, h.right⟩
  longest := by
    intro q hs ht
    cases q with
    | nil =>
        exact Nat.zero_le _
    | cons d q =>
        have hq := h.longest q (List.cons_prefix_cons.mp hs).2 (List.cons_prefix_cons.mp ht).2
        exact Nat.succ_le_succ hq

theorem isCommonBeginning_nil {s t : List Char} (h : ∀ c ∈ s.head?, c ∉ t.head?) :
    IsCommonBeginning [] s t where
  left := List.nil_prefix
  right := List.nil_prefix
  longest := by
    rintro (_ | ⟨c, q⟩) ⟨s, rfl⟩ ⟨t, rfl⟩
    · exact Nat.le_refl _
    · exact absurd rfl (h c rfl)

theorem exists_isCommonBeginning (s t : List Char) :
    ∃ p, IsCommonBeginning p s t ∧ p.length = commonLength s t := by
  induction s generalizing t with
  | nil =>
      exact ⟨[], isCommonBeginning_nil (by simp), rfl⟩
  | cons a s ih =>
      cases t with
      | nil =>
          exact ⟨[], isCommonBeginning_nil (by simp), rfl⟩
      | cons b t =>
          rw [commonLength]
          split_ifs with hab
          · subst hab
            rcases ih t with ⟨p, hp, hlength⟩
            exact ⟨a :: p, hp.cons a, congrArg Nat.succ hlength⟩
          · exact ⟨[], isCommonBeginning_nil (by simpa [eq_comm] using hab), rfl⟩

theorem firstDifference_eq_none_iff (expected actual : String) :
    firstDifference expected actual = none ↔ expected = actual := by
  simp [firstDifference]

/-! ## Places that differ -/

/-- The places at which two lists differ, or only one of them goes on. -/
def differing (es as : List (List Char)) : List Nat :=
  (List.range (max es.length as.length)).filter fun i => es[i]? ≠ as[i]?

theorem mem_differing {es as : List (List Char)} {i : Nat} :
    i ∈ differing es as ↔ es[i]? ≠ as[i]? := by
  rw [differing, List.mem_filter, decide_eq_true_eq, and_iff_right_iff_imp]
  intro h
  rw [List.mem_range, lt_max_iff]
  by_contra hlong
  rw [not_or, not_lt, not_lt] at hlong
  rw [List.getElem?_eq_none hlong.1, List.getElem?_eq_none hlong.2] at h
  exact h rfl

theorem pairwise_differing (es as : List (List Char)) : (differing es as).Pairwise (· < ·) :=
  List.pairwise_lt_range.filter _

theorem differing_ne_nil {es as : List (List Char)} (h : es ≠ as) : differing es as ≠ [] := by
  intro hnil
  refine h (List.ext_getElem? fun i => ?_)
  by_contra hi
  rw [← ne_eq, ← mem_differing, hnil] at hi
  cases hi

/-- The places are those of the first lines, and those of the others moved by one. -/
theorem differing_eq (es as : List (List Char)) :
    differing es as =
      (if es[0]? = as[0]? then [] else [0]) ++ (differing es.tail as.tail).map (· + 1) := by
  have hrest : ∀ m, (List.range (m + 1)).filter (fun i => es[i]? ≠ as[i]?) =
      (if es[0]? = as[0]? then [] else [0]) ++
        ((List.range m).filter fun i => es.tail[i]? ≠ as.tail[i]?).map (· + 1) := by
    intro m
    rw [List.range_succ_eq_map, List.filter_cons, List.filter_map]
    by_cases h : es[0]? = as[0]? <;> simp [h, Function.comp_def]
  -- Unless both lists are empty there is a first place to take off.
  cases es with
  | nil =>
      cases as with
      | nil => rfl
      | cons a as => simpa [differing] using hrest as.length
  | cons e es =>
      cases as with
      | nil => simpa [differing] using hrest es.length
      | cons a as => simpa [differing, Nat.succ_max_succ] using hrest (max es.length as.length)

/-! ## Hunks -/

/-- The lines of a hunk: its number, then the line of each text that has one there. -/
def hunkLines (number : Nat) (expected actual : Option (List Char)) : List (List Char) :=
  ("@@ line ".toList ++ Numeral.decimal number ++ " @@".toList) ::
    ((expected.map fun line => '-' :: visible line).toList ++
      (actual.map fun line => '+' :: visible line).toList)

theorem hunk_eq (number : Nat) (expected actual : Option (List Char)) :
    hunk number expected actual = (hunkLines number expected actual).flatMap (· ++ ['\n']) := by
  have hend : " @@\n".toList = " @@".toList ++ ['\n'] := rfl
  unfold hunk hunkLines
  rw [List.flatMap_cons, List.flatMap_append, hend]
  cases expected <;> cases actual <;>
    simp only [List.append_assoc, Option.map, Option.getD, Option.toList, List.flatMap_cons,
      List.flatMap_nil, List.nil_append, List.append_nil, List.cons_append]

/-- There is a hunk for each place that differs, in order. -/
theorem hunks_eq_flatMap (number : Nat) (es as : List (List Char)) :
    hunks number es as =
      (differing es as).flatMap fun i => hunk (number + i) es[i]? as[i]? := by
  fun_induction hunks number es as with
  | case1 => rfl
  | case2 number e es ih =>
      rw [ih, differing_eq (e :: es) []]
      simp [List.flatMap_map, Nat.add_assoc, Nat.add_comm 1]
  | case3 number a as ih =>
      rw [ih, differing_eq [] (a :: as)]
      simp [List.flatMap_map, Nat.add_assoc, Nat.add_comm 1]
  | case4 number e es a as ih =>
      rw [ih, differing_eq (e :: es) (a :: as)]
      by_cases h : e = a <;> simp [h, List.flatMap_map, Nat.add_assoc, Nat.add_comm 1]

/-! ## Lines -/

theorem oneLine_visibleChar (c : Char) : OneLine (visibleChar c) := by
  unfold visibleChar
  split_ifs with htab hreturn hcontrol
  · exact oneLine_of_all (by decide)
  · exact oneLine_of_all (by decide)
  · exact oneLine_append (s := ['\\', 'x']).mpr
      ⟨oneLine_of_all (by decide), Text.oneLine_hexText 2 c.toNat⟩
  · refine List.forall_mem_singleton.mpr fun hlow => hcontrol ?_
    have hrange : c.toNat ≤ 0x1f := Nat.le_of_lt_succ hlow
    simp [Text.isControl, Text.inRanges, Text.CodeRange.contains, hrange]

theorem oneLine_visible (line : List Char) : OneLine (visible line) := by
  intro c hc
  rcases List.mem_flatMap.mp hc with ⟨d, _, hd⟩
  exact oneLine_visibleChar d c hd

theorem oneLine_numbered {text : List Char} (h : OneLine text) (number : Nat) :
    OneLine (text ++ Numeral.decimal number ++ " @@".toList) :=
  oneLine_append.mpr
    ⟨oneLine_append.mpr ⟨h, Json.oneLine_decimal number⟩, oneLine_of_all (by decide)⟩

theorem oneLine_of_mem_marked {mark : Char} (hmark : ¬ mark.toNat < 0x20)
    (line? : Option (List Char)) :
    ∀ text ∈ (line?.map fun line => mark :: visible line).toList, OneLine text := by
  cases line? with
  | none => exact List.forall_mem_nil _
  | some line =>
      exact List.forall_mem_singleton.mpr (oneLine_cons.mpr ⟨hmark, oneLine_visible line⟩)

theorem oneLine_of_mem_hunkLines {number : Nat} {expected actual : Option (List Char)} :
    ∀ line ∈ hunkLines number expected actual, OneLine line := by
  refine List.forall_mem_cons.mpr ⟨?_, List.forall_mem_append.mpr ⟨?_, ?_⟩⟩
  · exact oneLine_numbered (oneLine_of_all (by decide)) number
  · exact oneLine_of_mem_marked (by decide) expected
  · exact oneLine_of_mem_marked (by decide) actual

/-- The lines before the hunks, which give the place of the first difference. -/
def headerLines (offset : Nat) : List (List Char) :=
  ["--- expected".toList, "+++ actual".toList,
    "@@ char ".toList ++ Numeral.decimal offset ++ " @@".toList]

theorem oneLine_of_mem_headerLines {offset : Nat} : ∀ line ∈ headerLines offset, OneLine line := by
  simp only [headerLines, List.forall_mem_cons]
  exact ⟨oneLine_of_all (by decide), oneLine_of_all (by decide),
    oneLine_numbered (oneLine_of_all (by decide)) offset, List.forall_mem_nil _⟩

theorem flatMap_headerLines (offset : Nat) :
    (headerLines offset).flatMap (· ++ ['\n']) =
      "--- expected\n+++ actual\n@@ char ".toList ++ (Numeral.decimal offset ++ " @@\n".toList) := by
  have hbegin : "--- expected\n+++ actual\n@@ char ".toList =
      "--- expected".toList ++ '\n' :: ("+++ actual".toList ++ '\n' :: "@@ char ".toList) := rfl
  have hend : " @@\n".toList = " @@".toList ++ ['\n'] := rfl
  rw [headerLines, hbegin, hend]
  simp only [List.flatMap_cons, List.flatMap_nil, List.append_assoc, List.cons_append,
    List.nil_append, List.append_nil]

/-- The lines of a difference: its header, then one hunk after the other. -/
def diffLines (offset : Nat) (es as : List (List Char)) : List (List Char) :=
  headerLines offset ++ (differing es as).flatMap fun i => hunkLines (1 + i) es[i]? as[i]?

theorem render_toList {expected actual : String} {offset : Nat}
    (h : firstDifference expected actual = some offset) :
    (render expected actual).toList =
      (diffLines offset (Text.splitLines expected.toList)
        (Text.splitLines actual.toList)).flatMap (· ++ ['\n']) := by
  unfold render
  rw [h]
  dsimp only
  rw [diffLines, List.flatMap_append, flatMap_headerLines, List.flatMap_assoc, hunks_eq_flatMap,
    Numeral.showNat]
  simp only [hunk_eq, String.toList_append, String.toList_ofList, List.append_assoc]

theorem lines_render {expected actual : String} {offset : Nat}
    (h : firstDifference expected actual = some offset) :
    Text.lines (render expected actual).toList =
      diffLines offset (Text.splitLines expected.toList) (Text.splitLines actual.toList) := by
  rw [render_toList h, Text.lines_flatMap]
  intro line hline hfeed
  have honeLine : OneLine line := by
    rcases List.mem_append.mp hline with hheader | hhunk
    · exact oneLine_of_mem_headerLines line hheader
    · rcases List.mem_flatMap.mp hhunk with ⟨i, _, hi⟩
      exact oneLine_of_mem_hunkLines line hi
  exact honeLine '\n' hfeed (by decide)

theorem firstDifference_of_ne {expected actual : String} (h : expected ≠ actual) :
    firstDifference expected actual = some (commonLength expected.toList actual.toList) :=
  if_neg h

theorem render_eq_identical_iff (expected actual : String) :
    render expected actual = "[identical]" ↔ expected = actual := by
  constructor
  · intro h
    by_contra hne
    -- A text that shows a difference begins with another line.
    have hlines := lines_render (firstDifference_of_ne hne)
    rw [h] at hlines
    have hfirst : some "[identical]".toList = some "--- expected".toList :=
      congrArg List.head? hlines
    exact absurd hfirst (by decide)
  · intro h
    rw [render, (firstDifference_eq_none_iff expected actual).mpr h]

/-- Equal texts have no difference. Of others the first difference comes after all that they have in
common at their beginnings, and is followed by the lines at which they differ, each with its number
and with what stands there in the one text and in the other. -/
theorem render_shows_differences (expected actual : String) :
    (firstDifference expected actual = none ↔ expected = actual) ∧
      (render expected actual = "[identical]" ↔ expected = actual) ∧
      (expected ≠ actual → ∃ (beginning : List Char) (numbers : List Nat),
        IsCommonBeginning beginning expected.toList actual.toList ∧
          firstDifference expected actual = some beginning.length ∧
          numbers ≠ [] ∧ numbers.Pairwise (· < ·) ∧
          (∀ n, n ∈ numbers ↔ 0 < n ∧
            (expected.toList.splitOn '\n')[n - 1]? ≠ (actual.toList.splitOn '\n')[n - 1]?) ∧
          Text.lines (render expected actual).toList =
            headerLines beginning.length ++ numbers.flatMap fun n =>
              hunkLines n (expected.toList.splitOn '\n')[n - 1]?
                (actual.toList.splitOn '\n')[n - 1]?) := by
  refine ⟨firstDifference_eq_none_iff _ _, render_eq_identical_iff _ _, fun hne => ?_⟩
  rcases exists_isCommonBeginning expected.toList actual.toList with ⟨beginning, hbegin, hlength⟩
  have hfirst : firstDifference expected actual = some beginning.length := by
    rw [firstDifference_of_ne hne, hlength]
  have hpieces : Text.splitLines expected.toList ≠ Text.splitLines actual.toList := by
    rw [ne_eq, Text.splitLines_inj, String.toList_inj]
    exact hne
  rw [← Text.splitLines_eq_splitOn, ← Text.splitLines_eq_splitOn]
  generalize hes : Text.splitLines expected.toList = es at hpieces ⊢
  generalize has : Text.splitLines actual.toList = as at hpieces ⊢
  -- Places are counted from zero, and lines from one.
  refine ⟨beginning, (differing es as).map (1 + ·), hbegin, hfirst, ?_, ?_, ?_, ?_⟩
  · simpa using differing_ne_nil hpieces
  · exact (pairwise_differing es as).map _ fun _ _ hij => Nat.add_lt_add_left hij 1
  · intro n
    rw [List.mem_map]
    constructor
    · rintro ⟨i, hi, rfl⟩
      rw [Nat.add_sub_cancel_left]
      exact ⟨by omega, mem_differing.mp hi⟩
    · rintro ⟨hn, hdiffer⟩
      exact ⟨n - 1, mem_differing.mpr hdiffer, by omega⟩
  · rw [lines_render hfirst, hes, has, diffLines, List.flatMap_map]
    simp only [Nat.add_sub_cancel_left]

/-- A line feed at the end is a difference although no further character is: the second line is an
empty one on one side and is not there on the other. -/
theorem render_shows_differences_finalLineFeed :
    "a\n" ≠ "a" ∧ ∃ (beginning : List Char) (numbers : List Nat),
      IsCommonBeginning beginning ['a', '\n'] ['a'] ∧
        firstDifference "a\n" "a" = some beginning.length ∧
        numbers ≠ [] ∧ numbers.Pairwise (· < ·) ∧
        (∀ n, n ∈ numbers ↔ 0 < n ∧ ([['a'], []] : List (List Char))[n - 1]? ≠ [['a']][n - 1]?) ∧
        Text.lines (render "a\n" "a").toList =
          headerLines beginning.length ++ numbers.flatMap fun n =>
            hunkLines n ([['a'], []] : List (List Char))[n - 1]? [['a']][n - 1]? := by
  have hne : "a\n" ≠ "a" := by decide
  exact ⟨hne, (render_shows_differences "a\n" "a").2.2 hne⟩

end Diff
end FormatCheck
