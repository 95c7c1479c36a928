import FormatCheck.Proofs.Diff.Hunks
import FormatCheck.Proofs.Text.Unquote

/-!
# Lines that are shown alike

A line is shown with an escape in the place of every control character, and a backslash that it
holds is shown as it is. So a line with a tab is shown like one with a backslash and a `t`.
`ShownAlike` relates the lines that differ in this way only, and no others are shown alike: escapes
are told apart from each other, and what is no control character stands for itself.

A hunk is found in the text of a difference by its title, which no other line of it can be.
-/

namespace FormatCheck
namespace Diff

open Text (isControl)

variable {c d : Char} {s t : List Char}

/-- Lines that are equal but for control characters of the one that stand in the other as their
escapes. -/
inductive ShownAlike : List Char → List Char → Prop where
  | nil : ShownAlike [] []
  | cons (c : Char) {s t : List Char} : ShownAlike s t → ShownAlike (c :: s) (c :: t)
  | left {c : Char} {s t : List Char} :
      isControl c = true → ShownAlike s t → ShownAlike (c :: s) (visibleChar c ++ t)
  | right {c : Char} {s t : List Char} :
      isControl c = true → ShownAlike s t → ShownAlike (visibleChar c ++ s) (c :: t)

/-! ## Escapes -/

/-- What follows the backslash in the escape of a character. It says which character is meant and
where the escape ends, and nothing in it begins an escape. -/
structure EscapeBody (c : Char) (body : List Char) : Prop where
  shown : visibleChar c = '\\' :: body
  plain : ∀ d ∈ body, d ≠ '\\' ∧ isControl d = false
  reads : ∀ rest, Text.takeEscape? (body ++ rest) = some (c, rest)

theorem toNat_lt_of_isControl (hc : isControl c = true) : c.toNat < 16 ^ 2 := by
  simp only [isControl, Text.inRanges, Text.CodeRange.contains, List.any_cons, List.any_nil,
    Bool.or_false, Bool.or_eq_true, Bool.and_eq_true, decide_eq_true_eq] at hc
  omega

theorem exists_escapeBody (hc : isControl c = true) : ∃ body, EscapeBody c body := by
  have hdigit : ∀ k < 16, Numeral.digitChar k ≠ '\\' ∧ isControl (Numeral.digitChar k) = false := by
    decide
  by_cases htab : c = '\t'
  · subst htab
    exact ⟨['t'], rfl, List.forall_mem_singleton.mpr (by decide), fun _ => rfl⟩
  · by_cases hreturn : c = '\r'
    · subst hreturn
      exact ⟨['r'], rfl, List.forall_mem_singleton.mpr (by decide), fun _ => rfl⟩
    · refine ⟨'x' :: Text.hexText 2 c.toNat, ?_, ?_, ?_⟩
      · rw [visibleChar, if_neg htab, if_neg hreturn, if_pos hc]
      · refine List.forall_mem_cons.mpr ⟨by decide, ?_⟩
        intro d hd
        rcases Text.mem_hexText hd with ⟨k, hk, rfl⟩
        exact hdigit k hk
      · exact Text.takeEscape?_hexText rfl (by decide) (toNat_lt_of_isControl hc)

theorem visibleChar_of_not_isControl (hc : ¬ isControl c = true) : visibleChar c = [c] := by
  have htab : c ≠ '\t' := by
    rintro rfl
    exact hc rfl
  have hreturn : c ≠ '\r' := by
    rintro rfl
    exact hc rfl
  rw [visibleChar, if_neg htab, if_neg hreturn, if_neg hc]

theorem visibleChar_ne_nil (c : Char) : visibleChar c ≠ [] := by
  by_cases hc : isControl c = true
  · rcases exists_escapeBody hc with ⟨body, hbody⟩
    simp [hbody.shown]
  · simp [visibleChar_of_not_isControl hc]

/-- An escape at the front says which character it stands for. -/
theorem visibleChar_append_inj (hc : isControl c = true) (hd : isControl d = true)
    (h : visibleChar c ++ s = visibleChar d ++ t) : c = d ∧ s = t := by
  rcases exists_escapeBody hc with ⟨body, hbody⟩
  rcases exists_escapeBody hd with ⟨body', hbody'⟩
  rw [hbody.shown, hbody'.shown, List.cons_append, List.cons_append] at h
  have hread := congrArg Text.takeEscape? (List.cons.inj h).2
  rw [hbody.reads, hbody'.reads] at hread
  exact Prod.mk.inj (Option.some.inj hread)

/-! ## Lines -/

theorem visible_cons (c : Char) (s : List Char) : visible (c :: s) = visibleChar c ++ visible s :=
  List.flatMap_cons

theorem visible_append (s t : List Char) : visible (s ++ t) = visible s ++ visible t :=
  List.flatMap_append

theorem visible_cons_ne_nil (c : Char) (s : List Char) : visible (c :: s) ≠ [] := by
  rw [visible_cons]
  exact List.append_ne_nil_of_left_ne_nil (visibleChar_ne_nil c) _

theorem visible_eq_self (hs : ∀ c ∈ s, isControl c = false) : visible s = s := by
  induction s with
  | nil =>
      rfl
  | cons c s ih =>
      rcases List.forall_mem_cons.mp hs with ⟨hc, hs⟩
      rw [visible_cons, visibleChar_of_not_isControl (by simp [hc]), ih hs]
      rfl

/-- The escape of a character is shown as it is. -/
theorem visible_visibleChar (c : Char) : visible (visibleChar c) = visibleChar c := by
  by_cases hc : isControl c = true
  · rcases exists_escapeBody hc with ⟨body, hbody⟩
    rw [hbody.shown]
    refine visible_eq_self (List.forall_mem_cons.mpr ⟨by decide, ?_⟩)
    intro d hd
    exact (hbody.plain d hd).2
  · rw [visibleChar_of_not_isControl hc]
    exact visible_eq_self (List.forall_mem_singleton.mpr (by simpa using hc))

/-- What is shown without a backslash is in the line as it is shown. -/
theorem exists_of_visible_eq_append {text rest : List Char} (htext : '\\' ∉ text)
    (h : visible s = text ++ rest) : ∃ u, s = text ++ u ∧ visible u = rest := by
  induction text generalizing s with
  | nil =>
      exact ⟨s, rfl, h⟩
  | cons d text ih =>
      have hd : '\\' ≠ d := List.ne_of_not_mem_cons htext
      have htail : '\\' ∉ text := List.not_mem_of_not_mem_cons htext
      cases s with
      | nil =>
          cases h
      | cons c s =>
          rw [visible_cons] at h
          by_cases hc : isControl c = true
          · rcases exists_escapeBody hc with ⟨body, hbody⟩
            rw [hbody.shown] at h
            exact absurd (List.cons.inj h).1 hd
          · rw [visibleChar_of_not_isControl hc] at h
            rcases List.cons.inj h with ⟨rfl, hrest⟩
            rcases ih htail hrest with ⟨u, rfl, hu⟩
            exact ⟨u, rfl, hu⟩

/-- A line that is shown with an escape at the front has there the character or the escape. -/
theorem eq_append_of_visible_eq {rest : List Char} (hc : isControl c = true)
    (h : visible s = visibleChar c ++ rest) :
    ∃ u, visible u = rest ∧ (s = c :: u ∨ s = visibleChar c ++ u) := by
  cases s with
  | nil =>
      exact absurd h.symm (List.append_ne_nil_of_left_ne_nil (visibleChar_ne_nil c) _)
  | cons d s =>
      rw [visible_cons] at h
      by_cases hd : isControl d = true
      · rcases visibleChar_append_inj hd hc h with ⟨rfl, hrest⟩
        exact ⟨s, hrest, Or.inl rfl⟩
      · -- The backslash is one of the line itself, so the line has the rest of the escape too.
        rcases exists_escapeBody hc with ⟨body, hbody⟩
        rw [visibleChar_of_not_isControl hd, hbody.shown] at h
        rcases List.cons.inj h with ⟨rfl, hshown⟩
        have hplain : '\\' ∉ body := fun hmem => (hbody.plain _ hmem).1 rfl
        rcases exists_of_visible_eq_append hplain hshown with ⟨u, rfl, hu⟩
        exact ⟨u, hu, Or.inr (by rw [hbody.shown]; rfl)⟩

/-! ## Lines shown alike -/

theorem ShownAlike.visible_eq (h : ShownAlike s t) : visible s = visible t := by
  induction h with
  | nil =>
      rfl
  | cons c _ ih =>
      rw [visible_cons, visible_cons, ih]
  | left _ _ ih =>
      rw [visible_cons, visible_append, visible_visibleChar, ih]
  | right _ _ ih =>
      rw [visible_cons, visible_append, visible_visibleChar, ih]

theorem shownAlike_of_visible_eq (h : visible s = visible t) : ShownAlike s t := by
  -- An escape may take up several characters of a line, so the induction is on its length.
  induction hlength : s.length using Nat.strongRecOn generalizing s t with
  | _ n ih =>
      subst hlength
      cases s with
      | nil =>
          cases t with
          | nil => exact .nil
          | cons d t => exact absurd h.symm (visible_cons_ne_nil d t)
      | cons c s =>
          have hstep : ∀ {u v : List Char}, u.length ≤ s.length → visible u = visible v →
              ShownAlike u v :=
            fun hle huv => ih _ (Nat.lt_succ_of_le hle) huv rfl
          by_cases hc : isControl c = true
          · rw [visible_cons] at h
            rcases eq_append_of_visible_eq hc h.symm with ⟨u, hu, rfl | rfl⟩
            · exact .cons c (hstep (Nat.le_refl _) hu.symm)
            · exact .left hc (hstep (Nat.le_refl _) hu.symm)
          · cases t with
            | nil =>
                exact absurd h (visible_cons_ne_nil c s)
            | cons d t =>
                by_cases hd : isControl d = true
                · rw [visible_cons d] at h
                  rcases eq_append_of_visible_eq hd h with ⟨u, hu, heq | heq⟩
                  · rcases List.cons.inj heq with ⟨rfl, rfl⟩
                    exact .cons c (hstep (Nat.le_refl _) hu)
                  · rw [heq]
                    refine .right hd (hstep ?_ hu)
                    -- The escape has a character at least, and the line has one more than `s`.
                    have hlength := congrArg List.length heq
                    have hpos := List.length_pos_iff.mpr (visibleChar_ne_nil d)
                    rw [List.length_cons, List.length_append] at hlength
                    omega
                · rw [visible_cons, visible_cons, visibleChar_of_not_isControl hc,
                    visibleChar_of_not_isControl hd] at h
                  rcases List.cons.inj h with ⟨rfl, hrest⟩
                  exact .cons c (hstep (Nat.le_refl _) hrest)

theorem visible_eq_iff : visible s = visible t ↔ ShownAlike s t :=
  ⟨shownAlike_of_visible_eq, ShownAlike.visible_eq⟩

/-- Different lines that are shown alike have a backslash in one of them. -/
theorem ShownAlike.eq_of_not_mem (h : ShownAlike s t) (hs : '\\' ∉ s) (ht : '\\' ∉ t) : s = t := by
  have hmem : ∀ {c : Char} {u : List Char}, isControl c = true → '\\' ∈ visibleChar c ++ u := by
    intro c u hc
    rcases exists_escapeBody hc with ⟨body, hbody⟩
    rw [hbody.shown]
    exact List.mem_cons_self
  induction h with
  | nil =>
      rfl
  | cons c _ ih =>
      rw [ih (List.not_mem_of_not_mem_cons hs) (List.not_mem_of_not_mem_cons ht)]
  | left hc _ _ =>
      exact absurd (hmem hc) ht
  | right hc _ _ =>
      exact absurd (hmem hc) hs

/-! ## Hunks in the text -/

/-- The first line of a hunk. -/
def hunkTitle (number : Nat) : List Char :=
  "@@ line ".toList ++ Numeral.decimal number ++ " @@".toList

theorem hunkTitle_inj {m n : Nat} (h : hunkTitle m = hunkTitle n) : m = n := by
  have hdecimal : Numeral.decimal m = Numeral.decimal n :=
    List.append_cancel_left (List.append_cancel_right h)
  rw [← Numeral.readDecimal_decimal m, hdecimal, Numeral.readDecimal_decimal]

theorem head?_hunkTitle (n : Nat) : (hunkTitle n).head? = some '@' := rfl

theorem ne_hunkTitle {mark : Char} (hmark : mark ≠ '@') (text : List Char) (n : Nat) :
    mark :: text ≠ hunkTitle n := by
  intro h
  have hhead := congrArg List.head? h
  rw [head?_hunkTitle] at hhead
  exact hmark (Option.some.inj hhead)

theorem hunkTitle_not_mem_headerLines (n offset : Nat) : hunkTitle n ∉ headerLines offset := by
  have hchar : hunkTitle n ≠ "@@ char ".toList ++ Numeral.decimal offset ++ " @@".toList := by
    intro h
    have hfourth : some 'l' = some 'c' := congrArg (·[3]?) h
    exact absurd hfourth (by decide)
  simp only [headerLines, List.mem_cons, List.not_mem_nil, or_false, not_or]
  exact ⟨(ne_hunkTitle (by decide) _ n).symm, (ne_hunkTitle (by decide) _ n).symm, hchar⟩

variable {α : Type}

/-- A list that begins with an element which a front part has not does not begin there. -/
theorem suffix_of_suffix_append {a : α} {u front rest : List α} (ha : a ∉ front)
    (h : a :: u <:+ front ++ rest) : a :: u <:+ rest := by
  induction front with
  | nil =>
      exact h
  | cons b front ih =>
      rcases List.suffix_cons_iff.mp h with heq | hsuffix
      · exact absurd (List.cons.inj heq).1 (List.ne_of_not_mem_cons ha)
      · exact ih (List.not_mem_of_not_mem_cons ha) hsuffix

variable {es as rest : List (List Char)} {n : Nat} {x y : List Char}

theorem hunkTitle_not_mem_marked (n : Nat) {mark : Char} (hmark : mark ≠ '@')
    (line? : Option (List Char)) :
    hunkTitle n ∉ (line?.map fun line => mark :: visible line).toList := by
  cases line? with
  | none => exact List.not_mem_nil
  | some line => exact fun h => ne_hunkTitle hmark _ n (List.mem_singleton.mp h).symm

/-- Behind a hunk comes the title of the next, or nothing. -/
theorem cons_ne_flatMap_hunkLines {mark : Char} (hmark : mark ≠ '@') (places : List Nat) :
    (mark :: x) :: rest ≠ places.flatMap fun i => hunkLines (1 + i) es[i]? as[i]? := by
  cases places with
  | nil =>
      exact List.cons_ne_nil _ _
  | cons i places =>
      intro h
      rw [List.flatMap_cons] at h
      exact ne_hunkTitle hmark x (1 + i) (List.cons.inj h).1

/-- A title with a `-` line and a `+` line behind it is a hunk of a line that both texts have. -/
theorem exists_of_suffix_hunks {places : List Nat}
    (h : hunkTitle n :: ('-' :: x) :: ('+' :: y) :: rest <:+
      places.flatMap fun i => hunkLines (1 + i) es[i]? as[i]?) :
    ∃ i ∈ places, n = 1 + i ∧ ∃ s t, es[i]? = some s ∧ as[i]? = some t ∧
      x = visible s ∧ y = visible t := by
  induction places with
  | nil =>
      exact absurd (List.suffix_nil.mp h) (List.cons_ne_nil _ _)
  | cons i places ih =>
      rw [List.flatMap_cons, hunkLines, List.cons_append] at h
      rcases List.suffix_cons_iff.mp h with heq | hsuffix
      · rcases List.cons.inj heq with ⟨htitle, hlines⟩
        refine ⟨i, List.mem_cons_self, hunkTitle_inj htitle, ?_⟩
        -- With a line missing, the title of the next hunk would have to begin with a mark.
        cases hs : es[i]? with
        | none =>
            cases ht : as[i]? with
            | none =>
                rw [hs, ht] at hlines
                exact absurd hlines (cons_ne_flatMap_hunkLines (by decide) places)
            | some t =>
                rw [hs, ht] at hlines
                exact absurd (List.cons.inj (List.cons.inj hlines).1).1 (by decide)
        | some s =>
            cases ht : as[i]? with
            | none =>
                rw [hs, ht] at hlines
                exact absurd (List.cons.inj hlines).2
                  (cons_ne_flatMap_hunkLines (by decide) places)
            | some t =>
                rw [hs, ht] at hlines
                rcases List.cons.inj hlines with ⟨hminus, hrest⟩
                have hx := (List.cons.inj hminus).2
                have hy := (List.cons.inj (List.cons.inj hrest).1).2
                exact ⟨s, t, rfl, rfl, hx, hy⟩
      · -- The title is not among the lines of this hunk, so it comes after them.
        have hminus : hunkTitle n ∉ (es[i]?.map fun line => '-' :: visible line).toList :=
          hunkTitle_not_mem_marked n (by decide) _
        have hplus : hunkTitle n ∉ (as[i]?.map fun line => '+' :: visible line).toList :=
          hunkTitle_not_mem_marked n (by decide) _
        rw [List.append_assoc] at hsuffix
        have hrest := suffix_of_suffix_append hplus (suffix_of_suffix_append hminus hsuffix)
        rcases ih hrest with ⟨j, hj, hfound⟩
        exact ⟨j, List.mem_cons_of_mem i hj, hfound⟩

/-- In the text of a difference a title with two lines behind it stands for a line in which the
texts differ, and the two lines are what is shown of it. -/
theorem exists_of_infix_render {expected actual : String}
    (h : [hunkTitle n, '-' :: x, '+' :: y] <:+: Text.lines (render expected actual).toList) :
    0 < n ∧ ∃ s t, (Text.splitLines expected.toList)[n - 1]? = some s ∧
      (Text.splitLines actual.toList)[n - 1]? = some t ∧ s ≠ t ∧ x = visible s ∧ y = visible t := by
  rcases h with ⟨front, rest, heq⟩
  have hsuffix : hunkTitle n :: ('-' :: x) :: ('+' :: y) :: rest <:+
      Text.lines (render expected actual).toList :=
    ⟨front, by rw [← heq, List.append_assoc]; rfl⟩
  by_cases hne : expected = actual
  · rw [(render_eq_identical_iff expected actual).mpr hne] at hsuffix
    have hmem : hunkTitle n ∈ ["[identical]".toList] := hsuffix.subset List.mem_cons_self
    exact absurd (List.mem_singleton.mp hmem).symm (ne_hunkTitle (by decide) _ n)
  · rw [lines_render (firstDifference_of_ne hne), diffLines] at hsuffix
    have hhunks := suffix_of_suffix_append (hunkTitle_not_mem_headerLines n _) hsuffix
    rcases exists_of_suffix_hunks hhunks with ⟨i, hi, rfl, s, t, hs, ht, hx, hy⟩
    have hdiffer := mem_differing.mp hi
    rw [hs, ht] at hdiffer
    rw [Nat.add_sub_cancel_left]
    exact ⟨by omega, s, t, hs, ht, fun hst => hdiffer (congrArg some hst), hx, hy⟩

/-- A hunk with two lines shows two different lines of the texts, and shows them as the same text
exactly if they are equal but for control characters that are spelled as their escapes. Of such
lines one holds a backslash. -/
theorem hunk_showsAlike_iff (expected actual : String) :
    (∀ n x y, [hunkTitle n, '-' :: x, '+' :: y] <:+: Text.lines (render expected actual).toList →
      0 < n ∧ ∃ s t, (expected.toList.splitOn '\n')[n - 1]? = some s ∧
        (actual.toList.splitOn '\n')[n - 1]? = some t ∧ s ≠ t ∧ x = visible s ∧ y = visible t ∧
        (x = y ↔ ShownAlike s t)) ∧
      (∀ s t, visible s = visible t ↔ ShownAlike s t) ∧
      ∀ s t, ShownAlike s t → s = t ∨ '\\' ∈ s ∨ '\\' ∈ t := by
  refine ⟨?_, fun s t => visible_eq_iff, ?_⟩
  · intro n x y h
    rcases exists_of_infix_render h with ⟨hn, s, t, hs, ht, hne, rfl, rfl⟩
    rw [Text.splitLines_eq_splitOn] at hs ht
    exact ⟨hn, s, t, hs, ht, hne, rfl, rfl, visible_eq_iff⟩
  · intro s t h
    by_cases hs : '\\' ∈ s
    · exact Or.inr (Or.inl hs)
    · by_cases ht : '\\' ∈ t
      · exact Or.inr (Or.inr ht)
      · exact Or.inl (h.eq_of_not_mem hs ht)

/-- The hunk for a tab where its escape is expected. -/
theorem shown_spelledTab :
    [hunkTitle 1, "-\"a\\tb\"".toList, "+\"a\\tb\"".toList] <:+:
      Text.lines (render "\"a\\tb\"" "\"a\tb\"").toList :=
  ⟨headerLines 2, [], by rw [lines_render (firstDifference_of_ne (by decide))]; rfl⟩

theorem hunk_showsAlike_iff_spelledTab :
    [hunkTitle 1, "-\"a\\tb\"".toList, "+\"a\\tb\"".toList] <:+:
        Text.lines (render "\"a\\tb\"" "\"a\tb\"").toList ∧
      (0 < 1 ∧ ∃ s t, ("\"a\\tb\"".toList.splitOn '\n')[0]? = some s ∧
        ("\"a\tb\"".toList.splitOn '\n')[0]? = some t ∧ s ≠ t ∧
        "\"a\\tb\"".toList = visible s ∧ "\"a\\tb\"".toList = visible t ∧
        ("\"a\\tb\"".toList = "\"a\\tb\"".toList ↔ ShownAlike s t)) ∧
      ShownAlike ['\\', 't'] ['\t'] ∧
      (['\\', 't'] = ['\t'] ∨ '\\' ∈ ['\\', 't'] ∨ '\\' ∈ ['\t']) := by
  have halike : ShownAlike ['\\', 't'] ['\t'] := ShownAlike.right (c := '\t') rfl .nil
  rcases hunk_showsAlike_iff "\"a\\tb\"" "\"a\tb\"" with ⟨hhunk, _, hback⟩
  exact ⟨shown_spelledTab, hhunk 1 _ _ shown_spelledTab, halike, hback _ _ halike⟩

/-- Not every hunk shows its two lines as different texts. -/
theorem not_forall_hunk_showsApart :
    ¬ ∀ (expected actual : String) (n : Nat) (x y : List Char),
      [hunkTitle n, '-' :: x, '+' :: y] <:+: Text.lines (render expected actual).toList → x ≠ y :=
  fun h => h "\"a\\tb\"" "\"a\tb\"" 1 _ _ shown_spelledTab rfl

end Diff
end FormatCheck
