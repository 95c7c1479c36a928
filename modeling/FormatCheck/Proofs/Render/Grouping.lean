import FormatCheck.Render.Padding

/-!
# Grouped digits

`grouped` says where separators stand: after every digit that whole groups follow, which are the
places of `SeparatorAt` counted from the right (`getElem?_reverse_grouped`). What `insertGrouping`
writes are the digits grouped in this way behind zeros, as many as the width asks for and no more
(`exists_insertGrouping`). So once the separators are dropped, the digits stand at the end, with
zeros alone before them.
-/

namespace FormatCheck
namespace Render

variable {separator : Char} {size : Nat} {digits : List Char} {p : Char → Bool}

/-! ## Places of separators -/

/-- The digits with a separator after each that whole groups follow. -/
def grouped (separator : Char) (size : Nat) : List Char → List Char
  | [] => []
  | d :: ds =>
    if ds ≠ [] ∧ ds.length % size = 0 then d :: separator :: grouped separator size ds
    else d :: grouped separator size ds

/-- Whether a separator stands at a place, counted from the right and from one. -/
def SeparatorAt (size place : Nat) : Prop := place % (size + 1) = 0

instance (size place : Nat) : Decidable (SeparatorAt size place) :=
  inferInstanceAs (Decidable (place % (size + 1) = 0))

/-- The number of characters of so many digits when they are grouped. -/
def groupedLength (size count : Nat) : Nat := count + (count - 1) / size

/-- One digit more takes one character more, and the separator after it where whole groups follow. -/
theorem groupedLength_succ (size : Nat) {count : Nat} (hcount : 0 < count) :
    groupedLength size (count + 1) =
      groupedLength size count + (if count % size = 0 then 2 else 1) := by
  obtain ⟨n, rfl⟩ : ∃ n, count = n + 1 := ⟨count - 1, by omega⟩
  have hdiv : (n + 1) / size = n / size + if (n + 1) % size = 0 then 1 else 0 := by
    rw [Nat.succ_div]
    simp only [Nat.dvd_iff_mod_eq_zero]
  simp only [groupedLength, Nat.add_sub_cancel, hdiv]
  split <;> omega

theorem groupedLength_of_le {count : Nat} (hcount : count ≤ size) :
    groupedLength size count = count := by
  have hdiv : (count - 1) / size = 0 := by
    rcases Nat.eq_zero_or_pos count with rfl | hpos
    · simp
    · exact Nat.div_eq_of_lt (by omega)
  rw [groupedLength, hdiv, Nat.add_zero]

/-- A whole group at the end takes up its digits and a separator. -/
theorem groupedLength_add (hsize : 0 < size) {count : Nat} (hcount : 0 < count) :
    groupedLength size (size + count) = size + 1 + groupedLength size count := by
  have hpred : size + count - 1 = (count - 1) + size := by omega
  rw [groupedLength, groupedLength, hpred, Nat.add_div_right _ hsize]
  omega

/-- Whole groups with their separators, and the digits before them with the first one. -/
theorem groupedLength_succ_eq (size count : Nat) :
    groupedLength size (count + 1) = count % size + 1 + (size + 1) * (count / size) := by
  have hcount : size * (count / size) + count % size = count := Nat.div_add_mod count size
  rw [groupedLength, Nat.add_sub_cancel, Nat.add_mul]
  omega

/-- No separator stands first. -/
theorem not_separatorAt_groupedLength (hsize : 0 < size) {count : Nat} (hcount : 0 < count) :
    ¬SeparatorAt size (groupedLength size count) := by
  obtain ⟨n, rfl⟩ : ∃ n, count = n + 1 := ⟨count - 1, by omega⟩
  have hlt : n % size < size := Nat.mod_lt n hsize
  rw [SeparatorAt, groupedLength_succ_eq, Nat.add_mul_mod_self_left, Nat.mod_eq_of_lt (by omega)]
  exact Nat.succ_ne_zero _

@[simp] theorem grouped_singleton (separator : Char) (size : Nat) (d : Char) :
    grouped separator size [d] = [d] := by
  simp [grouped]

theorem grouped_cons (separator : Char) (size : Nat) (d : Char) {ds : List Char} (hds : ds ≠ []) :
    grouped separator size (d :: ds) =
      d :: ((if ds.length % size = 0 then [separator] else []) ++ grouped separator size ds) := by
  rw [grouped]
  by_cases hwhole : ds.length % size = 0
  · simp [hds, hwhole]
  · simp [hwhole]

theorem length_grouped (separator : Char) (size : Nat) (ds : List Char) :
    (grouped separator size ds).length = groupedLength size ds.length := by
  induction ds with
  | nil => simp [grouped, groupedLength]
  | cons d ds ih =>
      by_cases hds : ds = []
      · simp [hds, groupedLength]
      · rw [grouped_cons separator size d hds, List.length_cons, List.length_cons,
          groupedLength_succ size (List.length_pos_iff.mpr hds), List.length_append, ih]
        split
        · simp only [List.length_cons, List.length_nil]
          omega
        · simp only [List.length_nil]
          omega

/-- At most one group has no separator. -/
theorem grouped_of_length_le (separator : Char) {ds : List Char} (hds : ds.length ≤ size) :
    grouped separator size ds = ds := by
  induction ds with
  | nil => rfl
  | cons d ds ih =>
      have hlt : ds.length < size := hds
      have hpartial : ¬(ds ≠ [] ∧ ds.length % size = 0) := by
        rintro ⟨hne, hmod⟩
        rw [Nat.mod_eq_of_lt hlt] at hmod
        exact hne (List.length_eq_zero_iff.mp hmod)
      rw [grouped, if_neg hpartial, ih (Nat.le_of_lt hlt)]

/-- A whole group at the end stands behind a separator. -/
theorem grouped_append (separator : Char) (hsize : 0 < size) {ds chunk : List Char} (hds : ds ≠ [])
    (hchunk : chunk.length = size) :
    grouped separator size (ds ++ chunk) = grouped separator size ds ++ separator :: chunk := by
  have hne : chunk ≠ [] := List.length_pos_iff.mp (hchunk.symm ▸ hsize)
  induction ds with
  | nil => exact absurd rfl hds
  | cons d ds ih =>
      have hmod : (ds ++ chunk).length % size = ds.length % size := by
        rw [List.length_append, hchunk, Nat.add_mod_right]
      rw [List.cons_append, grouped_cons separator size d (by simp [hne]), hmod]
      by_cases hnil : ds = []
      · simp [hnil, grouped_of_length_le separator (Nat.le_of_eq hchunk)]
      · rw [ih hnil, grouped_cons separator size d hnil]
        simp

/-! ## What is written -/

/-- Without its separators a grouped text is its digits. -/
theorem filter_grouped (hseparator : p separator = false) {ds : List Char}
    (hds : ∀ d ∈ ds, p d = true) : (grouped separator size ds).filter p = ds := by
  induction ds with
  | nil => rfl
  | cons d ds ih =>
      have hd : p d = true := hds d List.mem_cons_self
      have hrest := ih fun e he => hds e (List.mem_cons_of_mem d he)
      by_cases hnil : ds = []
      · simp [hnil, hd]
      · rw [grouped_cons separator size d hnil, List.filter_cons_of_pos hd, List.filter_append, hrest]
        split <;> simp [hseparator]

theorem head?_grouped (separator : Char) (size : Nat) (ds : List Char) :
    (grouped separator size ds).head? = ds.head? := by
  cases ds with
  | nil => rfl
  | cons d ds =>
      rw [grouped]
      split <;> rfl

theorem getLast?_grouped (separator : Char) (size : Nat) (ds : List Char) :
    (grouped separator size ds).getLast? = ds.getLast? := by
  induction ds with
  | nil => rfl
  | cons d ds ih =>
      by_cases hnil : ds = []
      · simp [hnil]
      · rw [grouped_cons separator size d hnil, List.getLast?_cons, List.getLast?_append, ih,
          List.getLast?_cons, List.getLast?_eq_some_getLast hnil]
        rfl

/-- Whole groups are taken off the end of long digits. -/
theorem exists_front_of_size_lt {ds : List Char} (hlong : size < ds.length) :
    ∃ front chunk, ds = front ++ chunk ∧ front ≠ [] ∧ chunk.length = size := by
  refine ⟨ds.take (ds.length - size), ds.drop (ds.length - size), ?_, ?_, ?_⟩
  · exact (List.take_append_drop _ ds).symm
  · refine List.length_pos_iff.mp ?_
    rw [List.length_take]
    omega
  · rw [List.length_drop]
    omega

/-- From the right, a separator stands at the places of separators, and at every other place the
digit that as many digits follow. -/
theorem getElem?_reverse_grouped (separator : Char) (hsize : 0 < size) (ds : List Char) {i : Nat}
    (hi : i < (grouped separator size ds).length) :
    (grouped separator size ds).reverse[i]? =
      if SeparatorAt size (i + 1) then some separator else ds.reverse[i - i / (size + 1)]? := by
  -- The group at the right end is read off, and what stands before its separator is shorter.
  induction hn : ds.length using Nat.strongRecOn generalizing ds i with
  | _ n ih =>
      have hfirst (h : i < size) : ¬SeparatorAt size (i + 1) ∧ i / (size + 1) = 0 := by
        rw [SeparatorAt, Nat.mod_eq_of_lt (by omega), Nat.div_eq_of_lt (by omega)]
        omega
      rcases Nat.lt_or_ge size ds.length with hlong | hshort
      · rcases exists_front_of_size_lt hlong with ⟨front, chunk, rfl, hfront, hchunk⟩
        rw [grouped_append separator hsize hfront hchunk] at hi ⊢
        rw [List.reverse_append, List.reverse_append, List.reverse_cons, List.append_assoc]
        rcases Nat.lt_trichotomy i size with hlt | heq | hgt
        · rw [if_neg (hfirst hlt).1, (hfirst hlt).2, Nat.sub_zero,
            List.getElem?_append_left (by simpa [hchunk] using hlt),
            List.getElem?_append_left (by simpa [hchunk] using hlt)]
        · have hseparator : SeparatorAt size (i + 1) := heq ▸ Nat.mod_self _
          rw [if_pos hseparator, List.getElem?_append_right (by simp [hchunk, heq])]
          simp [hchunk, heq]
        · obtain ⟨j, rfl⟩ : ∃ j, i = size + 1 + j := ⟨i - (size + 1), by omega⟩
          have hj : j < (grouped separator size front).length := by
            simp [hchunk] at hi
            omega
          have hplace := ih front.length (by simp at hn; omega) front hj rfl
          have hseparator : SeparatorAt size (size + 1 + j + 1) = SeparatorAt size (j + 1) := by
            rw [SeparatorAt, SeparatorAt, Nat.add_assoc _ j, Nat.add_mod_left]
          have hdigit : size + 1 + j - (size + 1 + j) / (size + 1) =
              size + (j - j / (size + 1)) := by
            have hle : j / (size + 1) ≤ j := Nat.div_le_self j _
            rw [Nat.add_div_left j (Nat.succ_pos size), Nat.succ_eq_add_one]
            omega
          have hbehind : (chunk.reverse ++ [separator]).length = size + 1 := by simp [hchunk]
          simp only [hseparator, hdigit]
          rw [← List.append_assoc, List.getElem?_append_right (by omega), hbehind,
            Nat.add_sub_cancel_left, hplace, List.getElem?_append_right (by simp [hchunk]),
            List.length_reverse, hchunk, Nat.add_sub_cancel_left]
      · rw [grouped_of_length_le separator hshort] at hi ⊢
        have hlt : i < size := Nat.lt_of_lt_of_le hi hshort
        rw [if_neg (hfirst hlt).1, (hfirst hlt).2, Nat.sub_zero]

/-! ## Zeros up to a width -/

/-- With so many zeros before them some digits reach a width, and with fewer they do not. There is a
digit at any rate. -/
structure FewestZeros (size count : Nat) (minWidth : Int) (zeros : Nat) : Prop where
  digit : 0 < zeros + count
  reaches : minWidth ≤ groupedLength size (zeros + count)
  fewest : ∀ fewer < zeros, 0 < fewer + count → groupedLength size (fewer + count) < minWidth

/-- A group filled up with zeros and the digits left over are the digits, but for zeros after them. -/
theorem take_append_zeros_append_drop (count zeros : Nat) (digits : List Char) :
    digits.take count ++ List.replicate (count - digits.length) '0' ++
        (digits.drop count ++ List.replicate zeros '0') =
      digits ++ List.replicate (count - digits.length + zeros) '0' := by
  rcases Nat.le_total count digits.length with hlong | hshort
  · -- The group is full, so it has no zeros of its own.
    have hnone : count - digits.length = 0 := Nat.sub_eq_zero_of_le hlong
    rw [hnone, List.replicate_zero, List.append_nil, ← List.append_assoc, List.take_append_drop,
      Nat.zero_add]
  · have htake : digits.take count = digits := List.take_of_length_le hshort
    have hdrop : digits.drop count = [] := List.drop_eq_nil_of_le hshort
    rw [htake, hdrop, List.nil_append, List.append_assoc, List.replicate_append_replicate]

/-- At most one group has a digit for each character. -/
theorem fewestZeros_of_le {count shown : Nat} {minWidth : Int} (hgroup : shown ≤ size)
    (hdigits : count ≤ shown) (hwidth : max minWidth 1 ≤ shown)
    (hfewest : count < shown → shown ≤ max minWidth 1) :
    FewestZeros size count minWidth (shown - count) := by
  have hsum : shown - count + count = shown := Nat.sub_add_cancel hdigits
  refine ⟨by omega, ?_, ?_⟩
  · rw [hsum, groupedLength_of_le hgroup]
    omega
  · intro fewer hfewer hpos
    rw [groupedLength_of_le (by omega)]
    omega

/-- A group behind further ones counts its digits and the separator before it. -/
theorem FewestZeros.add (hsize : 0 < size) {count zeros : Nat} {minWidth : Int}
    (h : FewestZeros size (count - size) (minWidth - size - 1) zeros)
    (hmore : size < count ∨ size < minWidth) :
    FewestZeros size count minWidth (size - count + zeros) := by
  have hdigit := h.digit
  have hsum : size - count + zeros + count = size + (zeros + (count - size)) := by omega
  refine ⟨by omega, ?_, ?_⟩
  · have hreaches := h.reaches
    rw [hsum, groupedLength_add hsize hdigit]
    omega
  · intro fewer hfewer hpos
    rcases Nat.lt_or_ge size (fewer + count) with hlong | hshort
    · have hless : fewer + count = size + (fewer - (size - count) + (count - size)) := by omega
      have hfewest := h.fewest (fewer - (size - count)) (by omega) (by omega)
      rw [hless, groupedLength_add hsize (by omega)]
      omega
    · rw [groupedLength_of_le hshort]
      omega

/-- Zeros make up for the digits that a group lacks. -/
theorem length_group (digits : List Char) (count : Nat) :
    (digits.take count ++ List.replicate (count - digits.length) '0').length = count := by
  rw [List.length_append, List.length_take, List.length_replicate]
  omega

/-- The digits given from the right come out grouped, with the fewest zeros before them that reach
the width. -/
theorem exists_groupReversed (separator : Char) (hsize : 0 < size) (digits : List Char)
    (minWidth : Int) :
    ∃ zeros, FewestZeros size digits.length minWidth zeros ∧
      (groupReversed separator size digits minWidth).reverse =
        grouped separator size (List.replicate zeros '0' ++ digits.reverse) := by
  fun_induction groupReversed separator size digits minWidth with
  | case1 digits minWidth count chunk missing hlast =>
      have hfull : chunk.reverse.length ≤ size := by
        rw [List.length_reverse, length_group]
        omega
      have hchunk : chunk.reverse =
          List.replicate (count - digits.length) '0' ++ digits.reverse := by
        simp only [chunk]
        rw [List.take_of_length_le hlast.1, List.reverse_append, List.reverse_replicate]
      refine ⟨count - digits.length, fewestZeros_of_le (by omega) hlast.1 (by omega) (by omega), ?_⟩
      rw [← hchunk, grouped_of_length_le separator hfull]
  | case2 digits minWidth count chunk missing hmore ih =>
      have hcount : count = size := by omega
      have hlength : chunk.reverse.length = size := by
        rw [List.length_reverse, length_group, hcount]
      have hmissing : missing = minWidth - size := by omega
      rcases ih with ⟨zeros, hzeros, hrest⟩
      rw [List.length_drop, hcount, hmissing] at hzeros
      refine ⟨size - digits.length + zeros, hzeros.add hsize (by omega), ?_⟩
      have hne : List.replicate zeros '0' ++ (digits.drop count).reverse ≠ [] := by
        have hdigit := hzeros.digit
        refine List.length_pos_iff.mp ?_
        simp only [List.length_append, List.length_replicate, List.length_reverse, List.length_drop]
        omega
      have hsum : List.replicate zeros '0' ++ (digits.drop count).reverse ++ chunk.reverse =
          List.replicate (size - digits.length + zeros) '0' ++ digits.reverse := by
        simpa [chunk, hcount] using
          congrArg List.reverse (take_append_zeros_append_drop size zeros digits)
      rw [List.reverse_append, List.reverse_cons, hrest, List.append_assoc, List.singleton_append,
        ← grouped_append separator hsize hne hlength, hsum]

/-- Inserting separators groups the digits behind the fewest zeros that reach the width. -/
theorem exists_insertGrouping (separator : Char) (hsize : 0 < size) (digits : List Char)
    (minWidth : Int) :
    ∃ zeros, FewestZeros size digits.length minWidth zeros ∧
      insertGrouping separator size digits minWidth =
        grouped separator size (List.replicate zeros '0' ++ digits) := by
  simpa [insertGrouping] using exists_groupReversed separator hsize digits.reverse minWidth

/-- What is kept of grouped digits are the digits after any number of zeros. -/
theorem filter_insertGrouping (hseparator : p separator = false) (hzero : p '0' = true)
    (hsize : 0 < size) (hdigits : ∀ c ∈ digits, p c = true) (minWidth : Int) :
    ∃ zeros, (insertGrouping separator size digits minWidth).filter p =
      List.replicate zeros '0' ++ digits := by
  rcases exists_insertGrouping separator hsize digits minWidth with ⟨zeros, _, hshown⟩
  refine ⟨zeros, ?_⟩
  rw [hshown]
  refine filter_grouped hseparator ?_
  intro c hc
  rcases List.mem_append.mp hc with hfill | hdigit
  · exact List.eq_of_mem_replicate hfill ▸ hzero
  · exact hdigits c hdigit

/-! ## Widths -/

variable {count zeros : Nat} {minWidth : Int}

/-- No zeros are needed where the digits alone reach the width. -/
theorem FewestZeros.eq_zero (h : FewestZeros size count minWidth zeros) (hcount : 0 < count)
    (hwidth : minWidth ≤ groupedLength size count) : zeros = 0 := by
  rcases Nat.eq_zero_or_pos zeros with hzero | hpos
  · exact hzero
  · have hfewest := h.fewest 0 hpos (by omega)
    rw [Nat.zero_add] at hfewest
    omega

/-- Zeros bring the digits to the width exactly, or to one character more where a separator would
stand first. -/
theorem FewestZeros.groupedLength_eq {width : Nat} (h : FewestZeros size count width zeros)
    (hsize : 0 < size) (hcount : 0 < count) (hshort : groupedLength size count < width) :
    groupedLength size (zeros + count) = if SeparatorAt size width then width + 1 else width := by
  have hreaches := h.reaches
  have hzeros : 0 < zeros := by
    rcases Nat.eq_zero_or_pos zeros with rfl | hpos
    · rw [Nat.zero_add] at hreaches
      omega
    · exact hpos
  obtain ⟨shown, hshown⟩ : ∃ shown, zeros + count = shown + 1 := ⟨zeros + count - 1, by omega⟩
  have hfewest : (groupedLength size shown : Int) < width := by
    have hone := h.fewest (zeros - 1) (by omega) (by omega)
    rwa [show zeros - 1 + count = shown by omega] at hone
  have hstep := groupedLength_succ size (show 0 < shown by omega)
  have hfirst := not_separatorAt_groupedLength hsize (Nat.succ_pos shown)
  rw [hshown] at hreaches ⊢
  split
  · next hseparator =>
    -- The width itself is no length of grouped digits.
    have hne : groupedLength size (shown + 1) ≠ width := fun heq => hfirst (heq ▸ hseparator)
    split at hstep <;> omega
  · next hplain =>
    split at hstep
    · next hwhole =>
      have hsum := groupedLength_succ_eq size shown
      have hne : width ≠ groupedLength size shown + 1 := by
        intro heq
        refine hplain ?_
        rw [SeparatorAt, show width = (size + 1) * (shown / size) by omega, Nat.mul_mod_right]
      omega
    · omega

end Render
end FormatCheck
