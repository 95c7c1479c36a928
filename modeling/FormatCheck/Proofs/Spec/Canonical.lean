import FormatCheck.Proofs.Numeral
import FormatCheck.Proofs.Spec.Defect

/-!
# Canonical specifiers

The canonical text of a specifier differs from the text it was read from in the zeros before its
numbers, and nothing else. Shorter numbers could move an alignment character towards the front,
where it would be read as an alignment; `longest_canonical` says that this never happens, since
without a `0` flag or a fill no width begins with a zero.
-/

namespace FormatCheck
namespace Spec

open Text (Stops)

/-! ## Texts that agree up to digits -/

/-- In each of the first `n` places the texts have the same character, or both have a digit. -/
def AgreeUpTo (n : Nat) (s t : List Char) : Prop :=
  ∀ i < n, s[i]? = t[i]? ∨ (∃ c ∈ s[i]?, c.isDigit = true) ∧ ∃ c ∈ t[i]?, c.isDigit = true

namespace AgreeUpTo

variable {n : Nat} {s t : List Char}

theorem refl (n : Nat) (s : List Char) : AgreeUpTo n s s := by
  intro i _
  exact Or.inl rfl

theorem mono {m : Nat} (hmn : m ≤ n) (h : AgreeUpTo n s t) : AgreeUpTo m s t := by
  intro i hi
  exact h i (Nat.lt_of_lt_of_le hi hmn)

theorem cons (c : Char) (h : AgreeUpTo n s t) : AgreeUpTo (n + 1) (c :: s) (c :: t) := by
  intro i hi
  cases i with
  | zero => exact Or.inl rfl
  | succ i => simpa using h i (Nat.lt_of_succ_lt_succ hi)

theorem append (a : List Char) (h : AgreeUpTo n s t) : AgreeUpTo n (a ++ s) (a ++ t) := by
  induction a with
  | nil => exact h
  | cons c a ih => exact mono (Nat.le_succ n) (cons c ih)

/-- Runs of digits agree in the first place if both are there or both are missing. -/
theorem run_append {run run' : List Char} (hrun : ∀ c ∈ run, c.isDigit = true)
    (hrun' : ∀ c ∈ run', c.isDigit = true) (hnil : run' = [] ↔ run = []) (h : AgreeUpTo 1 s t) :
    AgreeUpTo 1 (run ++ s) (run' ++ t) := by
  cases run with
  | nil =>
      have hnil' : run' = [] := hnil.mpr rfl
      simpa [hnil'] using h
  | cons c run =>
      cases run' with
      | nil => simp at hnil
      | cons c' run' =>
          intro i hi
          -- Only the first place counts, and both texts have a digit there.
          have hzero : i = 0 := Nat.lt_one_iff.mp hi
          subst hzero
          exact Or.inr ⟨⟨c, rfl, hrun c List.mem_cons_self⟩, ⟨c', rfl, hrun' c' List.mem_cons_self⟩⟩

/-- A class without digits is met at the same places. -/
theorem stops_drop {p : Char → Bool} (hp : ∀ c, c.isDigit = true → p c = false)
    (h : AgreeUpTo n s t) {i : Nat} (hi : i < n) (hs : Stops p (s.drop i)) : Stops p (t.drop i) := by
  intro c hc
  rw [List.head?_drop] at hc
  rcases h i hi with heq | ⟨_, c', hc', hdigit⟩
  · exact hs c (by rw [List.head?_drop, heq]; exact hc)
  · have hcc' : c = c' := Option.some.inj (hc.symm.trans hc')
    exact hp c (hcc' ▸ hdigit)

theorem stops {p : Char → Bool} (hp : ∀ c, c.isDigit = true → p c = false)
    (h : AgreeUpTo (n + 1) s t) (hs : Stops p s) : Stops p t :=
  stops_drop hp h (Nat.succ_pos n) hs

end AgreeUpTo

/-! ## Canonical runs -/

/-- A run of digits without its leading zeros. -/
def canonicalRun (run : List Char) : List Char :=
  if run = [] then [] else Numeral.decimal (Numeral.readDecimal run)

theorem canonicalRun_eq_nil_iff (run : List Char) : canonicalRun run = [] ↔ run = [] := by
  by_cases h : run = []
  · simp [canonicalRun, h]
  · simp [canonicalRun, h, Numeral.decimal_ne_nil]

theorem isDigit_of_mem_canonicalRun {run : List Char} {c : Char} (hc : c ∈ canonicalRun run) :
    c.isDigit = true := by
  by_cases h : run = []
  · simp [canonicalRun, h] at hc
  · rw [canonicalRun, if_neg h] at hc
    exact Numeral.isDigit_of_mem_decimal hc

@[simp] theorem readDecimal_canonicalRun (run : List Char) :
    Numeral.readDecimal (canonicalRun run) = Numeral.readDecimal run := by
  by_cases h : run = []
  · simp [canonicalRun, h]
  · simp [canonicalRun, h, Numeral.readDecimal_decimal]

@[simp] theorem runValue?_canonicalRun (run : List Char) :
    runValue? (canonicalRun run) = runValue? run := by
  simp [runValue?, canonicalRun_eq_nil_iff]

theorem canonicalRun_eq_self {run : List Char} (hrun : ∀ c ∈ run, c.isDigit = true)
    (hzero : run.head? ≠ some '0') : canonicalRun run = run := by
  by_cases h : run = []
  · simp [canonicalRun, h]
  · rw [canonicalRun, if_neg h, Numeral.decimal_readDecimal h hrun hzero]

/-- The canonical text of a number is the canonical form of every run of its value. -/
theorem getD_decimal_runValue? (run : List Char) :
    ((runValue? run).map Numeral.decimal).getD [] = canonicalRun run := by
  by_cases h : run = []
  · simp [runValue?, canonicalRun, h]
  · simp [runValue?, canonicalRun, h]

/-! ## Characters that are no digits -/

theorem not_accepts_align {c : Char} (hc : c.isDigit = true) : accepts Align.ofChar? c = false := by
  cases h : Align.ofChar? c with
  | none => simp [accepts, h]
  | some a =>
      have ha : a.toChar = c := Align.ofChar?_eq_some_iff.mp h
      cases a <;> exact absurd (ha ▸ hc) (by decide)

theorem not_accepts_sign {c : Char} (hc : c.isDigit = true) : accepts Sign.ofChar? c = false := by
  cases h : Sign.ofChar? c with
  | none => simp [accepts, h]
  | some a =>
      have ha : a.toChar = c := Sign.ofChar?_eq_some_iff.mp h
      cases a <;> exact absurd (ha ▸ hc) (by decide)

theorem ne_hash_of_isDigit {c : Char} (hc : c.isDigit = true) : (c == '#') = false := by
  refine beq_false_of_ne ?_
  rintro rfl
  exact absurd hc (by decide)

/-! ## Canonical cuts -/

namespace Cut

variable {cut : Cut}

/-- The cut of the canonical text: the runs of digits without leading zeros. -/
def canonical (cut : Cut) : Cut :=
  { cut with
    width := canonicalRun cut.width
    precision := cut.precision.map canonicalRun }

theorem spec_canonical (cut : Cut) : cut.canonical.spec = cut.spec := by
  cases h : cut.precision with
  | none => simp [spec, canonical, h]
  | some run => simp [spec, canonical, h]

theorem Sound.canonical (h : cut.Sound) : cut.canonical.Sound where
  width_lt := by simpa [Cut.canonical] using h.width_lt
  separators_le := h.separators_le
  precision_ne_nil := by
    intro run hrun
    rcases Option.map_eq_some_iff.mp hrun with ⟨run', hrun', rfl⟩
    exact mt (canonicalRun_eq_nil_iff run').mp (h.precision_ne_nil run' hrun')
  precision_lt := by
    intro run hrun
    rcases Option.map_eq_some_iff.mp hrun with ⟨run', hrun', rfl⟩
    simpa using h.precision_lt run' hrun'
  rest_le := h.rest_le

/-! What follows each part of the canonical cut, compared with the cut itself. -/

theorem head?_afterSeparators (cut : Cut) :
    cut.canonical.afterSeparators.head? = cut.afterSeparators.head? := by
  cases h : cut.precision with
  | none => simp [afterSeparators, canonical, pointText, h]
  | some run => simp [afterSeparators, canonical, pointText, h]

theorem head?_afterWidth (cut : Cut) :
    cut.canonical.afterWidth.head? = cut.afterWidth.head? := by
  have hsame : cut.canonical.separators = cut.separators := rfl
  cases h : cut.separators with
  | nil => simp [afterWidth, hsame, h, head?_afterSeparators]
  | cons g others => simp [afterWidth, hsame, h]

theorem agreeUpTo_afterSeparators (hlongest : cut.Longest) :
    AgreeUpTo 2 cut.afterSeparators cut.canonical.afterSeparators := by
  -- The point, if there is one, keeps its place, so only the digits after it can differ.
  cases h : cut.precision with
  | none =>
      simpa [afterSeparators, canonical, pointText, h] using AgreeUpTo.refl 2 cut.rest
  | some run =>
      have hrun := AgreeUpTo.run_append (hlongest.precision_digits run h)
        (fun c => isDigit_of_mem_canonicalRun) (canonicalRun_eq_nil_iff run)
        (AgreeUpTo.refl 1 cut.rest)
      simpa [afterSeparators, canonical, pointText, h] using hrun.cons '.'

theorem agreeUpTo_afterWidth (hlongest : cut.Longest) :
    AgreeUpTo 2 cut.afterWidth cut.canonical.afterWidth :=
  (agreeUpTo_afterSeparators hlongest).append _

theorem agreeUpTo_afterZeroPad (hlongest : cut.Longest) :
    AgreeUpTo 1 cut.afterZeroPad cut.canonical.afterZeroPad :=
  AgreeUpTo.run_append hlongest.width_digits (fun c => isDigit_of_mem_canonicalRun)
    (canonicalRun_eq_nil_iff cut.width) ((agreeUpTo_afterWidth hlongest).mono (by decide))

/-- Without a flag or a fill the width does not begin with a zero, so it is canonical already. -/
theorem canonical_width (hlongest : cut.Longest) (hfill : cut.fill = none)
    (hzero : cut.zeroPad = false) : canonicalRun cut.width = cut.width := by
  refine canonicalRun_eq_self hlongest.width_digits ?_
  intro hhead
  have hstops := hlongest.no_zeroPad hfill hzero '0' (by simp [afterZeroPad, hhead])
  simp at hstops

theorem agreeUpTo_afterAlternate (hlongest : cut.Longest) (hfill : cut.fill = none) :
    AgreeUpTo 2 cut.afterAlternate cut.canonical.afterAlternate := by
  -- Two places are as far as an alignment is looked for. A flag is the first of them; without a
  -- flag the width is the same digit for digit.
  cases hzero : cut.zeroPad with
  | true =>
      simpa [afterAlternate, canonical, flagText, hzero] using
        (agreeUpTo_afterZeroPad hlongest).cons '0'
  | false =>
      have hwidth := canonical_width hlongest hfill hzero
      have hafter := (agreeUpTo_afterWidth hlongest).append cut.width
      simpa [afterAlternate, afterZeroPad, hwidth, canonical, flagText, hzero] using hafter

theorem agreeUpTo_text (hlongest : cut.Longest) (hfill : cut.fill = none) :
    AgreeUpTo 2 cut.text cut.canonical.text := by
  have hsign := ((agreeUpTo_afterAlternate hlongest hfill).append
    (flagText '#' cut.alternate)).append (cut.sign.map Sign.toChar).toList
  exact hsign.append (cut.fill.toList ++ (cut.align.map Align.toChar).toList)

/-- Dropping leading zeros leaves every part as long as it can be. -/
theorem Longest.canonical (h : cut.Longest) : cut.canonical.Longest := by
  have hzeroPad := agreeUpTo_afterZeroPad h
  have halternate : AgreeUpTo 1 cut.afterAlternate cut.canonical.afterAlternate :=
    hzeroPad.append _
  have hsign : AgreeUpTo 1 cut.afterSign cut.canonical.afterSign := halternate.append _
  refine
    { align_of_fill := h.align_of_fill
      no_fill := ?_
      no_align := ?_
      -- Digits are neither signs nor `#`, so the first place decides as it did.
      no_sign := fun hnone => hsign.stops (fun _ => not_accepts_sign) (h.no_sign hnone)
      no_alternate := fun hfalse =>
        halternate.stops (fun _ => ne_hash_of_isDigit) (h.no_alternate hfalse)
      no_zeroPad := ?_
      zeroPad_of_fill := h.zeroPad_of_fill
      width_digits := fun _ => isDigit_of_mem_canonicalRun
      width_end := h.width_end.of_head?_eq (head?_afterWidth cut)
      separators_end := h.separators_end.of_head?_eq (head?_afterSeparators cut)
      no_precision := fun hnone => h.no_precision (Option.map_eq_none_iff.mp hnone)
      precision_digits := ?_
      precision_end := fun hsome => h.precision_end (by simpa [Cut.canonical] using hsome) }
  · intro hfill
    exact (agreeUpTo_text h hfill).stops_drop (fun _ => not_accepts_align) (by decide)
      (h.no_fill hfill)
  · intro halign
    -- Without an alignment there is no fill, and the text agrees in its first place.
    have hfill : cut.fill = none := by
      cases hfill : cut.fill with
      | none => rfl
      | some f =>
          have hsome : cut.align.isSome := h.align_of_fill (by simp [hfill])
          rw [show cut.align = none from halign] at hsome
          cases hsome
    exact (agreeUpTo_text h hfill).stops (fun _ => not_accepts_align) (h.no_align halign)
  · intro hfill hfalse
    have hwidth := canonical_width h hfill hfalse
    refine (h.no_zeroPad hfill hfalse).of_head?_eq ?_
    have hsame : cut.canonical.width = cut.width := hwidth
    simp only [afterZeroPad, hsame, List.head?_append, head?_afterWidth]
  · intro run hrun
    rcases Option.map_eq_some_iff.mp hrun with ⟨run', _, rfl⟩
    exact fun _ => isDigit_of_mem_canonicalRun

/-- The canonical text of the specifier of a sound longest cut. -/
theorem print_spec (hlongest : cut.Longest) (hsound : cut.Sound) :
    cut.spec.print = cut.canonical.text := by
  have hfill : (if cut.spec.align.isSome then cut.spec.fill.toList else []) = cut.fill.toList := by
    cases h : cut.fill with
    | none => simp [spec, h]
    | some f => simp [spec, h, hlongest.align_of_fill (by simp [h])]
  have hwidth := getD_decimal_runValue? cut.width
  have hprecision : ((cut.precision.bind runValue?).map fun p => '.' :: Numeral.decimal p).getD [] =
      pointText (cut.precision.map canonicalRun) := by
    cases h : cut.precision with
    | none => rfl
    | some run =>
        have hnil : run ≠ [] := hsound.precision_ne_nil run h
        simp [pointText, runValue?, canonicalRun, hnil]
  rw [print, hfill]
  simp only [spec, hwidth, hsound.separators_eq, hprecision, hsound.rest_eq, text, afterAlign,
    afterSign, afterAlternate, afterZeroPad, afterWidth, afterSeparators, canonical, flagText,
    List.append_assoc]
  rfl

end Cut

/-- A specifier that was read is read again from its canonical text. -/
theorem parse_print {typeName text : String} {spec : Spec} (h : parse typeName text = .ok spec)
    (typeName' : String) : parse typeName' (String.ofList spec.print) = .ok spec := by
  rcases Cut.parse_eq_ok_iff.mp h with ⟨cut, _, hlongest, hsound, rfl⟩
  -- The canonical cut is the longest cut of the canonical text, and it is sound.
  refine Cut.parse_eq_ok_iff.mpr ⟨cut.canonical, ?_, hlongest.canonical, hsound.canonical, ?_⟩
  · rw [Cut.print_spec hlongest hsound, String.toList_ofList]
  · exact Cut.spec_canonical cut

end Spec
end FormatCheck
