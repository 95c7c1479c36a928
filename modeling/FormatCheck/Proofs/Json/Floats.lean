import FormatCheck.Proofs.Decimal.Layout
import FormatCheck.Proofs.Json.Reading

/-!
# Floats read back

A float is written with digits, signs, a point and an `e`, all above the space, and begins with a
minus or a digit. Where its text alone is read as the float, it is read so wherever it stands:
nothing of it is left over, and what follows a number decides nothing about it.
-/

namespace FormatCheck
namespace Json

/-! ## The text of a float -/

/-- The text has no blank and no character below the space. -/
def Solid (text : List Char) : Prop := ∀ c ∈ text, 0x20 < c.toNat

theorem solid_cons {c : Char} {s : List Char} : Solid (c :: s) ↔ 0x20 < c.toNat ∧ Solid s :=
  List.forall_mem_cons

theorem solid_append {s t : List Char} : Solid (s ++ t) ↔ Solid s ∧ Solid t :=
  List.forall_mem_append

theorem solid_of_digits {s : List Char} (h : ∀ c ∈ s, c.isDigit = true) : Solid s := by
  intro c hc
  have hbounds : 48 ≤ c.toNat ∧ c.toNat ≤ 57 := Char.isDigit_iff_toNat.mp (h c hc)
  omega

theorem Solid.oneLine {text : List Char} (h : Solid text) : OneLine text :=
  fun c hc => Nat.not_lt.mpr (Nat.le_of_lt (h c hc))

theorem Solid.eq_nil_of_skipBlanks {text : List Char} (h : Solid text)
    (hblanks : skipBlanks text = []) : text = [] := by
  cases text with
  | nil =>
      rfl
  | cons c s =>
      have hc : 0x20 < c.toNat := (solid_cons.mp h).1
      have hblank : isBlank c = false := by
        have hother : ∀ d : Char, d.toNat ≤ 0x20 → c ≠ d := by
          rintro d hd rfl
          omega
        simp [isBlank, hother ' ' (by decide), hother '\t' (by decide), hother '\n' (by decide),
          hother '\r' (by decide)]
      rw [skipBlanks_cons hblank] at hblanks
      cases hblanks

theorem solid_pointText (keepPoint : Bool) (whole fraction : List (Fin 10)) :
    Solid (Decimal.pointText keepPoint whole fraction) := by
  have hdigits : ∀ ds, Solid (Decimal.digitText ds) :=
    fun ds => solid_of_digits fun c hc => Decimal.isDigit_of_mem_digitText hc
  unfold Decimal.pointText
  refine solid_append.mpr ⟨hdigits whole, ?_⟩
  split
  · exact List.forall_mem_nil _
  · exact solid_cons.mpr ⟨by decide, hdigits fraction⟩

theorem solid_exponentText (e : Int) : Solid (exponentText e) := by
  refine solid_cons.mpr ⟨by decide, solid_cons.mpr ⟨by split <;> decide, ?_⟩⟩
  exact solid_of_digits fun c hc => Numeral.isDigit_of_mem_decimal hc

/-- Digits are written as a numeral, with an exponent or without. -/
theorem exists_pointText_floatDigits {x : Decimal} (hx : x.digits ≠ []) :
    ∃ keepPoint whole fraction tail, whole ≠ [] ∧ Solid tail ∧
      floatDigits x = Decimal.pointText keepPoint whole fraction ++ tail := by
  have hlength : 0 < x.digits.length := List.length_pos_iff.mpr hx
  unfold floatDigits
  dsimp only
  split
  · generalize hds : Decimal.extend (x.point + 1).toNat x.digits = ds
    have hcount : ds.length = max (x.point + 1).toNat x.digits.length := by
      rw [← hds, Decimal.length_extend]
    have hds : ds ≠ [] := List.length_pos_iff.mp (by omega)
    rcases Decimal.exists_setPoint hds x.point (by omega)
      with ⟨whole, fraction, hwhole, htext, _⟩
    refine ⟨true, whole, fraction, [], hwhole, List.forall_mem_nil _, ?_⟩
    rw [htext, List.append_nil]
    simp [Decimal.pointText]
  · rcases Decimal.exists_setPoint hx 1 (by omega) with ⟨whole, fraction, hwhole, htext, _⟩
    refine ⟨false, whole, fraction, _, hwhole, solid_exponentText (x.point - 1), ?_⟩
    rw [htext, Decimal.dropFinalPoint_eq]

theorem solid_floatText {x : Binary64} {k : Fin Format.binary64.overflowRank}
    (hx : x.magnitude = .finite k) :
    Solid (floatText x) ∧ ∃ c s, floatText x = c :: s ∧ (c = '-' ∨ c.isDigit = true) := by
  rcases exists_pointText_floatDigits (Decimal.digits_shortest_ne_nil .even k)
    with ⟨keepPoint, whole, fraction, tail, hwhole, htail, htext⟩
  have hsolid : Solid (floatDigits (Decimal.shortest .even k)) := by
    rw [htext]
    exact solid_append.mpr ⟨solid_pointText keepPoint whole fraction, htail⟩
  simp only [floatText, hx]
  split
  · exact ⟨solid_cons.mpr ⟨by decide, hsolid⟩, '-', _, rfl, Or.inl rfl⟩
  · rcases List.exists_cons_of_ne_nil hwhole with ⟨d, ds, rfl⟩
    refine ⟨hsolid, Decimal.digitChar d, _, by rw [htext]; rfl, Or.inr ?_⟩
    exact Numeral.isDigit_digitChar d d.isLt

/-! ## What follows a number -/

/-- What is taken off the front of a text is taken off it also where more text follows that does not
go on with a number. -/
def TakesFront {α : Type} (take : List Char → Option (α × List Char)) : Prop :=
  ∀ (s : List Char) (a : α) (rest : List Char), take s = some (a, rest) →
    rest <:+ s ∧ ∀ more, Follows more → take (s ++ more) = some (a, rest ++ more)

theorem takesFront_some {α : Type} (a : α) : TakesFront fun s => some (a, s) := by
  intro s _ _ h
  cases h
  exact ⟨List.suffix_rfl, fun _ _ => rfl⟩

theorem TakesFront.bind {α β : Type} {take : List Char → Option (α × List Char)}
    {next : α → List Char → Option (β × List Char)} (h : TakesFront take)
    (hnext : ∀ a, TakesFront (next a)) :
    TakesFront fun s => (take s).bind fun (a, rest) => next a rest := by
  intro s b rest hboth
  rcases Option.bind_eq_some_iff.mp hboth with ⟨⟨a, middle⟩, htake, hrest⟩
  rcases h _ _ _ htake with ⟨hmiddle, hmore⟩
  rcases hnext a _ _ _ hrest with ⟨hsuffix, hmore'⟩
  refine ⟨hsuffix.trans hmiddle, ?_⟩
  intro more hfollows
  simp only [hmore more hfollows, Option.bind_some]
  exact hmore' more hfollows

theorem takesFront_digits : TakesFront takeDigits? := by
  intro s run rest h
  unfold takeDigits? at h
  dsimp only at h
  split_ifs at h with hrun
  cases h
  refine ⟨List.dropWhile_suffix _, ?_⟩
  intro more hmore
  -- The run ends before the text does, or else where the text to follow begins.
  have hstops : Text.Stops Char.isDigit (s.dropWhile Char.isDigit ++ more) := by
    cases hdrop : s.dropWhile Char.isDigit with
    | nil => exact hmore.not_digit
    | cons c t =>
        have hc := Text.stops_dropWhile Char.isDigit s
        rw [hdrop] at hc
        exact hc.of_head?_eq rfl
  have hdigits : ∀ c ∈ s.takeWhile Char.isDigit, c.isDigit = true :=
    fun _ hc => List.mem_takeWhile_imp hc
  have hsplit : s ++ more =
      s.takeWhile Char.isDigit ++ (s.dropWhile Char.isDigit ++ more) := by
    rw [← List.append_assoc, List.takeWhile_append_dropWhile]
  unfold takeDigits?
  rw [hsplit, Text.takeWhile_run hdigits hstops, Text.dropWhile_run hdigits hstops]
  exact if_neg hrun

theorem takesFront_whole : TakesFront takeWhole? := by
  have hzero : ∀ run : List Char, TakesFront fun rest =>
      if run.head? = some '0' ∧ run.length ≠ 1 then none else some (run, rest) := by
    intro run
    split_ifs
    · intro _ _ _ h
      cases h
    · exact takesFront_some run
  exact takesFront_digits.bind hzero

theorem takesFront_fraction : TakesFront takeFraction? := by
  intro s fraction rest h
  unfold takeFraction? at h
  split at h
  · next t =>
    rcases takesFront_digits _ _ _ h with ⟨hsuffix, hmore⟩
    exact ⟨hsuffix.trans (List.suffix_cons '.' t), hmore⟩
  · next hpoint =>
    cases h
    refine ⟨List.suffix_rfl, ?_⟩
    intro more hfollows
    cases s with
    | nil =>
        exact takeFraction?_follows hfollows
    | cons c t =>
        have hc : c ≠ '.' := by
          rintro rfl
          exact hpoint t rfl
        simp [takeFraction?, hc]

/-- The digits of an exponent, of which the sign is known. -/
def takeExponentDigits? (negative : Bool) (s : List Char) :
    Option (Option (Bool × List Char) × List Char) :=
  (takeDigits? s).bind fun (run, rest) => some (some (negative, run), rest)

theorem takesFront_exponentDigits (negative : Bool) : TakesFront (takeExponentDigits? negative) :=
  takesFront_digits.bind fun run => takesFront_some (some (negative, run))

/-- What an exponent has after its mark. -/
def takeSignedDigits? : List Char → Option (Option (Bool × List Char) × List Char)
  | '-' :: s => takeExponentDigits? true s
  | '+' :: s => takeExponentDigits? false s
  | s => takeExponentDigits? false s

theorem takesFront_signedDigits : TakesFront takeSignedDigits? := by
  intro s exponent rest h
  cases s with
  | nil =>
      cases h
  | cons c t =>
      by_cases hminus : c = '-'
      · subst hminus
        rcases takesFront_exponentDigits true t _ _ h with ⟨hsuffix, hmore⟩
        exact ⟨hsuffix.trans (List.suffix_cons '-' t), hmore⟩
      · by_cases hplus : c = '+'
        · subst hplus
          rcases takesFront_exponentDigits false t _ _ h with ⟨hsuffix, hmore⟩
          exact ⟨hsuffix.trans (List.suffix_cons '+' t), hmore⟩
        · have htake : ∀ s, takeSignedDigits? (c :: s) = takeExponentDigits? false (c :: s) := by
            intro s
            simp [takeSignedDigits?, hminus, hplus]
          rw [htake] at h
          rcases takesFront_exponentDigits false (c :: t) _ _ h with ⟨hsuffix, hmore⟩
          exact ⟨hsuffix, fun more hfollows => (htake (t ++ more)).trans (hmore more hfollows)⟩

theorem takeExponent?_mark {c : Char} (hc : c = 'e' ∨ c = 'E') (s : List Char) :
    takeExponent? (c :: s) = takeSignedDigits? s := by
  simp only [takeExponent?, if_pos hc, Option.map_eq_bind]
  cases s with
  | nil =>
      rfl
  | cons d s =>
      by_cases hminus : d = '-'
      · subst hminus
        rfl
      · by_cases hplus : d = '+'
        · subst hplus
          rfl
        · simp [hminus, hplus, takeSignedDigits?, takeExponentDigits?]

theorem takesFront_exponent : TakesFront takeExponent? := by
  intro s exponent rest h
  cases s with
  | nil =>
      cases h
      exact ⟨List.suffix_rfl, fun more hfollows => takeExponent?_follows hfollows⟩
  | cons c t =>
      by_cases hmark : c = 'e' ∨ c = 'E'
      · rw [takeExponent?_mark hmark] at h
        rcases takesFront_signedDigits _ _ _ h with ⟨hsuffix, hmore⟩
        refine ⟨hsuffix.trans (List.suffix_cons c t), fun more hfollows => ?_⟩
        rw [List.cons_append, takeExponent?_mark hmark]
        exact hmore more hfollows
      · have htake : ∀ s, takeExponent? (c :: s) = some (none, c :: s) := fun s => if_neg hmark
        rw [htake] at h
        cases h
        exact ⟨List.suffix_rfl, fun more _ => htake (t ++ more)⟩

/-- What a number has after its sign. -/
def takeUnsigned? (negative : Bool) (s : List Char) : Option (NumberSource × List Char) :=
  (takeWhole? s).bind fun (whole, s) =>
    (takeFraction? s).bind fun (fraction, s) =>
      (takeExponent? s).bind fun (exponent, s) => some (⟨negative, whole, fraction, exponent⟩, s)

theorem takesFront_unsigned (negative : Bool) : TakesFront (takeUnsigned? negative) :=
  takesFront_whole.bind fun _ => takesFront_fraction.bind fun _ =>
    takesFront_exponent.bind fun _ => takesFront_some _

theorem takesFront_number : TakesFront takeNumber? := by
  intro s n rest h
  rcases exists_cons_of_takeNumber? h with ⟨c, t, rfl, hc⟩
  by_cases hminus : c = '-'
  · subst hminus
    have htake : ∀ s, takeNumber? ('-' :: s) = takeUnsigned? true s := fun _ => rfl
    rw [htake] at h
    rcases takesFront_unsigned true _ _ _ h with ⟨hsuffix, hmore⟩
    exact ⟨hsuffix.trans (List.suffix_cons '-' t), hmore⟩
  · have htake : ∀ s, takeNumber? (c :: s) = takeUnsigned? false (c :: s) := by
      intro s
      simp only [takeNumber?]
      split
      · next h => exact absurd (List.cons.inj h).1 hminus
      · rfl
    rw [htake] at h
    rcases takesFront_unsigned false _ _ _ h with ⟨hsuffix, hmore⟩
    exact ⟨hsuffix, fun more hfollows => (htake (t ++ more)).trans (hmore more hfollows)⟩

/-! ## Floats alone and in place -/

/-- A float whose text is read as the float is read back in any place. -/
theorem legible_float {x : Binary64}
    (h : read? (number (.float x)).compact = some (number (.float x))) :
    (JsonNumber.float x).Legible := by
  have hnull : read? null.compact = some null := read?_compact (.null depthLimit)
  cases hx : x.magnitude with
  | finite k =>
      rcases solid_floatText hx with ⟨hsolid, c, t, htext, hc⟩
      rcases Option.bind_eq_some_iff.mp h with ⟨source, hsource, hvalue⟩
      rcases Option.bind_eq_some_iff.mp hsource with ⟨⟨taken, rest⟩, htake, hend⟩
      dsimp only at hend
      split_ifs at hend with hblanks
      cases hend
      -- The text is taken as a number, and nothing of it is left over.
      simp only [compact, String.toList_ofList, compactText, numberText] at htake
      rw [htext, takeValue?_number hc, ← htext] at htake
      rcases Option.map_eq_some_iff.mp htake with ⟨⟨n, left⟩, hnumber, heq⟩
      cases heq
      rcases takesFront_number _ _ _ hnumber with ⟨hsuffix, hmore⟩
      have hleft : rest = [] :=
        Solid.eq_nil_of_skipBlanks (fun c hc => hsolid c (hsuffix.subset hc)) hblanks
      subst hleft
      rcases Option.map_eq_some_iff.mp hvalue with ⟨number, hread, heq⟩
      cases heq
      exact ⟨⟨n, hread, hmore⟩, hsolid.oneLine⟩
  | infinite | nan =>
      -- The text is that of `null`, which is no number.
      have hcompact : (number (.float x)).compact = null.compact := by
        simp [compact, compactText, numberText, floatText, hx]
      rw [hcompact, hnull] at h
      cases h

end Json
end FormatCheck
