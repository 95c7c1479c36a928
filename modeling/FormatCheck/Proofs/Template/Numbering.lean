import FormatCheck.Template.Numbering

/-!
# Numbering over a sequence of names

Names are given to a numbering one after another, and it goes on after a refused one. What it keeps
of them is their mode and a count (`ofNames`): the first name that is empty or a number decides the
mode, and the count is that of the empty names. `resolve_ofNames` says what one more name does,
`resolveAll_ofNames` what a sequence of them does, and `resolved_resolveAll` reads the answer to
each name off that. A machine with two flags in the place of the numbering gives the same answers
(`Flags.resolveAll_start`).
-/

namespace FormatCheck
namespace Numbering

/-! ## Modes -/

/-- The two ways to number the fields of a template. -/
inductive Mode where
  | automatic
  | manual
  deriving DecidableEq, Repr

/-- A name that is a position itself. -/
def IsNumber (name : String) : Prop := name ≠ "" ∧ ∀ c ∈ name.toList, c.isDigit = true

instance (name : String) : Decidable (IsNumber name) :=
  decidable_of_iff (name ≠ "" ∧ name.toList.all Char.isDigit = true)
    (and_congr_right fun _ => List.all_eq_true)

/-- The mode that a name belongs to, if it is one that numbering knows. -/
def modeOf? (name : String) : Option Mode :=
  if name = "" then some .automatic else if IsNumber name then some .manual else none

/-- The mode that the first name with a mode decides. -/
def decided? (names : List String) : Option Mode := names.findSome? modeOf?

/-- The mode of a numbering, once it has one. -/
def mode? : Numbering → Option Mode
  | undecided => none
  | automatic _ => some .automatic
  | manual => some .manual

variable {name : String} {names before : List String}

@[simp] theorem modeOf?_empty : modeOf? "" = some .automatic := rfl

theorem IsNumber.modeOf?_eq (h : IsNumber name) : modeOf? name = some .manual := by
  rw [modeOf?, if_neg h.1, if_pos h]

theorem modeOf?_eq_none (hempty : name ≠ "") (hnumber : ¬IsNumber name) : modeOf? name = none := by
  rw [modeOf?, if_neg hempty, if_neg hnumber]

theorem decided?_append_singleton (before : List String) (name : String) :
    decided? (before ++ [name]) = (decided? before).or (modeOf? name) := by
  rw [decided?, List.findSome?_append, List.findSome?_singleton]
  rfl

/-- Where nothing is decided no name was empty. -/
theorem count_empty_of_decided?_eq_none (h : decided? before = none) : before.count "" = 0 := by
  rw [List.count_eq_zero]
  intro hmem
  cases List.findSome?_eq_none_iff.mp h "" hmem

/-! ## One name -/

/-- The position that a number writes, if it can be read. -/
def position (name : String) : Except FormatError Nat :=
  if Numeral.readDecimal name.toList < 2 ^ 64 then .ok (Numeral.readDecimal name.toList)
  else .error .widthOverflow

theorem resolve_empty (numbering : Numbering) :
    numbering.resolve "" =
      match numbering with
      | undecided => (.ok 0, automatic 1)
      | automatic next => (.ok next, automatic (next + 1))
      | manual => (.error .manualToAutoNumbering, manual) := by
  cases numbering <;> rfl

theorem resolve_number (hname : IsNumber name) (numbering : Numbering) :
    numbering.resolve name =
      match numbering with
      | automatic next => (.error .autoToManualNumbering, automatic next)
      | undecided | manual => (position name, manual) := by
  have hempty : name.toList ≠ [] := by simpa using hname.1
  have hdigits : name.toList.all Char.isDigit = true := List.all_eq_true.mpr hname.2
  cases numbering <;> simp only [resolve, hempty, hdigits, if_true, if_false] <;> rfl

theorem resolve_other (hempty : name ≠ "") (hnumber : ¬IsNumber name) (numbering : Numbering) :
    numbering.resolve name = (.error (.namedField name), numbering) := by
  have hnil : name.toList ≠ [] := by simpa using hempty
  have hdigits : ¬name.toList.all Char.isDigit = true :=
    fun hall => hnumber ⟨hempty, List.all_eq_true.mp hall⟩
  simp only [resolve, hnil, hdigits, if_false, Bool.false_eq_true]

/-- A name that has a position holds digits only. -/
theorem isDigit_of_resolve {numbering : Numbering} {index : Nat}
    (h : (numbering.resolve name).1 = .ok index) : ∀ c ∈ name.toList, c.isDigit = true := by
  by_cases hempty : name = ""
  · simp [hempty]
  · by_cases hnumber : IsNumber name
    · exact hnumber.2
    · rw [resolve_other hempty hnumber] at h
      cases h

/-- A name gives a numbering its mode where it has none, and changes no mode. -/
theorem mode?_resolve (numbering : Numbering) (name : String) :
    (numbering.resolve name).2.mode? = numbering.mode?.or (modeOf? name) := by
  by_cases hempty : name = ""
  · rw [hempty, resolve_empty, modeOf?_empty]
    cases numbering <;> rfl
  · by_cases hnumber : IsNumber name
    · rw [resolve_number hnumber, hnumber.modeOf?_eq]
      cases numbering <;> rfl
    · rw [resolve_other hempty hnumber, modeOf?_eq_none hempty hnumber, Option.or_none]

/-- A refused name takes no position: all it can do is to make an undecided numbering manual. -/
theorem resolve_of_error {numbering : Numbering} {e : FormatError}
    (h : (numbering.resolve name).1 = .error e) :
    (numbering.resolve name).2 = numbering ∨
      numbering = undecided ∧ IsNumber name ∧ (numbering.resolve name).2 = manual := by
  by_cases hempty : name = ""
  · rw [hempty, resolve_empty] at h ⊢
    cases numbering with
    | manual => exact Or.inl rfl
    | _ => cases h
  · by_cases hnumber : IsNumber name
    · rw [resolve_number hnumber]
      cases numbering with
      | undecided => exact Or.inr ⟨rfl, hnumber, rfl⟩
      | _ => exact Or.inl rfl
    · rw [resolve_other hempty hnumber]
      exact Or.inl rfl

/-! ## Sequences of names -/

/-- The answers to names resolved one after another, and the numbering after them. -/
def resolveAll (numbering : Numbering) : List String → List (Except FormatError Nat) × Numbering
  | [] => ([], numbering)
  | name :: names =>
    let (answer, numbering) := numbering.resolve name
    let (answers, numbering) := numbering.resolveAll names
    (answer :: answers, numbering)

/-- The numbering that names leave behind. -/
def ofNames (names : List String) : Numbering :=
  match decided? names with
  | none => undecided
  | some .automatic => automatic (names.count "")
  | some .manual => manual

/-- The answer to a name after the names before it. -/
def answer (before : List String) (name : String) : Except FormatError Nat :=
  match modeOf? name, decided? before with
  | none, _ => .error (.namedField name)
  | some .automatic, some .manual => .error .manualToAutoNumbering
  | some .automatic, _ => .ok (before.count "")
  | some .manual, some .automatic => .error .autoToManualNumbering
  | some .manual, _ => position name

theorem mode?_ofNames (names : List String) : (ofNames names).mode? = decided? names := by
  unfold ofNames
  split
  · next h => exact h.symm
  · next h => exact h.symm
  · next h => exact h.symm

/-- What one more name does. -/
theorem resolve_ofNames (before : List String) (name : String) :
    (ofNames before).resolve name = (answer before name, ofNames (before ++ [name])) := by
  unfold ofNames answer
  rw [decided?_append_singleton]
  by_cases hempty : name = ""
  · -- An empty name is counted, and the first one has none before it.
    rw [hempty, modeOf?_empty, List.count_append, List.count_singleton_self, resolve_empty]
    cases h : decided? before with
    | none => simp [count_empty_of_decided?_eq_none h]
    | some mode => cases mode <;> rfl
  · have hcount : (before ++ [name]).count "" = before.count "" := by
      rw [List.count_append, List.count_singleton, if_neg (by simpa using hempty), Nat.add_zero]
    rw [hcount]
    by_cases hnumber : IsNumber name
    · rw [hnumber.modeOf?_eq, resolve_number hnumber]
      cases decided? before with
      | none => rfl
      | some mode => cases mode <;> rfl
    · rw [modeOf?_eq_none hempty hnumber, resolve_other hempty hnumber, Option.or_none]

/-- What a sequence of names does: each is answered from the names before it. -/
theorem resolveAll_ofNames (before names : List String) :
    ((ofNames before).resolveAll names).2 = ofNames (before ++ names) ∧
      ((ofNames before).resolveAll names).1.length = names.length ∧
      ∀ i name, names[i]? = some name →
        ((ofNames before).resolveAll names).1[i]? =
          some (answer (before ++ names.take i) name) := by
  -- The names that are answered move over to the names before, one at a time.
  induction names generalizing before with
  | nil =>
      refine ⟨by rw [List.append_nil]; rfl, rfl, ?_⟩
      intro i name hname
      cases hname
  | cons first names ih =>
      rcases ih (before ++ [first]) with ⟨hlast, hlength, hanswers⟩
      simp only [resolveAll, resolve_ofNames]
      refine ⟨?_, congrArg Nat.succ hlength, ?_⟩
      · rw [hlast, List.append_assoc, List.singleton_append]
      · intro i name hname
        cases i with
        | zero =>
            cases hname
            rw [List.take_zero, List.append_nil]
            rfl
        | succ i =>
            have hrest := hanswers i name hname
            rw [List.append_assoc, List.singleton_append] at hrest
            exact hrest

/-- Counting on from a position, the empty names take the positions from there without a gap. -/
theorem filterMap_resolveAll_automatic (next : Nat) (names : List String) :
    ((automatic next).resolveAll names).1.filterMap Except.toOption =
      List.range' next (names.count "") := by
  induction names generalizing next with
  | nil => rfl
  | cons name names ih =>
      by_cases hempty : name = ""
      · subst hempty
        rw [List.count_cons_self, List.range'_succ, ← ih (next + 1)]
        rfl
      · rw [List.count_cons_of_ne hempty, ← ih next]
        by_cases hnumber : IsNumber name
        · rw [resolveAll, resolve_number hnumber]
          rfl
        · rw [resolveAll, resolve_other hempty hnumber]
          rfl

/-- Until the mode is decided every name is refused, and the numbering stays as it is. -/
theorem filterMap_resolveAll_undecided (h : decided? names = some .automatic) :
    (undecided.resolveAll names).1.filterMap Except.toOption = List.range (names.count "") := by
  induction names with
  | nil => cases h
  | cons name names ih =>
      by_cases hempty : name = ""
      · subst hempty
        rw [List.count_cons_self, List.range_eq_range', List.range'_succ,
          ← filterMap_resolveAll_automatic]
        rfl
      · by_cases hnumber : IsNumber name
        · -- A number would have decided for the other mode.
          simp [decided?, hnumber.modeOf?_eq] at h
        · have hrest : decided? names = some .automatic := by
            simpa [decided?, modeOf?_eq_none hempty hnumber] using h
          rw [List.count_cons_of_ne hempty, ← ih hrest, resolveAll, resolve_other hempty hnumber]
          rfl

/-! ## Two flags

The same numbering with two flags for its three states: the next position, which is there once a name
was empty, and whether a name was a number. Of their four combinations one is never reached. -/

structure Flags where
  nextAuto : Option Nat := none
  manual : Bool := false
  deriving DecidableEq, Repr

namespace Flags

/-- The position that a field name stands for, and the flags after it. -/
def resolve (flags : Flags) (name : String) : Except FormatError Nat × Flags :=
  if name.isEmpty then
    if flags.manual then (.error .manualToAutoNumbering, flags)
    else
      let index := flags.nextAuto.getD 0
      (.ok index, { flags with nextAuto := some (index + 1) })
  else if name.toList.all Char.isDigit = false then (.error (.namedField name), flags)
  else if flags.nextAuto.isSome then (.error .autoToManualNumbering, flags)
  else (position name, { flags with manual := true })

def resolveAll (flags : Flags) : List String → List (Except FormatError Nat) × Flags
  | [] => ([], flags)
  | name :: names =>
    let (answer, flags) := flags.resolve name
    let (answers, flags) := flags.resolveAll names
    (answer :: answers, flags)

/-- The flags stand for a numbering. -/
inductive StandFor : Flags → Numbering → Prop where
  | undecided : StandFor ⟨none, false⟩ undecided
  | automatic (next : Nat) : StandFor ⟨some next, false⟩ (automatic next)
  | manual : StandFor ⟨none, true⟩ Numbering.manual

variable {flags : Flags} {numbering : Numbering}

/-- One name gets the same answer from both, and they go on alike. -/
theorem StandFor.resolve (h : StandFor flags numbering) (name : String) :
    (flags.resolve name).1 = (numbering.resolve name).1 ∧
      StandFor (flags.resolve name).2 (numbering.resolve name).2 := by
  by_cases hempty : name = ""
  · subst hempty
    rw [resolve_empty]
    cases h with
    | undecided => exact ⟨rfl, .automatic 1⟩
    | automatic next => exact ⟨rfl, .automatic (next + 1)⟩
    | manual => exact ⟨rfl, .manual⟩
  · have hnonempty : name.isEmpty = false := by simpa using hempty
    by_cases hnumber : IsNumber name
    · have hdigits : name.toList.all Char.isDigit = true := List.all_eq_true.mpr hnumber.2
      rw [resolve_number hnumber]
      cases h with
      | undecided => simp [Flags.resolve, hnonempty, hdigits, StandFor.manual]
      | automatic next => simp [Flags.resolve, hnonempty, hdigits, StandFor.automatic]
      | manual => simp [Flags.resolve, hnonempty, hdigits, StandFor.manual]
    · have hdigits : name.toList.all Char.isDigit = false :=
        Bool.eq_false_iff.mpr fun hall => hnumber ⟨hempty, List.all_eq_true.mp hall⟩
      rw [resolve_other hempty hnumber]
      simp [Flags.resolve, hnonempty, hdigits, h]

/-- A sequence of names gets the same answers from both. -/
theorem StandFor.resolveAll (h : StandFor flags numbering) (names : List String) :
    (flags.resolveAll names).1 = (numbering.resolveAll names).1 ∧
      StandFor (flags.resolveAll names).2 (numbering.resolveAll names).2 := by
  induction names generalizing flags numbering with
  | nil => exact ⟨rfl, h⟩
  | cons name names ih =>
      rcases h.resolve name with ⟨hanswer, hnext⟩
      rcases ih hnext with ⟨hanswers, hlast⟩
      refine ⟨?_, hlast⟩
      simp only [Flags.resolveAll, Numbering.resolveAll, hanswer, hanswers]

theorem StandFor.not_both (h : StandFor flags numbering) :
    ¬(flags.nextAuto.isSome ∧ flags.manual = true) := by
  cases h <;> simp

/-- From the start the flags answer as the numbering does, and they are never both set. -/
theorem resolveAll_start (names : List String) :
    (Flags.resolveAll {} names).1 = (undecided.resolveAll names).1 ∧
      ¬((Flags.resolveAll {} names).2.nextAuto.isSome ∧
        (Flags.resolveAll {} names).2.manual = true) := by
  rcases StandFor.undecided.resolveAll names with ⟨hanswers, hlast⟩
  exact ⟨hanswers, hlast.not_both⟩

end Flags

/-! ## What numbering does -/

/-- The answers to a sequence of names. -/
structure Resolved (names : List String) (answers : List (Except FormatError Nat)) : Prop where
  length_eq : answers.length = names.length
  /-- Automatic numbering counts the empty names and takes no number. -/
  automatic : decided? names = some .automatic →
    ∀ (i : Nat) (name : String), names[i]? = some name →
    (name = "" → answers[i]? = some (Except.ok ((names.take i).count ""))) ∧
      (IsNumber name → answers[i]? = some (Except.error FormatError.autoToManualNumbering))
  /-- Manual numbering reads the numbers and takes no empty name. -/
  manual : decided? names = some .manual →
    ∀ (i : Nat) (name : String), names[i]? = some name →
    (IsNumber name → answers[i]? = some (position name)) ∧
      (name = "" → answers[i]? = some (Except.error FormatError.manualToAutoNumbering))
  other : ∀ (i : Nat) (name : String), names[i]? = some name → name ≠ "" → ¬IsNumber name →
    answers[i]? = some (Except.error (FormatError.namedField name))
  /-- No position is skipped or given twice. -/
  consecutive : decided? names = some .automatic →
    answers.filterMap Except.toOption = List.range (names.count "")

/-- The names before a name have decided the mode of all the names, or they have decided none and
the name can be of no other mode. -/
theorem decided?_take {i : Nat} (hname : names[i]? = some name) {mode : Mode}
    (h : decided? names = some mode) :
    decided? (names.take i) = some mode ∨
      decided? (names.take i) = none ∧ ∀ mode' ∈ modeOf? name, mode' = mode := by
  rcases List.getElem?_eq_some_iff.mp hname with ⟨hlt, heq⟩
  have hsplit : names = names.take i ++ name :: names.drop (i + 1) := by
    rw [← heq, List.getElem_cons_drop, List.take_append_drop]
  have hall : decided? names = (decided? (names.take i)).or
      ((modeOf? name).or (decided? (names.drop (i + 1)))) := by
    refine (congrArg decided? hsplit).trans ?_
    rw [decided?, List.findSome?_append, List.findSome?_cons]
    cases modeOf? name <;> rfl
  rw [hall] at h
  cases htake : decided? (names.take i) with
  | some mode' =>
      rw [htake] at h
      exact Or.inl h
  | none =>
      rw [htake, Option.none_or] at h
      refine Or.inr ⟨rfl, ?_⟩
      intro mode' hmode
      rw [Option.mem_def.mp hmode] at h
      exact Option.some.inj h

theorem resolved_resolveAll (names : List String) :
    Resolved names (undecided.resolveAll names).1 := by
  rcases resolveAll_ofNames [] names with ⟨_, hlength, hanswers⟩
  constructor
  case length_eq => exact hlength
  case automatic =>
    intro hmode i name hname
    constructor
    · rintro rfl
      refine (hanswers i "" hname).trans (congrArg some ?_)
      rcases decided?_take hname hmode with hbefore | ⟨hbefore, _⟩
      · simp only [answer, modeOf?_empty, List.nil_append, hbefore]
      · simp only [answer, modeOf?_empty, List.nil_append, hbefore]
    · intro hnumber
      refine (hanswers i name hname).trans (congrArg some ?_)
      rcases decided?_take hname hmode with hbefore | ⟨_, hfirst⟩
      · simp only [answer, hnumber.modeOf?_eq, List.nil_append, hbefore]
      · cases hfirst _ hnumber.modeOf?_eq
  case manual =>
    intro hmode i name hname
    constructor
    · intro hnumber
      refine (hanswers i name hname).trans (congrArg some ?_)
      rcases decided?_take hname hmode with hbefore | ⟨hbefore, _⟩
      · simp only [answer, hnumber.modeOf?_eq, List.nil_append, hbefore]
      · simp only [answer, hnumber.modeOf?_eq, List.nil_append, hbefore]
    · rintro rfl
      refine (hanswers i "" hname).trans (congrArg some ?_)
      rcases decided?_take hname hmode with hbefore | ⟨_, hfirst⟩
      · simp only [answer, modeOf?_empty, List.nil_append, hbefore]
      · cases hfirst _ modeOf?_empty
  case other =>
    intro i name hname hempty hnumber
    refine (hanswers i name hname).trans (congrArg some ?_)
    simp only [answer, modeOf?_eq_none hempty hnumber]
  case consecutive => exact filterMap_resolveAll_undecided

/-- Numbering never mixes its modes:

1. of a sequence of names, with the refused ones in it, the first that is empty or a number decides
   the mode, and every name is answered in that mode;
2. a numbering with a mode keeps it, and one without takes that of the name;
3. a refused name takes no position, and one that is neither empty nor a number changes nothing. -/
theorem resolveAll_keepsMode :
    (∀ names, Resolved names (undecided.resolveAll names).1 ∧
        (undecided.resolveAll names).2.mode? = decided? names) ∧
      (∀ numbering name, (resolve numbering name).2.mode? = numbering.mode?.or (modeOf? name)) ∧
      ∀ numbering name e, (resolve numbering name).1 = .error e →
        (resolve numbering name).2 = numbering ∨
          numbering = undecided ∧ IsNumber name ∧ (resolve numbering name).2 = manual := by
  refine ⟨?_, mode?_resolve, fun numbering name e h => resolve_of_error h⟩
  intro names
  refine ⟨resolved_resolveAll names, ?_⟩
  have hlast : (undecided.resolveAll names).2 = ofNames names := (resolveAll_ofNames [] names).1
  rw [hlast, mode?_ofNames]

/-- A number that is too large decides the mode all the same. -/
theorem resolveAll_keepsMode_overflow :
    let names := ["x", "18446744073709551616", "", "007"]
    decided? names = some .manual ∧
      (undecided.resolveAll names).1 =
        [.error (.namedField "x"), .error .widthOverflow, .error .manualToAutoNumbering, .ok 7] ∧
      (undecided.resolveAll names).1[3]? = some (position "007") ∧
      (undecided.resolveAll names).2.mode? = some .manual ∧
      (resolve manual "").1 = .error .manualToAutoNumbering ∧
      ((resolve manual "").2 = manual ∨
        manual = undecided ∧ IsNumber "" ∧ (resolve manual "").2 = manual) := by
  intro names
  have hmode : decided? names = some .manual := by decide +kernel
  rcases resolveAll_keepsMode with ⟨hall, _, herror⟩
  rcases hall names with ⟨hresolved, hlast⟩
  refine ⟨hmode, rfl, ?_, hlast.trans hmode, rfl, herror manual "" _ rfl⟩
  exact (hresolved.manual hmode 3 "007" rfl).1 (by decide)

end Numbering
end FormatCheck
