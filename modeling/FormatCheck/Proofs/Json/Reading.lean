import FormatCheck.Proofs.Json.Scalars

/-!
# JSON values read back

A value written on one line is read back in its canonical form: the members of objects come in key
order, and of members with one key only the last is there. What is asked of the value is that its
numbers are legible and that it is not nested too deeply.

The reader is handed more steps than it needs. Two for each character of a value are enough, and a
list or an object leaves that many to each of its parts.
-/

namespace FormatCheck
namespace Json

/-! ## What is read back -/

mutual

/-- The value that is read back. -/
def canonical : Json → Json
  | null => null
  | bool b => bool b
  | number n => number n
  | string s => string s
  | array items => array (canonicalItems items)
  | object members => object (sortMembers (canonicalMembers members))

def canonicalItems : List Json → List Json
  | [] => []
  | j :: items => j.canonical :: canonicalItems items

def canonicalMembers : List (String × Json) → List (String × Json)
  | [] => []
  | (k, j) :: members => (k, j.canonical) :: canonicalMembers members

end

/-- The numbers of the value are legible, and fewer than `depth` of its lists and objects stand
inside each other. -/
inductive Legible : (depth : Nat) → Json → Prop where
  | null (depth : Nat) : Legible depth null
  | bool (depth : Nat) (b : Bool) : Legible depth (bool b)
  | number (depth : Nat) {n : JsonNumber} (h : n.Legible) : Legible depth (number n)
  | string (depth : Nat) (s : String) : Legible depth (string s)
  | array {depth : Nat} {items : List Json} (h : ∀ j ∈ items, Legible (depth + 1) j) :
      Legible (depth + 2) (array items)
  | object {depth : Nat} {members : List (String × Json)}
      (h : ∀ m ∈ members, Legible (depth + 1) m.2) : Legible (depth + 2) (object members)

/-- The text is read as the value wherever it stands, and nothing after it is taken. -/
structure Reads (depth : Nat) (text : List Char) (j : Json) : Prop where
  begins : ∃ c s, text = c :: s ∧ isBlank c = false ∧ c ≠ ']'
  reads : ∃ source : Source, source.valueAt? depth = some j ∧
    ∀ steps rest, 2 * text.length ≤ steps → Follows rest →
      takeValue? steps (text ++ rest) = some (source, rest)

theorem skipBlanks_cons {c : Char} (hc : isBlank c = false) (s : List Char) :
    skipBlanks (c :: s) = c :: s := by
  simp [skipBlanks, hc]

theorem follows_cons {c : Char} (hc : continuesNumber c = false) (rest : List Char) :
    Follows (c :: rest) :=
  Text.stops_cons hc rest

/-! ## Scalars -/

/-- A text that begins like a value leaves at least one step to the reader. -/
theorem reads_of_succ {depth : Nat} {text : List Char} {j : Json}
    (hbegins : ∃ c s, text = c :: s ∧ isBlank c = false ∧ c ≠ ']')
    (hreads : ∃ source : Source, source.valueAt? depth = some j ∧
      ∀ steps rest, 2 * text.length ≤ steps + 1 → Follows rest →
        takeValue? (steps + 1) (text ++ rest) = some (source, rest)) :
    Reads depth text j := by
  rcases hreads with ⟨source, hvalue, htake⟩
  refine ⟨hbegins, source, hvalue, ?_⟩
  intro steps rest hsteps hrest
  have hpos : 0 < steps := by
    rcases hbegins with ⟨c, s, rfl, _⟩
    rw [List.length_cons] at hsteps
    omega
  obtain ⟨steps, rfl⟩ : ∃ n, steps = n + 1 := Nat.exists_eq_add_one.mpr hpos
  exact htake steps rest hsteps hrest

theorem reads_string (depth : Nat) (s : String) : Reads depth (stringText s) (string s) := by
  refine reads_of_succ ⟨'"', _, rfl, by decide, by decide⟩ ⟨.string (some s), rfl, ?_⟩
  intro steps rest _ _
  have htext : stringText s ++ rest = '"' :: (s.toList.flatMap escapeChar ++ '"' :: rest) := by
    simp [stringText]
  rw [htext, takeValue?, skipBlanks_cons (by decide)]
  simp [takeString?_escaped]

/-- A number begins with a minus or a digit. -/
theorem exists_cons_of_takeNumber? {s : List Char} {result : NumberSource × List Char}
    (h : takeNumber? s = some result) : ∃ c t, s = c :: t ∧ (c = '-' ∨ c.isDigit = true) := by
  cases s with
  | nil =>
      cases h
  | cons c t =>
      refine ⟨c, t, rfl, ?_⟩
      by_cases hminus : c = '-'
      · exact Or.inl hminus
      · refine Or.inr ?_
        by_contra hdigit
        simp [takeNumber?, hminus, takeWhole?, takeDigits?, hdigit] at h

theorem takeValue?_number {c : Char} {s : List Char} (hc : c = '-' ∨ c.isDigit = true)
    (steps : Nat) :
    takeValue? (steps + 1) (c :: s) =
      (takeNumber? (c :: s)).map fun (n, rest) => (.number n, rest) := by
  -- The first character decides how a value is read, and none of the other kinds begins with it.
  have hother : ∀ d : Char, d.isDigit = false → d ≠ '-' → c ≠ d := by
    rintro d hdigit hminus rfl
    rcases hc with rfl | hc
    · exact hminus rfl
    · simp [hdigit] at hc
  have hblank : isBlank c = false := by
    simp [isBlank, hother ' ' (by decide) (by decide), hother '\t' (by decide) (by decide),
      hother '\n' (by decide) (by decide), hother '\r' (by decide) (by decide)]
  rw [takeValue?, skipBlanks_cons hblank]
  split
  · next h => exact absurd (List.cons.inj h).1 (hother '{' (by decide) (by decide))
  · next h => exact absurd (List.cons.inj h).1 (hother '[' (by decide) (by decide))
  · next h => exact absurd (List.cons.inj h).1 (hother '"' (by decide) (by decide))
  · next h => exact absurd (List.cons.inj h).1 (hother 'n' (by decide) (by decide))
  · next h => exact absurd (List.cons.inj h).1 (hother 't' (by decide) (by decide))
  · next h => exact absurd (List.cons.inj h).1 (hother 'f' (by decide) (by decide))
  · rfl

theorem reads_number {n : JsonNumber} (h : n.Legible) (depth : Nat) :
    Reads depth (numberText n) (number n) := by
  rcases h.reads with ⟨source, hvalue, htake⟩
  have hnil := htake [] (Text.stops_nil _)
  rw [List.append_nil] at hnil
  rcases exists_cons_of_takeNumber? hnil with ⟨c, t, htext, hc⟩
  have hblank : isBlank c = false := by
    rcases hc with rfl | hc
    · rfl
    · by_contra hblank
      simp only [isBlank, Bool.not_eq_false, Bool.or_eq_true, decide_eq_true_eq] at hblank
      rcases hblank with ((rfl | rfl) | rfl) | rfl <;> cases hc
  have hend : c ≠ ']' := by
    rintro rfl
    rcases hc with hc | hc
    · exact absurd hc (by decide)
    · cases hc
  refine reads_of_succ ⟨c, t, htext, hblank, hend⟩
    ⟨.number source, by simp [Source.valueAt?, hvalue], ?_⟩
  intro steps rest _ hrest
  have hread := htake rest hrest
  rw [htext, List.cons_append] at hread ⊢
  rw [takeValue?_number hc, hread]
  rfl

/-! ## Lists -/

theorem exists_takeItems? {depth : Nat} {items : List Json} (hne : items ≠ [])
    (h : ∀ j ∈ items, Reads depth (compactText j) j.canonical) :
    ∃ sources : List Source, itemsAt? depth sources = some (canonicalItems items) ∧
      ∀ steps rest, 2 * (compactItems items).length + 1 ≤ steps →
        takeItems? steps (compactItems items ++ ']' :: rest) = some (sources, rest) := by
  induction items with
  | nil =>
      exact absurd rfl hne
  | cons j items ih =>
      rcases (h j List.mem_cons_self).reads with ⟨source, hvalue, htake⟩
      -- The last item is followed by the end of the list, any other by a comma.
      cases items with
      | nil =>
          refine ⟨[source], by simp [itemsAt?, canonicalItems, hvalue], ?_⟩
          intro steps rest hsteps
          rw [compactItems] at hsteps ⊢
          obtain ⟨steps, rfl⟩ : ∃ n, steps = n + 1 := Nat.exists_eq_add_one.mpr (by omega)
          have hitem := htake steps (']' :: rest) (by omega) (follows_cons (by decide) rest)
          rw [takeItems?, hitem]
          simp [skipBlanks_cons (show isBlank ']' = false by decide)]
      | cons next items =>
          rcases ih (by simp) fun i hi => h i (List.mem_cons_of_mem j hi) with
            ⟨sources, hvalues, htakes⟩
          refine ⟨source :: sources, by simp [itemsAt?, canonicalItems, hvalue, hvalues], ?_⟩
          intro steps rest hsteps
          rw [compactItems] at hsteps ⊢
          · simp only [List.length_append, List.length_cons] at hsteps
            obtain ⟨steps, rfl⟩ : ∃ n, steps = n + 1 := Nat.exists_eq_add_one.mpr (by omega)
            have hitem := htake steps (',' :: (compactItems (next :: items) ++ ']' :: rest))
              (by omega) (follows_cons (by decide) _)
            rw [List.append_assoc, List.cons_append, takeItems?, hitem]
            simp [skipBlanks_cons (show isBlank ',' = false by decide),
              htakes steps rest (by omega)]
          · simp
          · simp

theorem reads_array {depth : Nat} {items : List Json}
    (h : ∀ j ∈ items, Reads (depth + 1) (compactText j) j.canonical) :
    Reads (depth + 2) (compactText (array items)) (array items).canonical := by
  have htext : compactText (array items) = '[' :: (compactItems items ++ [']']) := by
    rw [compactText]
  rw [htext]
  refine reads_of_succ ⟨'[', _, rfl, by decide, by decide⟩ ?_
  cases items with
  | nil =>
      exact ⟨.array [], rfl, fun _ _ _ _ => rfl⟩
  | cons first items =>
      rcases exists_takeItems? (by simp) h with ⟨sources, hvalues, htakes⟩
      refine ⟨.array sources, by simp [Source.valueAt?, hvalues, canonical], ?_⟩
      intro steps rest hsteps _
      simp only [List.length_cons, List.length_append] at hsteps
      have htake := htakes steps rest (by omega)
      -- The first item does not begin like the end of the list.
      rcases (h first List.mem_cons_self).begins with ⟨c, text, hfirst, hblank, hend⟩
      have hitems : ∃ more, compactItems (first :: items) = c :: more := by
        cases items with
        | nil => exact ⟨text, by rw [compactItems, hfirst]⟩
        | cons next items => exact ⟨_, by rw [compactItems, hfirst, List.cons_append]; simp⟩
      rcases hitems with ⟨more, hmore⟩
      rw [hmore] at htake ⊢
      simp only [List.cons_append, List.append_assoc, List.nil_append] at htake ⊢
      rw [takeValue?, skipBlanks_cons (by decide)]
      simp only [skipBlanks_cons hblank]
      split
      · next heq => exact absurd (List.cons.inj heq).1 hend
      · simp [htake]

/-! ## Objects -/

/-- A member is taken up to the comma or the brace after it. -/
theorem takeMembers?_member {steps : Nat} {k : String} {text rest : List Char} {source : Source}
    (h : takeValue? steps (text ++ rest) = some (source, rest)) :
    (∀ s, rest = ',' :: s → takeMembers? (steps + 1) (stringText k ++ ':' :: (text ++ rest)) =
      (takeMembers? steps s).map fun (members, rest) => ((some k, source) :: members, rest)) ∧
    ∀ s, rest = '}' :: s → takeMembers? (steps + 1) (stringText k ++ ':' :: (text ++ rest)) =
      some ([(some k, source)], s) := by
  have htext : stringText k ++ ':' :: (text ++ rest) =
      '"' :: (k.toList.flatMap escapeChar ++ '"' :: ':' :: (text ++ rest)) := by
    simp [stringText]
  rw [htext, takeMembers?, skipBlanks_cons (by decide)]
  simp only [takeString?_escaped, Option.bind_eq_bind, Option.bind_some,
    skipBlanks_cons (show isBlank ':' = false by decide), h]
  refine ⟨?_, ?_⟩
  · rintro s rfl
    simp [skipBlanks_cons (show isBlank ',' = false by decide)]
  · rintro s rfl
    simp [skipBlanks_cons (show isBlank '}' = false by decide)]

theorem exists_takeMembers? {depth : Nat} {members : List (String × Json)} (hne : members ≠ [])
    (h : ∀ m ∈ members, Reads depth (compactText m.2) m.2.canonical) :
    ∃ sources : List (Option String × Source),
      membersAt? depth sources = some (canonicalMembers members) ∧
        ∀ steps rest, 2 * (compactMembers members).length + 1 ≤ steps →
          takeMembers? steps (compactMembers members ++ '}' :: rest) = some (sources, rest) := by
  induction members with
  | nil =>
      exact absurd rfl hne
  | cons m members ih =>
      rcases m with ⟨k, j⟩
      have hj : Reads depth (compactText j) j.canonical := h (k, j) List.mem_cons_self
      rcases hj.reads with ⟨source, hvalue, htake⟩
      cases members with
      | nil =>
          refine ⟨[(some k, source)], by simp [membersAt?, canonicalMembers, hvalue], ?_⟩
          intro steps rest hsteps
          rw [compactMembers] at hsteps ⊢
          simp only [List.length_append, List.length_cons] at hsteps
          obtain ⟨steps, rfl⟩ : ∃ n, steps = n + 1 := Nat.exists_eq_add_one.mpr (by omega)
          have hmember := htake steps ('}' :: rest) (by omega) (follows_cons (by decide) rest)
          rw [List.append_assoc, List.cons_append]
          exact (takeMembers?_member hmember).2 rest rfl
      | cons next members =>
          rcases ih (by simp) fun m hm => h m (List.mem_cons_of_mem (k, j) hm) with
            ⟨sources, hvalues, htakes⟩
          refine ⟨(some k, source) :: sources,
            by simp [membersAt?, canonicalMembers, hvalue, hvalues], ?_⟩
          intro steps rest hsteps
          rw [compactMembers] at hsteps ⊢
          · simp only [List.length_append, List.length_cons] at hsteps
            obtain ⟨steps, rfl⟩ : ∃ n, steps = n + 1 := Nat.exists_eq_add_one.mpr (by omega)
            have hmember := htake steps (',' :: (compactMembers (next :: members) ++ '}' :: rest))
              (by omega) (follows_cons (by decide) _)
            simp only [List.append_assoc, List.cons_append]
            rw [(takeMembers?_member hmember).1 _ rfl, htakes steps rest (by omega)]
            rfl
          · simp
          · simp

/-- The text of members begins with the quote of the first key, unlike the end of an object. -/
theorem exists_cons_compactMembers {members : List (String × Json)} (h : members ≠ []) :
    ∃ s, compactMembers members = '"' :: s := by
  rcases members with _ | ⟨⟨k, j⟩, members⟩
  · exact absurd rfl h
  · cases members with
    | nil => exact ⟨_, by rw [compactMembers, stringText, List.cons_append]⟩
    | cons next members => exact ⟨_, by rw [compactMembers, stringText, List.cons_append]; simp⟩

theorem takeValue?_object {members : List (String × Json)} (h : members ≠ []) (steps : Nat)
    (rest : List Char) :
    takeValue? (steps + 1) (compactText (object members) ++ rest) =
      (takeMembers? steps (compactMembers members ++ '}' :: rest)).map
        fun (members, rest) => (.object members, rest) := by
  rcases exists_cons_compactMembers h with ⟨s, hs⟩
  rw [compactText, hs]
  simp only [List.cons_append, List.append_assoc, List.nil_append]
  rw [takeValue?, skipBlanks_cons (by decide)]
  simp [skipBlanks_cons (show isBlank '"' = false by decide)]

theorem reads_object {depth : Nat} {members : List (String × Json)}
    (h : ∀ m ∈ members, Reads (depth + 1) (compactText m.2) m.2.canonical) :
    Reads (depth + 2) (compactText (object members)) (object members).canonical := by
  have htext : compactText (object members) = '{' :: (compactMembers members ++ ['}']) := by
    rw [compactText]
  refine reads_of_succ ⟨'{', _, htext, by decide, by decide⟩ ?_
  cases members with
  | nil =>
      exact ⟨.object [], rfl, fun _ _ _ _ => rfl⟩
  | cons first members =>
      rcases exists_takeMembers? (by simp) h with ⟨sources, hvalues, htakes⟩
      refine ⟨.object sources, by simp [Source.valueAt?, hvalues, canonical], ?_⟩
      intro steps rest hsteps _
      rw [htext] at hsteps
      simp only [List.length_cons, List.length_append] at hsteps
      rw [takeValue?_object (by simp), htakes steps rest (by omega)]
      rfl

/-! ## Values -/

theorem reads_compactText {depth : Nat} {j : Json} (h : Legible depth j) :
    Reads depth (compactText j) j.canonical := by
  induction h with
  | null depth =>
      exact reads_of_succ ⟨'n', _, rfl, by decide, by decide⟩ ⟨.null, rfl, fun _ _ _ _ => rfl⟩
  | bool depth b =>
      cases b with
      | true =>
          exact reads_of_succ ⟨'t', _, rfl, by decide, by decide⟩
            ⟨.bool true, rfl, fun _ _ _ _ => rfl⟩
      | false =>
          exact reads_of_succ ⟨'f', _, rfl, by decide, by decide⟩
            ⟨.bool false, rfl, fun _ _ _ _ => rfl⟩
  | number depth h =>
      exact reads_number h depth
  | string depth s =>
      exact reads_string depth s
  | array _ ih =>
      exact reads_array ih
  | object _ ih =>
      exact reads_object ih

theorem read?_compact {j : Json} (h : Legible depthLimit j) :
    read? j.compact = some j.canonical := by
  rcases (reads_compactText h).reads with ⟨source, hvalue, htake⟩
  have hread : takeValue? (2 * (compactText j).length + 2) (compactText j) =
      some (source, []) := by
    simpa using htake (2 * (compactText j).length + 2) [] (by omega) (Text.stops_nil _)
  have hsource : readSource? j.compact = some source := by
    simp only [readSource?, compact, String.toList_ofList, hread, Option.bind_eq_bind,
      Option.bind_some]
    rfl
  rw [read?, hsource]
  exact hvalue

/-! ## One line -/

theorem oneLine_compactItems {items : List Json} (h : ∀ j ∈ items, OneLine (compactText j)) :
    OneLine (compactItems items) := by
  induction items with
  | nil =>
      exact List.forall_mem_nil _
  | cons j items ih =>
      have hj := h j List.mem_cons_self
      have hitems := ih fun i hi => h i (List.mem_cons_of_mem j hi)
      cases items with
      | nil =>
          rw [compactItems]
          exact hj
      | cons next items =>
          rw [compactItems]
          · exact oneLine_append.mpr ⟨hj, oneLine_cons.mpr ⟨by decide, hitems⟩⟩
          · simp

theorem oneLine_compactMembers {members : List (String × Json)}
    (h : ∀ m ∈ members, OneLine (compactText m.2)) : OneLine (compactMembers members) := by
  induction members with
  | nil =>
      exact List.forall_mem_nil _
  | cons m members ih =>
      rcases m with ⟨k, j⟩
      have hk := oneLine_stringText k
      have hj : OneLine (compactText j) := h (k, j) List.mem_cons_self
      have hmembers := ih fun m hm => h m (List.mem_cons_of_mem (k, j) hm)
      cases members with
      | nil =>
          rw [compactMembers]
          exact oneLine_append.mpr ⟨hk, oneLine_cons.mpr ⟨by decide, hj⟩⟩
      | cons next members =>
          rw [compactMembers]
          · refine oneLine_append.mpr ⟨hk, oneLine_cons.mpr ⟨by decide, ?_⟩⟩
            exact oneLine_append.mpr ⟨hj, oneLine_cons.mpr ⟨by decide, hmembers⟩⟩
          · simp

theorem oneLine_compactText {depth : Nat} {j : Json} (h : Legible depth j) :
    OneLine (compactText j) := by
  induction h with
  | null depth =>
      exact oneLine_of_all (by decide)
  | bool depth b =>
      cases b <;> exact oneLine_of_all (by decide)
  | number depth h =>
      exact h.oneLine
  | string depth s =>
      exact oneLine_stringText s
  | array _ ih =>
      rw [compactText]
      refine oneLine_cons.mpr ⟨by decide, oneLine_append.mpr ⟨oneLine_compactItems ih, ?_⟩⟩
      exact oneLine_cons.mpr ⟨by decide, List.forall_mem_nil _⟩
  | object _ ih =>
      rw [compactText]
      refine oneLine_cons.mpr ⟨by decide, oneLine_append.mpr ⟨oneLine_compactMembers ih, ?_⟩⟩
      exact oneLine_cons.mpr ⟨by decide, List.forall_mem_nil _⟩

end Json
end FormatCheck
