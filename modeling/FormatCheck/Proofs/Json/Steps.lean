import FormatCheck.Proofs.Json.Members

/-!
# Steps of the reader

The reader of JSON texts counts down steps, and what it takes with some steps it takes with any
greater number of them. So members that were read as an object of their own are read as well behind
others, although all are taken with the steps of the longer text. Nothing is asked of the members
that were read: they may be nested and their numbers may be anything, as long as they were read.
-/

namespace FormatCheck
namespace Json

/-! ## More steps -/

/-- What one reader takes another takes in the same way. -/
def TakesAlso {α : Type} (take more : List Char → Option α) : Prop :=
  ∀ s a, take s = some a → more s = some a

theorem TakesAlso.map {α β : Type} {take more : List Char → Option α} (h : TakesAlso take more)
    (f : α → β) (s : List Char) (b : β) (hb : (take s).map f = some b) :
    (more s).map f = some b := by
  rcases Option.map_eq_some_iff.mp hb with ⟨a, ha, rfl⟩
  rw [h s a ha]
  rfl

theorem TakesAlso.bind {α β : Type} {take more : List Char → Option α} (h : TakesAlso take more)
    {f g : α → Option β} {s : List Char} {b : β} (hfg : ∀ a, f a = some b → g a = some b)
    (hb : (take s).bind f = some b) : (more s).bind g = some b := by
  rcases Option.bind_eq_some_iff.mp hb with ⟨a, ha, hfa⟩
  rw [h s a ha]
  exact hfg a hfa

/-- One step more takes nothing else. The three readers call each other with a step less, so the
induction is on the steps and is about all three. -/
theorem takesAlso_succ (steps : Nat) :
    TakesAlso (takeValue? steps) (takeValue? (steps + 1)) ∧
      TakesAlso (takeItems? steps) (takeItems? (steps + 1)) ∧
        TakesAlso (takeMembers? steps) (takeMembers? (steps + 1)) := by
  induction steps with
  | zero =>
      refine ⟨?_, ?_, ?_⟩ <;> intro s result h <;> cases h
  | succ steps ih =>
      rcases ih with ⟨hvalue, hitems, hmembers⟩
      refine ⟨?_, ?_, ?_⟩
      · intro s result
        rw [takeValue?, takeValue?]
        split
        · split
          · exact id
          · exact hmembers.map _ _ _
        · split
          · exact id
          · exact hitems.map _ _ _
        · exact id
        · exact id
        · exact id
        · exact id
        · exact id
      · intro s result
        rw [takeItems?, takeItems?]
        refine hvalue.bind ?_
        rintro ⟨item, s⟩
        dsimp only
        split
        · exact hitems.map _ _ _
        · exact id
        · exact id
      · intro s result
        rw [takeMembers?, takeMembers?]
        split
        · refine TakesAlso.bind (fun _ _ => id) ?_
          rintro ⟨key, s⟩
          dsimp only
          split
          · refine hvalue.bind ?_
            rintro ⟨value, s⟩
            dsimp only
            split
            · exact hmembers.map _ _ _
            · exact id
            · exact id
          · exact id
        · exact id

theorem takesAlso_takeMembers? {steps more : Nat} (h : steps ≤ more) :
    TakesAlso (takeMembers? steps) (takeMembers? more) := by
  induction h with
  | refl =>
      exact fun _ _ => id
  | step _ ih =>
      exact fun s result hread => (takesAlso_succ _).2.2 s result (ih s result hread)

/-! ## Members behind others -/

/-- The text of members that are not the last ones of their object. -/
def leadingText : List (String × Json) → List Char
  | [] => []
  | (k, j) :: members => stringText k ++ ':' :: (compactText j ++ ',' :: leadingText members)

theorem compactMembers_append (front : List (String × Json)) {last : List (String × Json)}
    (h : last ≠ []) :
    compactMembers (front ++ last) = leadingText front ++ compactMembers last := by
  induction front with
  | nil =>
      rfl
  | cons m front ih =>
      rcases m with ⟨k, j⟩
      rw [List.cons_append, compactMembers, ih, leadingText]
      · simp
      · exact List.append_ne_nil_of_right_ne_nil front h

/-- Members before others are taken first, and then the others as they would be alone. -/
theorem exists_takeMembers?_leading {depth : Nat} {front : List (String × Json)}
    (h : ∀ m ∈ front, Reads depth (compactText m.2) m.2.canonical) :
    ∃ sources : List (Option String × Source),
      membersAt? depth sources = some (canonicalMembers front) ∧
        ∀ steps s members rest, takeMembers? steps s = some (members, rest) →
          takeMembers? (steps + 2 * (leadingText front).length) (leadingText front ++ s) =
            some (sources ++ members, rest) := by
  induction front with
  | nil =>
      exact ⟨[], rfl, fun _ _ _ _ hread => hread⟩
  | cons m front ih =>
      rcases m with ⟨k, j⟩
      have hj : Reads depth (compactText j) j.canonical := h (k, j) List.mem_cons_self
      rcases hj.reads with ⟨source, hvalue, htake⟩
      rcases ih fun m hm => h m (List.mem_cons_of_mem _ hm) with ⟨sources, hvalues, htakes⟩
      refine ⟨(some k, source) :: sources,
        by simp [membersAt?, canonicalMembers, hvalue, hvalues], ?_⟩
      intro steps s members rest hread
      rw [leadingText]
      generalize hsteps : steps + 2 * (stringText k ++ ':' ::
        (compactText j ++ ',' :: leadingText front)).length = total
      simp only [List.length_append, List.length_cons] at hsteps
      obtain ⟨total, rfl⟩ : ∃ n, total = n + 1 := Nat.exists_eq_add_one.mpr (by omega)
      have hmember := htake total (',' :: (leadingText front ++ s)) (by omega)
        (follows_cons (by decide) _)
      -- The induction leaves fewer steps than there are here.
      have hothers : takeMembers? total (leadingText front ++ s) =
          some (sources ++ members, rest) :=
        takesAlso_takeMembers? (by omega) _ _ (htakes steps s members rest hread)
      simp only [List.append_assoc, List.cons_append]
      rw [(takeMembers?_member hmember).1 _ rfl, hothers]
      rfl

theorem membersAt?_append {depth : Nat} {front last : List (Option String × Source)}
    {ms ns : List (String × Json)} (hfront : membersAt? depth front = some ms)
    (hlast : membersAt? depth last = some ns) :
    membersAt? depth (front ++ last) = some (ms ++ ns) := by
  induction front generalizing ms with
  | nil =>
      cases hfront
      exact hlast
  | cons member front ih =>
      rcases member with ⟨key, item⟩
      simp only [membersAt?, Option.bind_eq_bind, Option.bind_eq_some_iff, Option.some.injEq]
        at hfront
      rcases hfront with ⟨k, hk, j, hj, rest, hrest, rfl⟩
      simp [membersAt?, hk, hj, ih hrest]

/-! ## Objects -/

theorem readSource?_object {members : List (String × Json)} (h : members ≠ []) :
    readSource? (object members).compact =
      (takeMembers? (2 * (compactText (object members)).length + 1)
        (compactMembers members ++ ['}'])).bind
          fun (members, rest) => if skipBlanks rest = [] then some (.object members) else none := by
  have htake := takeValue?_object h (2 * (compactText (object members)).length + 1) []
  rw [List.append_nil] at htake
  rw [readSource?, compact, String.toList_ofList, htake, Option.bind_eq_bind, Option.bind_map]
  rfl

/-- What is read of an object that is not empty are its members as they are taken. -/
theorem read?_object_eq_some_iff {members : List (String × Json)} (h : members ≠ []) {j : Json} :
    read? (object members).compact = some j ↔
      ∃ sources rest ms,
        takeMembers? (2 * (compactText (object members)).length + 1)
            (compactMembers members ++ ['}']) = some (sources, rest) ∧
          skipBlanks rest = [] ∧ membersAt? (depthLimit - 1) sources = some ms ∧
          object (sortMembers ms) = j := by
  have hvalue : ∀ sources, (Source.object sources).value? =
      (membersAt? (depthLimit - 1) sources).map fun ms => object (sortMembers ms) := by
    intro sources
    rw [Source.value?, Source.valueAt?, if_neg (by decide)]
  rw [read?, readSource?_object h, Option.bind_eq_bind]
  constructor
  · intro hread
    rcases Option.bind_eq_some_iff.mp hread with ⟨source, hsource, hj⟩
    rcases Option.bind_eq_some_iff.mp hsource with ⟨⟨sources, rest⟩, htake, hend⟩
    dsimp only at hend
    split_ifs at hend with hblanks
    cases hend
    rw [hvalue] at hj
    rcases Option.map_eq_some_iff.mp hj with ⟨ms, hms, hobject⟩
    exact ⟨sources, rest, ms, htake, hblanks, hms, hobject⟩
  · rintro ⟨sources, rest, ms, htake, hblanks, hms, hobject⟩
    rw [htake, Option.bind_some]
    dsimp only
    rw [if_pos hblanks, Option.bind_some, hvalue, hms, Option.map_some, hobject]

theorem Legible.member {depth : Nat} {members : List (String × Json)}
    (h : Legible depth (.object members)) : ∀ m ∈ members, Legible (depth - 1) m.2 := by
  cases h with
  | object hmembers => exact hmembers

/-- What stands behind members that are legible is read as it is alone, and of members with one key
it is the one that counts. -/
theorem read?_object_append {front last members : List (String × Json)}
    (hfront : ∀ m ∈ front, Legible (depthLimit - 1) m.2) (hlast : last ≠ [])
    (hread : read? (object last).compact = some (object members)) :
    ∃ all, read? (object (front ++ last)).compact = some (object all) ∧
      ∀ name, all.lookup name =
        (members.lookup name).or ((sortMembers (canonicalMembers front)).lookup name) := by
  rcases (read?_object_eq_some_iff hlast).mp hread
    with ⟨taken, rest, ms, htaken, hblanks, hms, hmembers⟩
  cases hmembers
  rcases exists_takeMembers?_leading fun m hm => reads_compactText (hfront m hm)
    with ⟨sources, hvalues, htakes⟩
  have hall : front ++ last ≠ [] := List.append_ne_nil_of_right_ne_nil front hlast
  -- For each character in front there are two more steps, as many as the front members need.
  have hsteps : 2 * (compactText (object (front ++ last))).length + 1 =
      2 * (compactText (object last)).length + 1 + 2 * (leadingText front).length := by
    simp only [compactText, compactMembers_append front hlast, List.length_cons,
      List.length_append]
    omega
  have htake := htakes _ _ _ _ htaken
  rw [← hsteps, ← List.append_assoc, ← compactMembers_append front hlast] at htake
  refine ⟨sortMembers (canonicalMembers front ++ ms), ?_, ?_⟩
  · exact (read?_object_eq_some_iff hall).mpr
      ⟨sources ++ taken, rest, _, htake, hblanks, membersAt?_append hvalues hms, rfl⟩
  · exact lookup_sortMembers_append (canonicalMembers front) ms

end Json
end FormatCheck
