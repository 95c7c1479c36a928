import FormatCheck.Proofs.Json.Reading

/-!
# Members of canonical objects

The canonical form of an object has the same members as the object, each found under its key, if no
key is there twice.
-/

namespace FormatCheck
namespace Json

theorem lookup_cons (k name : String) (v : Json) (members : List (String × Json)) :
    ((k, v) :: members).lookup name = if name = k then some v else members.lookup name := by
  rw [List.lookup_cons]
  by_cases hname : name = k
  · simp [hname]
  · have hne : (name == k) = false := beq_false_of_ne hname
    simp [hname, hne]

theorem lookup_insertMember (key name : String) (value : Json) (members : List (String × Json)) :
    (insertMember key value members).lookup name =
      if name = key then some value else members.lookup name := by
  induction members with
  | nil =>
      exact lookup_cons key name value []
  | cons m members ih =>
      rcases m with ⟨k, v⟩
      unfold insertMember
      by_cases hkey : key = k
      · rw [if_pos hkey, lookup_cons, lookup_cons, ← hkey]
        by_cases hname : name = key <;> simp [hname]
      · rw [if_neg hkey]
        by_cases hless : key < k
        · rw [if_pos hless, lookup_cons]
        · rw [if_neg hless, lookup_cons, lookup_cons, ih]
          -- The member goes further down, and the first one is under another key.
          by_cases hname : name = key
          · simp [hname, hkey]
          · simp [hname]

/-- Members put into a list are found before what was there. -/
theorem lookup_foldl_insertMember (members sorted : List (String × Json)) (name : String) :
    (members.foldl (fun sorted (k, v) => insertMember k v sorted) sorted).lookup name =
      ((sortMembers members).lookup name).or (sorted.lookup name) := by
  induction members generalizing sorted with
  | nil =>
      rfl
  | cons m members ih =>
      rcases m with ⟨k, v⟩
      rw [sortMembers, List.foldl_cons, List.foldl_cons, ih, ih, lookup_insertMember,
        lookup_insertMember, Option.or_assoc]
      by_cases hname : name = k
      · rw [if_pos hname, if_pos hname, Option.some_or]
      · rw [if_neg hname, if_neg hname, List.lookup_nil, Option.none_or]

/-- Of members with one key the last counts. -/
theorem lookup_sortMembers_append (front last : List (String × Json)) (name : String) :
    (sortMembers (front ++ last)).lookup name =
      ((sortMembers last).lookup name).or ((sortMembers front).lookup name) := by
  rw [sortMembers, List.foldl_append]
  exact lookup_foldl_insertMember last (sortMembers front) name

theorem lookup_sortMembers {members : List (String × Json)} (h : (members.map Prod.fst).Nodup)
    (name : String) : (sortMembers members).lookup name = members.lookup name := by
  induction members with
  | nil =>
      rfl
  | cons m members ih =>
      rcases m with ⟨k, v⟩
      rw [List.map_cons, List.nodup_cons] at h
      have hfirst : (sortMembers [(k, v)]).lookup name = [(k, v)].lookup name := rfl
      rw [← List.singleton_append, lookup_sortMembers_append, ih h.2, hfirst,
        List.singleton_append, lookup_cons, lookup_cons]
      by_cases hname : name = k
      · have hlater : members.lookup name = none := by
          rw [List.lookup_eq_none_iff]
          intro m hm
          have hother : name ≠ m.1 := by
            rintro rfl
            exact h.1 (List.mem_map.mpr ⟨m, hm, hname⟩)
          simpa using hother
        rw [if_pos hname, if_pos hname, hlater, Option.none_or]
      · rw [if_neg hname, if_neg hname, List.lookup_nil, Option.or_none]

theorem map_fst_canonicalMembers (members : List (String × Json)) :
    (canonicalMembers members).map Prod.fst = members.map Prod.fst := by
  induction members with
  | nil =>
      rfl
  | cons m members ih =>
      rw [canonicalMembers, List.map_cons, List.map_cons, ih]

/-- What is found in the canonical form of an object. -/
theorem lookup_canonical {members : List (String × Json)} (h : (members.map Prod.fst).Nodup)
    (name : String) :
    (sortMembers (canonicalMembers members)).lookup name =
      (members.lookup name).map canonical := by
  rw [← map_fst_canonicalMembers] at h
  rw [lookup_sortMembers h]
  induction members with
  | nil =>
      rfl
  | cons m members ih =>
      rcases m with ⟨k, v⟩
      rw [canonicalMembers, List.map_cons, List.nodup_cons] at h
      rw [canonicalMembers, lookup_cons, lookup_cons, ih h.2]
      by_cases hname : name = k
      · rw [if_pos hname, if_pos hname, Option.map_some]
      · rw [if_neg hname, if_neg hname]

end Json
end FormatCheck
