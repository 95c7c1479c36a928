import FormatCheck.Proofs.Json.Members
import Mathlib.Data.String.Basic

/-!
# Values as the reader gives them

The reader gives integers of 64 bits, members in key order without repetition, and a depth below its
limit. A value of this form is its own canonical form, and it is legible as soon as its floats are.
-/

namespace FormatCheck
namespace Json

/-! ## Members in key order -/

def KeyOrdered (members : List (String × Json)) : Prop :=
  members.Pairwise fun m next => m.1 < next.1

theorem forall_mem_insertMember {P : String × Json → Prop} {key : String} {value : Json}
    {members : List (String × Json)} (hnew : P (key, value)) (h : ∀ m ∈ members, P m) :
    ∀ m ∈ insertMember key value members, P m := by
  induction members with
  | nil =>
      exact List.forall_mem_singleton.mpr hnew
  | cons first members ih =>
      rcases first with ⟨k, v⟩
      rcases List.forall_mem_cons.mp h with ⟨hfirst, hrest⟩
      unfold insertMember
      split_ifs with hkey hless
      · exact List.forall_mem_cons.mpr ⟨hnew, hrest⟩
      · exact List.forall_mem_cons.mpr ⟨hnew, h⟩
      · exact List.forall_mem_cons.mpr ⟨hfirst, ih hrest⟩

theorem KeyOrdered.insertMember {members : List (String × Json)} (h : KeyOrdered members)
    (key : String) (value : Json) : KeyOrdered (insertMember key value members) := by
  induction members with
  | nil =>
      exact List.pairwise_singleton _ _
  | cons first members ih =>
      rcases first with ⟨k, v⟩
      rcases List.pairwise_cons.mp h with ⟨hfirst, hrest⟩
      unfold Json.insertMember
      split_ifs with hkey hless
      · exact List.pairwise_cons.mpr ⟨hkey ▸ hfirst, hrest⟩
      · have hall : ∀ m ∈ members, key < m.1 := fun m hm => lt_trans hless (hfirst m hm)
        exact List.pairwise_cons.mpr ⟨List.forall_mem_cons.mpr ⟨hless, hall⟩, h⟩
      · have hgreater : k < key := lt_of_le_of_ne (not_lt.mp hless) (Ne.symm hkey)
        exact List.pairwise_cons.mpr ⟨forall_mem_insertMember hgreater hfirst, ih hrest⟩

theorem KeyOrdered.foldl_insertMember {sorted : List (String × Json)} (h : KeyOrdered sorted)
    (members : List (String × Json)) :
    KeyOrdered (members.foldl (fun sorted (k, v) => Json.insertMember k v sorted) sorted) := by
  induction members generalizing sorted with
  | nil =>
      exact h
  | cons m members ih =>
      exact ih (h.insertMember m.1 m.2)

theorem keyOrdered_sortMembers (members : List (String × Json)) :
    KeyOrdered (sortMembers members) :=
  KeyOrdered.foldl_insertMember List.Pairwise.nil members

theorem forall_mem_foldl_insertMember {P : String × Json → Prop}
    {sorted members : List (String × Json)} (hsorted : ∀ m ∈ sorted, P m)
    (h : ∀ m ∈ members, P m) :
    ∀ m ∈ members.foldl (fun sorted (k, v) => insertMember k v sorted) sorted, P m := by
  induction members generalizing sorted with
  | nil =>
      exact hsorted
  | cons first members ih =>
      rcases List.forall_mem_cons.mp h with ⟨hfirst, hrest⟩
      exact ih (forall_mem_insertMember hfirst hsorted) hrest

theorem forall_mem_sortMembers {P : String × Json → Prop} {members : List (String × Json)}
    (h : ∀ m ∈ members, P m) : ∀ m ∈ sortMembers members, P m :=
  forall_mem_foldl_insertMember (List.forall_mem_nil P) h

/-- A member with a key above all others goes last. -/
theorem insertMember_last {key : String} {members : List (String × Json)}
    (h : ∀ m ∈ members, m.1 < key) (value : Json) :
    insertMember key value members = members ++ [(key, value)] := by
  induction members with
  | nil =>
      rfl
  | cons first members ih =>
      rcases first with ⟨k, v⟩
      have hk : k < key := h (k, v) List.mem_cons_self
      rw [insertMember, if_neg (ne_of_gt hk), if_neg (lt_asymm hk),
        ih fun m hm => h m (List.mem_cons_of_mem _ hm), List.cons_append]

theorem KeyOrdered.foldl_eq_append {sorted members : List (String × Json)}
    (h : KeyOrdered (sorted ++ members)) :
    members.foldl (fun sorted (k, v) => Json.insertMember k v sorted) sorted =
      sorted ++ members := by
  induction members generalizing sorted with
  | nil =>
      exact (List.append_nil sorted).symm
  | cons m members ih =>
      rcases m with ⟨k, v⟩
      have hbelow : ∀ s ∈ sorted, s.1 < k :=
        fun s hs => (List.pairwise_append.mp h).2.2 s hs (k, v) List.mem_cons_self
      rw [List.append_cons] at h
      simp only [List.foldl_cons, insertMember_last hbelow, ih h, List.append_assoc,
        List.singleton_append]

theorem sortMembers_of_keyOrdered {members : List (String × Json)} (h : KeyOrdered members) :
    sortMembers members = members := by
  have hall : KeyOrdered ([] ++ members) := h
  exact hall.foldl_eq_append

/-! ## The form of what is read -/

/-- A value as the reader gives it where `depth` more levels may open. -/
inductive Normal : (depth : Nat) → Json → Prop where
  | null (depth : Nat) : Normal depth null
  | bool (depth : Nat) (b : Bool) : Normal depth (bool b)
  | integer (depth : Nat) {z : Int} (hlow : -2 ^ 63 ≤ z) (hhigh : z < 2 ^ 64) :
      Normal depth (number (.integer z))
  | float (depth : Nat) (x : Binary64) : Normal depth (number (.float x))
  | string (depth : Nat) (s : String) : Normal depth (string s)
  | array {depth : Nat} {items : List Json} (h : ∀ j ∈ items, Normal (depth + 1) j) :
      Normal (depth + 2) (array items)
  | object {depth : Nat} {members : List (String × Json)} (hkeys : KeyOrdered members)
      (h : ∀ m ∈ members, Normal (depth + 1) m.2) : Normal (depth + 2) (object members)

theorem Normal.member {depth : Nat} {members : List (String × Json)}
    (h : Normal depth (.object members)) {m : String × Json} (hm : m ∈ members) :
    Normal (depth - 1) m.2 := by
  cases h with
  | object _ hmembers => exact hmembers m hm

theorem normal_number {n : NumberSource} {number : JsonNumber} (h : n.value? = some number)
    (depth : Nat) : Normal depth (.number number) := by
  unfold NumberSource.value? at h
  dsimp only at h
  split_ifs at h with hnatural hnegative
  · cases h
    have hbound := hnatural.2.2
    unfold wordBound at hbound
    exact .integer depth (by omega) (by omega)
  · cases h
    have hbound := hnegative.2.2.2
    exact .integer depth (by omega) (by omega)
  · rcases Option.map_eq_some_iff.mp h with ⟨m, _, rfl⟩
    exact .float depth _

mutual

theorem normal_of_valueAt? : (source : Source) → {depth : Nat} → {j : Json} →
    source.valueAt? depth = some j → Normal depth j
  | .null, depth, j, h => by
      cases h
      exact .null depth
  | .bool b, depth, j, h => by
      cases h
      exact .bool depth b
  | .number n, depth, j, h => by
      rcases Option.map_eq_some_iff.mp h with ⟨number, hvalue, rfl⟩
      exact normal_number hvalue depth
  | .string s, depth, j, h => by
      rcases Option.map_eq_some_iff.mp h with ⟨s, _, rfl⟩
      exact .string depth s
  | .array items, depth, j, h => by
      rw [Source.valueAt?] at h
      split_ifs at h with hdepth
      rcases Option.map_eq_some_iff.mp h with ⟨js, hitems, rfl⟩
      obtain ⟨deeper, rfl⟩ : ∃ deeper, depth = deeper + 2 := ⟨depth - 2, by omega⟩
      exact .array (normal_of_itemsAt? items hitems)
  | .object members, depth, j, h => by
      rw [Source.valueAt?] at h
      split_ifs at h with hdepth
      rcases Option.map_eq_some_iff.mp h with ⟨ms, hmembers, rfl⟩
      obtain ⟨deeper, rfl⟩ : ∃ deeper, depth = deeper + 2 := ⟨depth - 2, by omega⟩
      exact .object (keyOrdered_sortMembers ms)
        (forall_mem_sortMembers (normal_of_membersAt? members hmembers))

theorem normal_of_itemsAt? : (items : List Source) → {depth : Nat} → {js : List Json} →
    itemsAt? depth items = some js → ∀ j ∈ js, Normal depth j
  | [], depth, js, h => by
      cases h
      exact List.forall_mem_nil _
  | item :: items, depth, js, h => by
      simp only [itemsAt?, Option.bind_eq_bind, Option.bind_eq_some_iff, Option.some.injEq] at h
      rcases h with ⟨first, hfirst, rest, hrest, rfl⟩
      exact List.forall_mem_cons.mpr
        ⟨normal_of_valueAt? item hfirst, normal_of_itemsAt? items hrest⟩

theorem normal_of_membersAt? : (members : List (Option String × Source)) → {depth : Nat} →
    {ms : List (String × Json)} → membersAt? depth members = some ms →
      ∀ m ∈ ms, Normal depth m.2
  | [], depth, ms, h => by
      cases h
      exact List.forall_mem_nil _
  | (key, item) :: members, depth, ms, h => by
      simp only [membersAt?, Option.bind_eq_bind, Option.bind_eq_some_iff, Option.some.injEq] at h
      rcases h with ⟨k, _, first, hfirst, rest, hrest, rfl⟩
      exact List.forall_mem_cons.mpr
        ⟨normal_of_valueAt? item hfirst, normal_of_membersAt? members hrest⟩

end

/-- Every value that is read has this form. -/
theorem normal_of_read? {text : String} {j : Json} (h : read? text = some j) :
    Normal depthLimit j := by
  rcases Option.bind_eq_some_iff.mp h with ⟨source, _, hvalue⟩
  exact normal_of_valueAt? source hvalue

/-! ## Its canonical form -/

theorem canonicalItems_of_forall {items : List Json} (h : ∀ j ∈ items, j.canonical = j) :
    canonicalItems items = items := by
  induction items with
  | nil =>
      rfl
  | cons j items ih =>
      rw [canonicalItems, h j List.mem_cons_self, ih fun i hi => h i (List.mem_cons_of_mem _ hi)]

theorem canonicalMembers_of_forall {members : List (String × Json)}
    (h : ∀ m ∈ members, m.2.canonical = m.2) : canonicalMembers members = members := by
  induction members with
  | nil =>
      rfl
  | cons m members ih =>
      have hm : m.2.canonical = m.2 := h m List.mem_cons_self
      rw [canonicalMembers, hm, ih fun i hi => h i (List.mem_cons_of_mem _ hi)]

theorem Normal.canonical_eq {depth : Nat} {j : Json} (h : Normal depth j) : j.canonical = j := by
  induction h with
  | null => rfl
  | bool => rfl
  | integer => rfl
  | float => rfl
  | string => rfl
  | array _ ih =>
      rw [canonical, canonicalItems_of_forall ih]
  | object hkeys _ ih =>
      rw [canonical, canonicalMembers_of_forall ih, sortMembers_of_keyOrdered hkeys]

/-! ## Its floats -/

mutual

/-- The floats in a value, at any depth. -/
def floats : Json → List Binary64
  | number (.float x) => [x]
  | array items => floatsOfItems items
  | object members => floatsOfMembers members
  | _ => []

def floatsOfItems : List Json → List Binary64
  | [] => []
  | j :: items => j.floats ++ floatsOfItems items

def floatsOfMembers : List (String × Json) → List Binary64
  | [] => []
  | (_, j) :: members => j.floats ++ floatsOfMembers members

end

theorem floats_subset_of_mem_items {items : List Json} {j : Json} (h : j ∈ items) :
    j.floats ⊆ floatsOfItems items := by
  induction items with
  | nil =>
      cases h
  | cons first items ih =>
      rw [floatsOfItems]
      rcases List.mem_cons.mp h with rfl | h
      · exact List.subset_append_left _ _
      · exact List.subset_append_of_subset_right _ (ih h)

theorem floats_subset_of_mem_members {members : List (String × Json)} {m : String × Json}
    (h : m ∈ members) : m.2.floats ⊆ floatsOfMembers members := by
  induction members with
  | nil =>
      cases h
  | cons first members ih =>
      rw [floatsOfMembers]
      rcases List.mem_cons.mp h with rfl | h
      · exact List.subset_append_left _ _
      · exact List.subset_append_of_subset_right _ (ih h)

theorem floatsOfMembers_eq_nil {members : List (String × Json)}
    (h : ∀ m ∈ members, m.2.floats = []) : floatsOfMembers members = [] := by
  induction members with
  | nil =>
      rfl
  | cons first members ih =>
      rw [List.forall_mem_cons] at h
      rw [floatsOfMembers, h.1, ih h.2, List.nil_append]

/-- Of what is read only the floats could be illegible. -/
theorem Normal.legible {depth : Nat} {j : Json} (h : Normal depth j)
    (hfloats : ∀ x ∈ j.floats, (JsonNumber.float x).Legible) : Legible depth j := by
  induction h with
  | null depth => exact .null depth
  | bool depth b => exact .bool depth b
  | integer depth hlow hhigh => exact .number depth (legible_integer hlow hhigh)
  | float depth x => exact .number depth (hfloats x (by simp [floats]))
  | string depth s => exact .string depth s
  | array _ ih =>
      refine .array fun j hj => ih j hj fun x hx => hfloats x ?_
      rw [floats]
      exact floats_subset_of_mem_items hj hx
  | object _ _ ih =>
      refine .object fun m hm => ih m hm fun x hx => hfloats x ?_
      rw [floats]
      exact floats_subset_of_mem_members hm hx

end Json
end FormatCheck
