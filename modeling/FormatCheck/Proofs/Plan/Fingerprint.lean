import FormatCheck.Plan
import FormatCheck.Proofs.Text.Encoding
import FormatCheck.Proofs.Text.Quoted
import Mathlib.Data.List.Forall2

/-!
# What the stream of a plan determines

The stream writes the texts of a group one after the other, each ended by a zero byte, and ends the
group with `0xff`. Neither byte occurs within a text: keys are on one line, formats are handed to a
program as arguments and have no null character, and no UTF-8 text has the byte `0xff`. So the
stream is cut back into groups, and each group into its texts, in one way (`stream_eq_iff_forall₂`).

Where the keys of a group end and its formats begin it does not say. Plans of one stream are the
same table where they agree on how many values each group has, and need not be otherwise.
-/

namespace FormatCheck

namespace Text

/-- The text does not hold the null character. -/
def NulFree (s : String) : Prop := Char.ofNat 0 ∉ s.toList

instance (s : String) : Decidable (NulFree s) := inferInstanceAs (Decidable (_ ∉ _))

end Text

namespace TestPlan

open Text (utf8 NulFree)

/-- No format holds the null character, as none can that a program is given as an argument. -/
def Passable (plan : TestPlan) : Prop :=
  ∀ group ∈ plan.groups, ∀ format ∈ group.formats, NulFree format

instance (plan : TestPlan) : Decidable plan.Passable :=
  inferInstanceAs (Decidable (∀ group ∈ plan.groups, ∀ format ∈ group.formats, NulFree format))

/-! ## Texts -/

theorem nulFree_valueKey (v : Value) : NulFree (valueKey v) := by
  have hkey : Json.OneLine (valueKey v).toList := by
    unfold valueKey
    split
    · exact Json.oneLine_of_all (by decide)
    · exact v.oneLine_reprWith false
  intro hnul
  exact hkey _ hnul (by decide)

theorem nulFree_tag (type : SemanticType) : NulFree type.tag := by
  cases type <;> decide

theorem tag_inj {type type' : SemanticType} : type.tag = type'.tag ↔ type = type' := by
  refine ⟨fun h => ?_, congrArg _⟩
  have hread : SemanticType.ofTag? type.tag = some type' := h ▸ SemanticType.ofTag?_tag type'
  exact Option.some.inj ((SemanticType.ofTag?_tag type).symm.trans hread)

/-- A terminated text is the front of a stream in one way. -/
theorem terminated_append_inj {s t : String} (hs : NulFree s) (ht : NulFree t)
    {rest rest' : Bytes} :
    terminated s ++ rest = terminated t ++ rest' ↔ s = t ∧ rest = rest' := by
  -- What precedes the first zero byte is the text, so the texts are as long as each other.
  have hfront : ∀ {s : String}, NulFree s → ∀ rest,
      (terminated s ++ rest).takeWhile (· ≠ 0) = utf8 s := by
    intro s hs rest
    have hnonzero : ∀ b ∈ utf8 s, (b ≠ 0 : Bool) = true := by
      intro b hb
      refine decide_eq_true ?_
      rintro rfl
      exact hs (Text.zero_mem_utf8_iff.mp hb)
    rw [terminated, List.append_assoc, List.takeWhile_append_of_pos hnonzero]
    simp
  constructor
  · intro h
    have htext : utf8 s = utf8 t := by
      rw [← hfront hs rest, h, hfront ht rest']
    obtain rfl := Text.utf8_inj.mp htext
    exact ⟨rfl, List.append_cancel_left h⟩
  · rintro ⟨rfl, rfl⟩
    rfl

/-- What begins with a text does not end a group. -/
theorem terminated_append_ne (s : String) (rest rest' : Bytes) :
    terminated s ++ rest ≠ 0xff :: rest' := by
  intro h
  have hhead : 0xff ∈ terminated s := by
    unfold terminated at h ⊢
    cases htext : utf8 s with
    | nil =>
        rw [htext] at h
        exact absurd (List.cons.inj h).1 (by decide)
    | cons b bytes =>
        rw [htext] at h
        rw [← (List.cons.inj h).1]
        exact List.mem_cons_self
  rcases List.mem_append.mp hhead with htext | hzero
  · exact Text.ff_notMem_utf8 s htext
  · exact absurd (List.mem_singleton.mp hzero) (by decide)

/-- The texts up to the end of a group are the front of a stream in one way. -/
theorem flatMap_terminated_inj {texts texts' : List String} (h : ∀ s ∈ texts, NulFree s)
    (h' : ∀ s ∈ texts', NulFree s) {rest rest' : Bytes} :
    texts.flatMap terminated ++ 0xff :: rest = texts'.flatMap terminated ++ 0xff :: rest' ↔
      texts = texts' ∧ rest = rest' := by
  induction texts generalizing texts' with
  | nil =>
      cases texts' with
      | nil =>
          simp
      | cons t texts' =>
          rw [List.flatMap_cons, List.append_assoc]
          exact iff_of_false (terminated_append_ne t _ _).symm (by simp)
  | cons s texts ih =>
      cases texts' with
      | nil =>
          rw [List.flatMap_cons, List.append_assoc]
          exact iff_of_false (terminated_append_ne s _ _) (by simp)
      | cons t texts' =>
          rcases List.forall_mem_cons.mp h with ⟨hs, hrest⟩
          rcases List.forall_mem_cons.mp h' with ⟨ht, hrest'⟩
          rw [List.flatMap_cons, List.flatMap_cons, List.append_assoc, List.append_assoc,
            terminated_append_inj hs ht, ih hrest hrest', List.cons.injEq, and_assoc]

end TestPlan

/-! ## Groups -/

namespace TestGroup

open Text (NulFree)
open TestPlan (groupStream terminated valueKey nulFree_valueKey nulFree_tag tag_inj
  flatMap_terminated_inj)

/-- The texts of a group in the order of its stream: the keys of its values, then its formats. -/
def texts (group : TestGroup) : List String := group.values.map valueKey ++ group.formats

/-- The groups have one type and one list of texts, wherever in it the formats begin. -/
structure SharesTexts (group group' : TestGroup) : Prop where
  type : group.type = group'.type
  texts : group.texts = group'.texts

/-- The groups are the same part of a test table, as far as a key stands for its value. -/
structure SameTable (group group' : TestGroup) : Prop where
  type : group.type = group'.type
  keys : group.values.map valueKey = group'.values.map valueKey
  formats : group.formats = group'.formats

variable {group group' : TestGroup}

theorem SameTable.sharesTexts (h : SameTable group group') : SharesTexts group group' :=
  ⟨h.type, congrArg₂ _ h.keys h.formats⟩

/-- The number of values says where the formats begin. -/
theorem SharesTexts.sameTable (h : SharesTexts group group')
    (hcount : group.values.length = group'.values.length) : SameTable group group' := by
  have hlength : (group.values.map valueKey).length = (group'.values.map valueKey).length := by
    rw [List.length_map, List.length_map, hcount]
  rcases List.append_inj h.texts hlength with ⟨hkeys, hformats⟩
  exact ⟨h.type, hkeys, hformats⟩

theorem nulFree_texts (h : ∀ format ∈ group.formats, NulFree format) :
    ∀ s ∈ group.type.tag :: group.texts, NulFree s := by
  refine List.forall_mem_cons.mpr ⟨nulFree_tag group.type, List.forall_mem_append.mpr ⟨?_, h⟩⟩
  intro s hs
  rcases List.mem_map.mp hs with ⟨v, _, rfl⟩
  exact nulFree_valueKey v

theorem groupStream_append (group : TestGroup) (rest : Bytes) :
    groupStream group ++ rest =
      (group.type.tag :: group.texts).flatMap terminated ++ 0xff :: rest := by
  simp [groupStream, texts, List.flatMap_map]

/-- A group is the front of a stream in one way, up to where its formats begin. -/
theorem groupStream_append_inj (h : ∀ format ∈ group.formats, NulFree format)
    (h' : ∀ format ∈ group'.formats, NulFree format) {rest rest' : Bytes} :
    groupStream group ++ rest = groupStream group' ++ rest' ↔
      SharesTexts group group' ∧ rest = rest' := by
  rw [groupStream_append, groupStream_append,
    flatMap_terminated_inj (nulFree_texts h) (nulFree_texts h'), List.cons.injEq, tag_inj]
  exact and_congr_left' ⟨fun ⟨htype, htexts⟩ => ⟨htype, htexts⟩, fun h => ⟨h.type, h.texts⟩⟩

end TestGroup

/-! ## Plans -/

namespace TestPlan

open TestGroup (SharesTexts SameTable groupStream_append groupStream_append_inj)

theorem stream_eq_iff_forall₂ {groups groups' : List TestGroup}
    (h : Passable ⟨groups⟩) (h' : Passable ⟨groups'⟩) :
    stream ⟨groups⟩ = stream ⟨groups'⟩ ↔ List.Forall₂ SharesTexts groups groups' := by
  have hnonempty : ∀ (group : TestGroup) (groups : List TestGroup),
      (group :: groups).flatMap groupStream ≠ [] := by
    intro group groups
    rw [List.flatMap_cons, groupStream_append]
    simp
  induction groups generalizing groups' with
  | nil =>
      cases groups' with
      | nil =>
          simp
      | cons group' groups' =>
          exact iff_of_false (hnonempty group' groups').symm (by simp)
  | cons group groups ih =>
      cases groups' with
      | nil =>
          exact iff_of_false (hnonempty group groups) (by simp)
      | cons group' groups' =>
          rcases List.forall_mem_cons.mp h with ⟨hgroup, hgroups⟩
          rcases List.forall_mem_cons.mp h' with ⟨hgroup', hgroups'⟩
          have hrest : stream ⟨groups⟩ = stream ⟨groups'⟩ ↔
              List.Forall₂ SharesTexts groups groups' := ih hgroups hgroups'
          rw [List.forall₂_cons, ← hrest]
          exact groupStream_append_inj hgroup hgroup'

/-- How many values each group has. -/
def valueCounts (plan : TestPlan) : List Nat := plan.groups.map (·.values.length)

/-- The stream of a plan determines its groups and their texts, and with the number of values of
each group the whole table. -/
theorem stream_eq_iff {plan plan' : TestPlan} (h : plan.Passable) (h' : plan'.Passable) :
    (plan.stream = plan'.stream ↔ List.Forall₂ SharesTexts plan.groups plan'.groups) ∧
      (plan.valueCounts = plan'.valueCounts →
        (plan.stream = plan'.stream ↔ List.Forall₂ SameTable plan.groups plan'.groups)) := by
  refine ⟨stream_eq_iff_forall₂ h h', fun hcounts => ?_⟩
  rw [stream_eq_iff_forall₂ h h']
  have hforall : List.Forall₂ (fun group group' => group.values.length = group'.values.length)
      plan.groups plan'.groups := by
    rw [valueCounts, valueCounts, ← List.forall₂_eq_eq_eq, List.forall₂_map_left_iff,
      List.forall₂_map_right_iff] at hcounts
    exact hcounts
  constructor
  · intro hshares
    exact List.Forall₂.mp (fun _ _ hcount hshares => hshares.sameTable hcount) hforall hshares
  · exact List.Forall₂.imp fun _ _ => SameTable.sharesTexts

/-- A group without values and one without formats: the boundary is at either end of the texts. -/
theorem stream_eq_iff_emptySections :
    let valuesAlone : TestPlan := ⟨[⟨.string, [.str "a"], []⟩]⟩
    let formatsAlone : TestPlan := ⟨[⟨.string, [], ["'a'"]⟩]⟩
    valuesAlone.Passable ∧ formatsAlone.Passable ∧ valuesAlone.stream = formatsAlone.stream ∧
      List.Forall₂ SharesTexts valuesAlone.groups formatsAlone.groups := by
  intro valuesAlone formatsAlone
  have hvalues : valuesAlone.Passable := by decide
  have hformats : formatsAlone.Passable := by decide
  have hstream : valuesAlone.stream = formatsAlone.stream := by decide +kernel
  exact ⟨hvalues, hformats, hstream, (stream_eq_iff hvalues hformats).1.mp hstream⟩

/-- Two values and a format. -/
def twoValuePlan : TestPlan := ⟨[⟨.int32, [.int 1, .int 2], ["{}"]⟩]⟩

/-- The same texts as those of `twoValuePlan`, the second value among the formats. -/
def twoFormatPlan : TestPlan := ⟨[⟨.int32, [.int 1], ["2", "{}"]⟩]⟩

/-- Different tables of one type and one number of cases with one stream, and so one fingerprint. -/
theorem stream_twoFormatPlan :
    twoFormatPlan.Passable ∧ twoValuePlan.Passable ∧
      twoFormatPlan.totalCases = twoValuePlan.totalCases ∧
      twoFormatPlan.stream = twoValuePlan.stream ∧
      twoFormatPlan.fingerprint = twoValuePlan.fingerprint ∧
      ¬ List.Forall₂ SameTable twoFormatPlan.groups twoValuePlan.groups := by
  have hstream : twoFormatPlan.stream = twoValuePlan.stream := by decide +kernel
  refine ⟨by decide, by decide, by decide, hstream, ?_, ?_⟩
  · rw [fingerprint, fingerprint, hstream]
  · rintro (_ | ⟨hgroup, _⟩)
    exact absurd hgroup.formats (by decide)

end TestPlan
end FormatCheck
