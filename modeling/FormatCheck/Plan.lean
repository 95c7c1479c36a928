import FormatCheck.Composer
import FormatCheck.Domain
import FormatCheck.Json
import FormatCheck.Sha256

/-!
# Test plans

A plan is a list of groups, each the values and the formats that one semantic type is tested with;
every format of a group meets every value. The fingerprint of a plan is the digest of `stream`, in
which each tag, value and format ends with a zero byte and each group with the byte `0xff`.
-/

namespace FormatCheck

structure TestGroup where
  type : SemanticType
  values : List Value
  formats : List String
  deriving DecidableEq

namespace TestGroup

/-- The group of a type under a configuration. -/
def ofConfig (config : Config) (type : SemanticType) : TestGroup :=
  ⟨type, Domain.values type, Composer.formatsFor type config⟩

def caseCount (group : TestGroup) : Nat := group.values.length * group.formats.length

end TestGroup

structure TestPlan where
  groups : List TestGroup
  deriving DecidableEq

namespace TestPlan

/-- Whether a configuration tests a type. -/
def enabled (config : Config) : SemanticType → Bool
  | .bool => config.includeBool
  | .char | .unsignedChar => config.includeChar
  | .int8 | .uint8 => config.include8Bit
  | _ => true

/-- The plan of a configuration, in table order. -/
def build (config : Config) : TestPlan :=
  ⟨(SemanticType.all.filter (enabled config)).map (TestGroup.ofConfig config)⟩

def retain (plan : TestPlan) (tags : List String) : TestPlan :=
  ⟨plan.groups.filter fun group => tags.contains group.type.tag⟩

def totalCases (plan : TestPlan) : Nat :=
  plan.groups.foldl (fun total group => total + group.caseCount) 0

/-! ## Fingerprint -/

/-- The text that stands for a value: its representation, but with the sign of not-a-number. -/
def valueKey : Value → String
  | .float ⟨true, .nan⟩ => "-nan"
  | v => v.repr

/-- A text ended by a zero byte. -/
def terminated (s : String) : Bytes := Text.utf8 s ++ [0]

/-- The bytes that identify a group. -/
def groupStream (group : TestGroup) : Bytes :=
  terminated group.type.tag ++ group.values.flatMap (fun v => terminated (valueKey v))
    ++ group.formats.flatMap terminated ++ [0xff]

/-- The bytes that identify a plan. -/
def stream (plan : TestPlan) : Bytes := plan.groups.flatMap groupStream

/-- The digest of the plan's bytes, in hexadecimal. -/
def fingerprint (plan : TestPlan) : String := Sha256.hexadecimal (Sha256.digest plan.stream)

/-! ## Summary -/

/-- The size of a group. -/
def groupJson (group : TestGroup) : Json :=
  .object [("semantic_type", .string group.type.tag), ("values", .nat group.values.length),
    ("formats", .nat group.formats.length), ("cases", .nat group.caseCount)]

/-- The fingerprint and the sizes of a plan. -/
def summaryJson (plan : TestPlan) : Json :=
  .object [("fingerprint", .string plan.fingerprint), ("total_cases", .nat plan.totalCases),
    ("groups", .array (plan.groups.map groupJson))]

end TestPlan
end FormatCheck
