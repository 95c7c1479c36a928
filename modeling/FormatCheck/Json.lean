import FormatCheck.Binary

/-!
# JSON values

A number is an integer of 64 bits, signed or unsigned, or a double-precision float. An object is a
list of members in the order in which they are written; `insertMember` and `sortMembers` give the
canonical order, by key, in which a later member replaces an earlier one of the same key.
-/

namespace FormatCheck

inductive JsonNumber where
  | integer (z : Int)
  | float (x : Binary64)
  deriving DecidableEq, Repr

inductive Json where
  | null
  | bool (b : Bool)
  | number (n : JsonNumber)
  | string (s : String)
  | array (items : List Json)
  | object (members : List (String × Json))
  deriving Repr

namespace Json

def int (z : Int) : Json := number (.integer z)

def nat (n : Nat) : Json := int n

/-- The value, or `null` for none. -/
def ofOption {α : Type} (f : α → Json) : Option α → Json
  | some a => f a
  | none => null

/-! ## Members -/

/-- Puts a member into a list in key order, in the place of one with the same key. -/
def insertMember (key : String) (value : Json) : List (String × Json) → List (String × Json)
  | [] => [(key, value)]
  | (k, v) :: members =>
    if key = k then (key, value) :: members
    else if key < k then (key, value) :: (k, v) :: members
    else (k, v) :: insertMember key value members

/-- Members in key order, the last of each key kept. -/
def sortMembers (members : List (String × Json)) : List (String × Json) :=
  members.foldl (fun sorted (k, v) => insertMember k v sorted) []

def get? : Json → String → Option Json
  | object members, key => members.lookup key
  | _, _ => none

/-! ## Typed views -/

def bool? : Json → Option Bool
  | bool b => some b
  | _ => none

def string? : Json → Option String
  | string s => some s
  | _ => none

/-- An integer between two bounds, both included. Floats are refused even when integral. -/
def integerIn? (least greatest : Int) : Json → Option Int
  | number (.integer z) => if least ≤ z ∧ z ≤ greatest then some z else none
  | _ => none

/-- An unsigned 64-bit number. -/
def unsigned? (j : Json) : Option Nat := (j.integerIn? 0 (2 ^ 64 - 1)).map Int.toNat

/-- A signed 32-bit number. -/
def int32? (j : Json) : Option Int := j.integerIn? (-(2 ^ 31)) (2 ^ 31 - 1)

def array? : Json → Option (List Json)
  | array items => some items
  | _ => none

/-- The name of an alternative without content: the name alone, or the one key of an object whose
value is `null`. -/
def alternative? : Json → Option String
  | string s => some s
  | object [(name, null)] => some name
  | _ => none

/-- Reads an optional member: absent and `null` are none, and what is there must be readable. -/
def optional? {α : Type} (read : Json → Option α) : Option Json → Option (Option α)
  | none | some null => some none
  | some j => (read j).map some

/-- The members of a record whose fields have the given names: an object as it is, or an array with
the values in field order. A shorter array is taken only where missing fields have defaults. -/
def record? (names : List String) (allowShort : Bool) : Json → Option (List (String × Json))
  | object members => some members
  | array items =>
    if items.length = names.length ∨ (allowShort ∧ items.length < names.length) then
      some (names.zip items)
    else none
  | _ => none

end Json
end FormatCheck
