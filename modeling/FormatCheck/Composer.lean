import FormatCheck.Config
import FormatCheck.SemanticType

/-!
# Composing formats

Formats are composed from independent axes: conversion, fill and alignment, sign, alternate form,
width, grouping, precision and presentation type. The axes that apply to a category are combined in
every way, the first varying slowest, and each combination becomes the specifier of a field.

Fragments may be empty, so different combinations can spell the same specifier; such repeats stay.
-/

namespace FormatCheck
namespace Composer

/-- The fragments of one part of a specifier. -/
abbrev Axis := List String

/-! ## Combination -/

/-- Every text of `xs` before every text of `ys`, those of `xs` varying slowest. -/
def pairs (xs ys : List String) : List String := xs.flatMap fun x => ys.map fun y => x ++ y

/-- Every choice of one fragment per axis, joined in axis order. -/
def combinations (axes : List Axis) : List String := axes.foldr pairs [""]

def conversions : Axis := ["", "!r", "!s"]

/-- Every conversion with every specifier of the axes, each as a field. -/
def fields (axes : List Axis) : List String :=
  (pairs conversions ((combinations axes).map fun spec => ":" ++ spec)).map fun inner =>
    "\x7b" ++ inner ++ "\x7d"

/-! ## Axes -/

def aligns : Axis := ["", "_<", "_>", "_=", "_^"]
def textAligns : Axis := ["_<", "_>", "_^"]
def signs : Axis := ["", "+", "-", " "]
def alternates : Axis := ["", "#"]
def widths : Axis := ["", "0", "01", "016"]
def groupings : Axis := ["", ","]
def precisions : Axis := ["", ".0", ".1", ".6", ".12"]

/-- The forms tested whatever the axes. -/
def basic : List String :=
  ["\x7b\x7d", "\x7b!r\x7d", "\x7b!s\x7d", "\x7b0\x7d", "foo \x7b0\x7d bar \x7b0\x7d baz"]

/-! ## Formats of a category -/

/-- The formats of integers: non-decimal types with the alternate form, decimal with grouping, and
integers as floats. -/
def integerFields (types : PresentationTypes) : List String :=
  fields [aligns, signs, alternates, widths, "" :: types.nonDecimal]
    ++ fields [aligns, signs, alternates, widths, groupings, ["", "d"]]
    ++ fields [aligns, signs, widths, groupings, "" :: types.float]

def floatFields (config : Config) : List String :=
  let types := config.presentation.types
  if config.floatPrecisionAxis then
    fields [aligns, signs, widths, groupings, precisions, types.float]
  else fields [aligns, signs, widths, groupings, types.float]

/-- The formats of a category, in order. -/
def formatsOf (category : Category) (config : Config) : List String :=
  let types := config.presentation.types
  match category with
  | .bool => basic ++ fields [aligns, widths, "" :: (types.char ++ types.integer ++ types.float)]
  | .char | .signedInt | .unsignedInt => basic ++ integerFields types
  | .float => (if config.floatBasicFormats then basic else []) ++ floatFields config
  | .text =>
    basic ++ fields [textAligns, widths, "" :: types.text] ++ fields ["" :: types.text]

/-- The formats that a type is tested with, in order. -/
def formatsFor (type : SemanticType) (config : Config) : List String :=
  formatsOf type.category config

end Composer
end FormatCheck
