import FormatCheck.Render.Padding

/-!
# Rendering strings

A string takes the presentation type `s` or none, a fill, an alignment other than `=`, a width and a
precision, which cuts it. The checks are in the order in which their rejections are reported.
-/

namespace FormatCheck
namespace Render

def formatText (s : List Char) (spec : Spec) : Except FormatError (List Char) := do
  spec.checkGrouping (some (spec.code.getD 's'))
  let code := spec.code.getD 's'
  if code ≠ 's' then .error (.unknownCode code .str)
  else if spec.sign = some .space then .error .spaceOnString
  else if spec.sign.isSome then .error .signOnString
  else if spec.alternate then .error .alternateOnString
  else
    let (fill, align) := spec.resolveFill .left
    if align = .afterSign then .error .equalsAlignOnString
    else
      let shown := match spec.precision with
        | some p => s.take p
        | none => s
      .ok (padText shown spec.width fill align)

end Render
end FormatCheck
