import Stencil.Event

/-!
# Bounds on widths

Widths, gaps and precisions that templates ask for are cut to a bound.
-/

namespace Stencil.Filter

/-- The greatest width, gap or precision. Reference: `MAX_WIDTH`. -/
def maxWidth : Nat := 4096

/-- A width within the bound. Reference: `clamp_width`. -/
def clampWidth (filter : String) (width : Nat) : Logged Nat :=
  if maxWidth < width then .withEvent (.widthClamped filter width maxWidth) maxWidth
  else pure width

end Stencil.Filter
