/-!
Full-width and half-width forms of the same character.
-/

set_option autoImplicit false

namespace VisualBasic

/-- The ASCII counterpart of a full-width form, and the plain space for the ideographic one; every
other character stands for itself. -/
def halfWidth (c : Char) : Char :=
  if 0xFF01 ≤ c.toNat ∧ c.toNat ≤ 0xFF5E then Char.ofNat (c.toNat - 0xFEE0)
  else if c = '\u3000' then ' '
  else c

end VisualBasic
