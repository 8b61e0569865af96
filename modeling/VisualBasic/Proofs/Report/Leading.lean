import VisualBasic.Proofs.Parse.Progress
import VisualBasic.Proofs.Report.Order
import VisualBasic.Proofs.Scan.Leading
import VisualBasic.Proofs.Text.Inert

/-!
What stands behind directives is read as if they were not there.
-/

set_option autoImplicit false

namespace VisualBasic

theorem DirectiveLines.significant {n : Nat} {front : List Token} (lines : DirectiveLines n front) :
    DirectiveLines n (significant front) := by
  induction lines with
  | nil => exact .nil
  | cons sign inside isBreak _ ih =>
    rw [significant_cons (by simp [sign]), significant_append, significant_cons (by simp [isBreak])]
    exact .cons sign (fun t member => inside t (List.mem_of_mem_filter member)) isBreak ih

namespace Parse

variable {r : Rules} {s : ParseState}

end Parse

end VisualBasic
