import Mathlib.Data.Int.Notation
import Mathlib.Data.Nat.Notation

/-!
# Values shared by the components

Identifiers are 128-bit UUIDs. An instant is a number of nanoseconds, on whichever clock the source
reads it from.
-/

set_option autoImplicit false
set_option relaxedAutoImplicit false

namespace Relayna

/-- A 128-bit identifier. -/
abbrev Uuid := BitVec 128

/-- An instant in nanoseconds. -/
abbrev Timestamp := ℤ

end Relayna
