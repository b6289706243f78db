import Mathlib

/-!
# OpenDweb — keys of maps

What a map asks of the order on its keys.

* **`transOrd`** — the order of a `LinearOrder`, under one name wherever a map is written.
-/

namespace Dweb

instance transOrd {κ : Type*} [LinearOrder κ] : Std.TransOrd κ := inferInstance

end Dweb
