/-! # Environments -/

namespace RehashChart

abbrev Environment := List (String × String)

end RehashChart
