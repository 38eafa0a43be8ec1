/-! # The version of the program -/

namespace HostDecl

/-- The version. -/
def version : String := "0.1.0"

end HostDecl
