/-
Addresses of peers and listeners, in the form in which they are shown.
-/

namespace EventServer

structure Address where
  text : String
  deriving DecidableEq, Repr

end EventServer
