/-!
# Columns

Text filled up with blanks to a width.  A text that is too wide stays as it is.
-/

set_option autoImplicit false

namespace RoutePolicy

/-- The blanks that a text lacks to a width. -/
def filling (width : Nat) (s : String) : String :=
  String.ofList (List.replicate (width - s.length) ' ')

/-- The text at the left end of a column. -/
def padRight (width : Nat) (s : String) : String := s ++ filling width s

/-- The text at the right end of a column. -/
def padLeft (width : Nat) (s : String) : String := filling width s ++ s

end RoutePolicy
