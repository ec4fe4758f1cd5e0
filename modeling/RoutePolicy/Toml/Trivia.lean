/-!
# What separates the words of a TOML text

Blanks, line ends and comments.  A line ends with a line feed, which a carriage return may precede;
a carriage return alone is no line end.

* `skipSpaces`, `skipLines`, `skipTrivia` — the text after blanks, after blanks and line ends, and
  after comments as well;
* `endOfLine?` — the text after the end of a line that holds nothing more than a comment.
-/

set_option autoImplicit false

namespace RoutePolicy

namespace Toml

/-- Whether a character may stand in comments and strings: a tab, or anything that is not a control
character of ASCII. -/
def isText (c : Char) : Bool := c == '\t' || (' ' ≤ c && c != '\x7f')

/-- Whether a character is a blank. -/
def isSpace (c : Char) : Bool := c == ' ' || c == '\t'

/-- The text after blanks. -/
def skipSpaces (cs : List Char) : List Char := cs.dropWhile isSpace

/-- The text after a line end. -/
def newLine? : List Char → Option (List Char)
  | '\n' :: rest => some rest
  | '\r' :: '\n' :: rest => some rest
  | _ => none

/-- The text after blanks and line ends. -/
def skipLines : List Char → List Char
  | '\r' :: '\n' :: rest => skipLines rest
  | c :: rest => if isSpace c || c == '\n' then skipLines rest else c :: rest
  | [] => []

/-- The text after a comment that stands here. -/
def skipComment : List Char → List Char
  | '#' :: rest => rest.dropWhile isText
  | cs => cs

theorem length_dropWhile_le (p : Char → Bool) (cs : List Char) :
    (cs.dropWhile p).length ≤ cs.length :=
  (List.dropWhile_sublist p).length_le

theorem length_skipSpaces_le (cs : List Char) : (skipSpaces cs).length ≤ cs.length :=
  length_dropWhile_le _ cs

theorem length_skipLines_le (cs : List Char) : (skipLines cs).length ≤ cs.length := by
  fun_induction skipLines cs with
  | case1 rest ih => simp only [List.length_cons]; omega
  | case2 c rest _ _ ih => simp only [List.length_cons]; omega
  | case3 c rest _ _ => exact Nat.le_refl _
  | case4 => exact Nat.le_refl _

theorem length_newLine?_lt {cs rest : List Char} (h : newLine? cs = some rest) :
    rest.length < cs.length := by
  unfold newLine? at h
  split at h
  · cases h
    simp only [List.length_cons]
    omega
  · cases h
    simp only [List.length_cons]
    omega
  · cases h

/-- The text after blanks, line ends and comments. -/
def skipTrivia : List Char → List Char
  | '#' :: rest => skipTrivia (rest.dropWhile isText)
  | '\r' :: '\n' :: rest => skipTrivia rest
  | c :: rest => if isSpace c || c == '\n' then skipTrivia rest else c :: rest
  | [] => []
termination_by cs => cs.length
decreasing_by
  · have := length_dropWhile_le isText rest
    simp only [List.length_cons]
    omega
  · simp only [List.length_cons]
    omega
  · simp only [List.length_cons]
    omega

/-- The text after the end of a line that holds nothing more than blanks and a comment.  The end of
the text ends a line as well. -/
def endOfLine? (cs : List Char) : Option (List Char) :=
  match skipComment (skipSpaces cs) with
  | [] => some []
  | rest => newLine? rest

end Toml

end RoutePolicy
