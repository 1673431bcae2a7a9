/-! White space. Expressions, numerals and `normalize-space` know four blank characters; the
tokens of `id` and the end of an expression are cut at any character of the standard's
White_Space property. -/
namespace XPath.Text
set_option autoImplicit false

/-- Space, tab, carriage return and line feed. -/
def isBlank (c : Char) : Bool := c == ' ' || c == '\t' || c == '\r' || c == '\n'

/-- The White_Space property. -/
def isSpace (c : Char) : Bool :=
  let n := c.toNat
  (9 ≤ n && n ≤ 13) || n == 0x20 || n == 0x85 || n == 0xA0 || n == 0x1680 ||
    (0x2000 ≤ n && n ≤ 0x200A) || n == 0x2028 || n == 0x2029 || n == 0x202F || n == 0x205F ||
    n == 0x3000

theorem isSpace_of_isBlank {c : Char} (h : isBlank c = true) : isSpace c = true := by
  simp only [isBlank, Bool.or_eq_true, beq_iff_eq] at h
  rcases h with ((rfl | rfl) | rfl) | rfl <;> rfl

/-- Drops the characters of a class from both ends. -/
def trim (cls : Char → Bool) (s : List Char) : List Char :=
  ((s.dropWhile cls).reverse.dropWhile cls).reverse

/-- The pieces between the characters of a class, the empty ones included. -/
def fields (cls : Char → Bool) : List Char → List (List Char)
  | [] => [[]]
  | c :: rest =>
    if cls c then [] :: fields cls rest else (fields cls rest).modifyHead (c :: ·)

/-- The maximal runs of characters outside a class, in order. -/
def words (cls : Char → Bool) (s : List Char) : List (List Char) :=
  (fields cls s).filter (! ·.isEmpty)

/-- The words between blanks, with one space between neighbours. -/
def normalizeSpace (s : List Char) : List Char :=
  [' '].intercalate (words isBlank s)

end XPath.Text
