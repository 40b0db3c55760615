/-!
# White space

`isBlank` is the Unicode property White_Space, and `trim` removes it at both ends of a text.
-/

namespace AccountVault.Text

/-- The Unicode property White_Space. -/
def isBlank (c : Char) : Bool :=
  c = ' ' || ('\t' ≤ c && c ≤ '\r') || c = '\u0085' || c = '\u00a0' || c = '\u1680' ||
    ('\u2000' ≤ c && c ≤ '\u200a') || c = '\u2028' || c = '\u2029' || c = '\u202f' ||
    c = '\u205f' || c = '\u3000'

/-- The text without leading white space. -/
def trimLeft (s : List Char) : List Char := s.dropWhile isBlank

/-- The text without white space at either end. -/
def trim (s : List Char) : List Char := (trimLeft (trimLeft s).reverse).reverse

end AccountVault.Text
