/-!
# Decimal numbers

The texts that stand for a number: a sign perhaps, then digits with or without a point
among them and with or without an exponent, or the name of a value that has no digits.
-/

namespace TokenVault.Text

/-- A text without a sign at its front. -/
def unsigned : List Char → List Char
  | [] => []
  | c :: rest => if c = '+' ∨ c = '-' then rest else c :: rest

/-- Whether a text is an exponent: nothing, or a letter and a whole number. -/
def isExponent : List Char → Bool
  | [] => true
  | c :: rest => c.toLower = 'e' && unsigned rest ≠ [] && (unsigned rest).all Char.isDigit

/-- Whether a text is a number that is written with digits.  One side of the point may be
without digits. -/
def isDecimal (text : List Char) : Bool :=
  let whole := text.takeWhile Char.isDigit
  match text.dropWhile Char.isDigit with
  | '.' :: rest =>
    (whole ≠ [] || rest.takeWhile Char.isDigit ≠ []) && isExponent (rest.dropWhile Char.isDigit)
  | rest => whole ≠ [] && isExponent rest

/-- The names of values without digits. -/
def valueNames : List String := ["inf", "infinity", "nan"]

/-- Whether a text stands for a number. -/
def isNumber (text : List Char) : Bool :=
  isDecimal (unsigned text) ||
    valueNames.any fun name => name.toList = (unsigned text).map Char.toLower

/-- A number of digits alone is a number. -/
theorem isDecimal_of_all_isDigit {text : List Char} (hne : text ≠ [])
    (h : text.all Char.isDigit = true) : isDecimal text = true := by
  have hdrop : text.dropWhile Char.isDigit = [] := by
    clear hne
    induction text <;> simp_all
  have htake := List.takeWhile_append_dropWhile (p := Char.isDigit) (l := text)
  rw [hdrop, List.append_nil] at htake
  simp [isDecimal, hdrop, htake, hne, isExponent]

example : isNumber "+5.e-3".toList = true ∧ isNumber "-Infinity".toList = true ∧
    isNumber "+.".toList = false ∧ isNumber "1e".toList = false := by decide +kernel

end TokenVault.Text
