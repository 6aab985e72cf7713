/-!
# Locales

A `Locale` says how the digits of the integer part of a number are grouped and how its
fraction is set off. Groups are counted from the right.
-/

namespace BraceFormat

/-- The separators of numbers. -/
structure Locale where
  /-- Stands between groups of digits, if anything does. -/
  separator : Option Char
  /-- Stands between the integer part and the fraction. -/
  point : Char
  /-- The number of digits in a group; with zero there are no groups. -/
  grouping : UInt8
  deriving DecidableEq, Repr

namespace Locale

/-- No groups, and a full stop for the point. -/
def c : Locale := ⟨none, '.', 0⟩

/-- Groups of three between commas, and a full stop for the point. -/
def enUS : Locale := ⟨some ',', '.', 3⟩

/-- Groups of three between full stops, and a comma for the point. -/
def deDE : Locale := ⟨some '.', ',', 3⟩

instance : Inhabited Locale := ⟨c⟩

/-- The separator in front of a digit that begins the last `position` digits: there is one
if these digits are whole groups. -/
def separatorBefore (locale : Locale) (position : Nat) : Option Char :=
  if 0 < locale.grouping.toNat ∧ 0 < position ∧ position % locale.grouping.toNat = 0 then
    locale.separator
  else none

/-- A run of digits with the separators between its groups. -/
def group (locale : Locale) : List Char → List Char
  | [] => []
  | digit :: rest => digit :: (locale.separatorBefore rest.length).toList ++ locale.group rest

/-- A plain numeral with the separators of the locale: its leading digits are grouped, and in
what follows every full stop becomes the point. -/
def localize (locale : Locale) (numeral : List Char) : List Char :=
  locale.group (numeral.takeWhile Char.isDigit) ++
    (numeral.dropWhile Char.isDigit).map fun ch => if ch = '.' then locale.point else ch

end Locale

end BraceFormat
