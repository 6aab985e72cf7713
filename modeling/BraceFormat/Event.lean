import BraceFormat.Error
import BraceFormat.Locale
import BraceFormat.Text.Quoted

/-!
# Events

Calls report what they do: when one starts and when it fails, and when the global locale is
set or removed. An `Event` is such a report; its `level`, `message` and `fields` are the text
of the record it makes in a log.
-/

namespace BraceFormat

/-- A report of a formatting call, or of a change of the global locale. -/
inductive Event where
  /-- A call starts, with a template of `length` bytes and `count` arguments. -/
  | formatting (length count : Nat)
  /-- A call fails. -/
  | failed (e : FormatError)
  /-- A global locale is set; `replaced` tells whether there was one before. -/
  | installed (locale : Locale) (replaced : Bool)
  /-- The global locale is removed. -/
  | removed
  deriving DecidableEq, Repr

namespace Event

/-- The level an event is reported at. -/
def level : Event → String
  | .formatting .. => "TRACE"
  | _ => "DEBUG"

/-- What an event says. -/
def message : Event → String
  | .formatting .. => "formatting template"
  | .failed _ => "formatting failed"
  | .installed .. => "installed global formatting locale"
  | .removed => "removed global formatting locale"

/-- The name of a kind of error in a record. -/
def kindName : ErrorKind → String
  | .malformedTemplate => "MalformedTemplate"
  | .indexingConflict => "IndexingConflict"
  | .missingArgument => "MissingArgument"
  | .invalidSpecifier => "InvalidSpecifier"
  | .unsupportedPresentation => "UnsupportedPresentation"
  | .formatterFailed => "FormatterFailed"

/-- The text of a value that may be missing. -/
def optionText : Option String → String
  | none => "None"
  | some text => "Some(" ++ text ++ ")"

/-- The text of a locale in a record. -/
def localeText (locale : Locale) : String :=
  "Locale \x7b thousands_separator: " ++ optionText (locale.separator.map quotedChar)
    ++ ", decimal_point: " ++ quotedChar locale.point
    ++ ", grouping: " ++ Nat.repr locale.grouping.toNat ++ " \x7d"

/-- The fields of the record of an event, by name. -/
def fields : Event → List (String × String)
  | .formatting length count => [("template_len", Nat.repr length), ("args", Nat.repr count)]
  | .failed e => [("kind", kindName e.kind), ("offset", optionText (e.offset.map Nat.repr))]
  | .installed locale replaced =>
    [("locale", localeText locale), ("replaced", if replaced then "true" else "false")]
  | .removed => []

end Event

end BraceFormat
