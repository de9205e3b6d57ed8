/-
  Conform.Locale

  The table of default messages. A check reads its message from the table when
  it is declared.
-/

import Conform.Message

namespace Conform

/-- The entries of the message table. -/
inductive MessageSlot where
  | invalid
  | required
  | oneOf
  | notOneOf
  | notType
  | textLength
  | textMin
  | textMax
  | textMatches
  | email
  | url
  | trim
  | lowercase
  | uppercase
  | numberMin
  | numberMax
  | lessThan
  | moreThan
  | positive
  | negative
  | integer
  | noUnknown
  | itemsMin
  | itemsMax
  deriving DecidableEq, Repr

namespace MessageSlot

/-- The name of an entry: the kind of schema, a point, and the check. -/
def name : MessageSlot → String
  | invalid => "mixed.default"
  | required => "mixed.required"
  | oneOf => "mixed.one_of"
  | notOneOf => "mixed.not_one_of"
  | notType => "mixed.not_type"
  | textLength => "string.length"
  | textMin => "string.min"
  | textMax => "string.max"
  | textMatches => "string.matches"
  | email => "string.email"
  | url => "string.url"
  | trim => "string.trim"
  | lowercase => "string.lowercase"
  | uppercase => "string.uppercase"
  | numberMin => "number.min"
  | numberMax => "number.max"
  | lessThan => "number.less_than"
  | moreThan => "number.more_than"
  | positive => "number.positive"
  | negative => "number.negative"
  | integer => "number.integer"
  | noUnknown => "object.no_unknown"
  | itemsMin => "array.min"
  | itemsMax => "array.max"

def all : List MessageSlot :=
  [invalid, required, oneOf, notOneOf, notType, textLength, textMin, textMax, textMatches, email,
   url, trim, lowercase, uppercase, numberMin, numberMax, lessThan, moreThan, positive, negative,
   integer, noUnknown, itemsMin, itemsMax]

/-- The entry of a name. -/
def ofName? (text : String) : Option MessageSlot := all.find? fun slot => slot.name == text

end MessageSlot

/-- A message for every entry. -/
abbrev Locale := MessageSlot → Message

namespace Locale

/-- A placeholder of a template. -/
private def slot (name : String) : String := "$\x7b" ++ name ++ "\x7d"

/-- A template that begins with the name of the place in question. -/
private def atPath (text : String) : Message := .template (slot "path" ++ " " ++ text)

/-- The messages that hold unless the table is edited. -/
def standard : Locale
  | .invalid => atPath "is invalid"
  | .required => atPath "is a required field"
  | .oneOf => atPath ("must be one of the following values: " ++ slot "values")
  | .notOneOf => atPath ("must not be one of the following values: " ++ slot "values")
  | .notType => .formatter notTypeMessage
  | .textLength => atPath ("must be exactly " ++ slot "length" ++ " characters")
  | .textMin => atPath ("must be at least " ++ slot "min" ++ " characters")
  | .textMax => atPath ("must be at most " ++ slot "max" ++ " characters")
  | .textMatches => atPath ("must match the following: \"" ++ slot "regex" ++ "\"")
  | .email => atPath "must be a valid email"
  | .url => atPath "must be a valid URL"
  | .trim => atPath "must be a trimmed string"
  | .lowercase => atPath "must be a lowercase string"
  | .uppercase => atPath "must be a upper case string"
  | .numberMin => atPath ("must be greater than or equal to " ++ slot "min")
  | .numberMax => atPath ("must be less than or equal to " ++ slot "max")
  | .lessThan => atPath ("must be less than " ++ slot "less")
  | .moreThan => atPath ("must be greater than " ++ slot "more")
  | .positive => atPath "must be a positive number"
  | .negative => atPath "must be a negative number"
  | .integer => atPath "must be an integer"
  | .noUnknown => atPath "field cannot have keys not specified in the object shape"
  | .itemsMin => atPath ("field must have at least " ++ slot "min" ++ " items")
  | .itemsMax => atPath ("field must have less than or equal to " ++ slot "max" ++ " items")

/-- The table with one message replaced. -/
def set (locale : Locale) (slot : MessageSlot) (message : Message) : Locale :=
  fun s => if s = slot then message else locale s

end Locale

end Conform
