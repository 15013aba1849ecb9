/-!
# Records as text

Values are inspected as one line of text: a record is its name and its fields in order, a variant
without fields is its bare name, and a sequence stands between square brackets.
-/

namespace LispReader

namespace Text

/-- The items with a comma and a space between neighbours. -/
def commaSeparated (items : List String) : String := String.intercalate ", " items

/-- A field as its name and its value. -/
def field (name value : String) : String := name ++ ": " ++ value

/-- A record with the given fields, in order. -/
def record (name : String) (fields : List String) : String :=
  name ++ " \x7b " ++ commaSeparated fields ++ " \x7d"

/-- A value wrapped in a named variant. -/
def wrapped (name value : String) : String := name ++ "(" ++ value ++ ")"

/-- A sequence of values. -/
def sequence (items : List String) : String := "[" ++ commaSeparated items ++ "]"

end Text

end LispReader
