/-!
# Records on one line

A value with named parts is described as `Name { part: value, part: value }`.
A description that leaves parts out ends in two dots: `Name { part: value, .. }`.
-/
namespace CipherEngine.Text

/-- One part of a record: its label and its description. -/
structure Field where
  label : String
  value : String

/-- A part written out. -/
def Field.written (field : Field) : String :=
  field.label ++ ": " ++ field.value

/-- A record that shows all its parts. -/
def record (name : String) (fields : List Field) : String :=
  name ++ " \x7b " ++ ", ".intercalate (fields.map Field.written) ++ " \x7d"

/-- A record that leaves parts out. -/
def openRecord (name : String) (fields : List Field) : String :=
  name ++ " \x7b " ++ ", ".intercalate (fields.map Field.written ++ [".."]) ++ " \x7d"

/-- A sequence of descriptions in square brackets. -/
def sequence (items : List String) : String :=
  "[" ++ ", ".intercalate items ++ "]"

/-- A truth value. -/
def truth (value : Bool) : String :=
  if value then "true" else "false"

end CipherEngine.Text
