import CipherEngine.Text.Printable

/-!
# Quoted text

A text inside a description stands in double quotes. A quote, a backslash and
the four common controls have a short form after a backslash, any other
character that would not show has its code in braces, and all else stands for
itself. A single quote needs no escape.
-/
namespace CipherEngine.Text

/-- The code of a character between braces: `\u`, then lower-case hexadecimal. -/
def codeEscape (character : Char) : List Char :=
  ['\\', 'u', '\x7b'] ++ Nat.toDigits 16 character.toNat ++ ['\x7d']

/-- A character as it stands inside double quotes. -/
def quoteChar (character : Char) : List Char :=
  match character with
  | '"' => ['\\', '"']
  | '\\' => ['\\', '\\']
  | '\n' => ['\\', 'n']
  | '\r' => ['\\', 'r']
  | '\t' => ['\\', 't']
  | '\x00' => ['\\', '0']
  | other => if showsItself other then [other] else codeEscape other

/-- A text in double quotes. -/
def quoted (text : String) : String :=
  String.ofList ('"' :: text.toList.flatMap quoteChar ++ ['"'])

/-- Whether two texts are the same up to the case of the letters A to Z. -/
def sameIgnoringCase (left right : String) : Bool :=
  left.toList.map Char.toLower = right.toList.map Char.toLower

end CipherEngine.Text
