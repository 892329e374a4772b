import PointerScript.Number.Mixed
import PointerScript.Text.Quoted

/-! Values of the TOML format, and why a document cannot be read. -/

namespace PointerScript

/-- A TOML value. Dates and times are kept as they are written. The entries of a table keep their
order. -/
inductive Toml where
  | str (value : String)
  | bool (value : Bool)
  | num (value : Number)
  | date (text : String)
  | dateTime (text : String)
  | time (text : String)
  | arr (items : List Toml)
  | table (entries : List (String × Toml))
  deriving Inhabited

/-- A key with its parts, as they are written with points between them. -/
abbrev TomlKey := List String

inductive TomlReason where
  | statement
  | lineEnd
  | declaredTwice (key : TomlKey)
  | overwritten
  | immutable (key : TomlKey)
  | redefined (key : TomlKey)
  | tableEnd
  | arrayEnd
  | equalsSign
  | keyStart
  | unclosedArray
  | unclosedTable
  | duplicateKey (name : String)
  | backslash
  | hexDigits
  | notACharacter
  | unterminated
  | expected (text : String)
  | invalidCharacter (c : Char)
  | illegalCharacter (c : Char)
  | invalidDate
  | value
  deriving DecidableEq

namespace TomlKey

def shown (key : TomlKey) : String :=
  match key with
  | [part] => "(" ++ Text.quoted part ++ ",)"
  | _ => "(" ++ ", ".intercalate (key.map Text.quoted) ++ ")"

end TomlKey

namespace TomlReason

def message : TomlReason → String
  | statement => "Invalid statement"
  | lineEnd => "Expected newline or end of document after a statement"
  | declaredTwice key => "Cannot declare " ++ TomlKey.shown key ++ " twice"
  | overwritten => "Cannot overwrite a value"
  | immutable key => "Cannot mutate immutable namespace " ++ TomlKey.shown key
  | redefined key => "Cannot redefine namespace " ++ TomlKey.shown key
  | tableEnd => "Expected ']' at the end of a table declaration"
  | arrayEnd => "Expected ']]' at the end of an array declaration"
  | equalsSign => "Expected '=' after a key in a key/value pair"
  | keyStart => "Invalid initial character for a key part"
  | unclosedArray => "Unclosed array"
  | unclosedTable => "Unclosed inline table"
  | duplicateKey name => "Duplicate inline table key " ++ Text.quoted name
  | backslash => "Unescaped '\\' in a string"
  | hexDigits => "Invalid hex value"
  | notACharacter => "Escaped character is not a Unicode scalar value"
  | unterminated => "Unterminated string"
  | expected text => "Expected " ++ Text.quoted text
  | invalidCharacter c => "Found invalid character " ++ Text.quoted (String.singleton c)
  | illegalCharacter c => "Illegal character " ++ Text.quoted (String.singleton c)
  | invalidDate => "Invalid date or datetime"
  | value => "Invalid value"

end TomlReason

inductive TomlLimit where
  | digits (count : Nat)
  | depth
  deriving DecidableEq

namespace TomlLimit

def message : TomlLimit → String
  | digits count => Number.tooManyDigitsMessage count
  | depth => "maximum recursion depth exceeded"

end TomlLimit

/-- Why a document cannot be read: for a reason at a line and column, or at its end where there is no
such place, or because a limit was met. -/
inductive TomlFault where
  | refused (reason : TomlReason) (place : Option (Nat × Nat))
  | limit (cause : TomlLimit)
  deriving DecidableEq

namespace TomlFault

def message : TomlFault → String
  | refused reason (some (line, column)) =>
    reason.message ++ " (at line " ++ toString line ++ ", column " ++ toString column ++ ")"
  | refused reason none => reason.message ++ " (at end of document)"
  | limit cause => cause.message

end TomlFault

namespace Toml

def kindName : Toml → String
  | str _ => "str"
  | bool _ => "bool"
  | num (.int _) => "int"
  | num (.float _) => "float"
  | date _ => "datetime.date"
  | dateTime _ => "datetime.datetime"
  | time _ => "datetime.time"
  | arr _ => "list"
  | table _ => "dict"

def setEntry (key : String) (value : Toml) : List (String × Toml) → List (String × Toml)
  | [] => [(key, value)]
  | entry :: rest =>
    if entry.1 = key then (key, value) :: rest else entry :: setEntry key value rest

/-- Changes the table that a path leads to, making tables that are missing on the way. With `lists`
the path goes through the last table of an array. -/
def changeAt (lists : Bool) (change : List (String × Toml) → Except TomlReason (List (String × Toml))) :
    TomlKey → List (String × Toml) → Except TomlReason (List (String × Toml))
  | [], entries => change entries
  | part :: path, entries =>
    match entries.lookup part with
    | none => do
      let inner ← changeAt lists change path []
      return setEntry part (.table inner) entries
    | some (.table inner) => do
      let inner ← changeAt lists change path inner
      return setEntry part (.table inner) entries
    | some (.arr items) =>
      match lists, items.getLast? with
      | true, some (.table inner) => do
        let inner ← changeAt lists change path inner
        return setEntry part (.arr (items.dropLast ++ [.table inner])) entries
      | _, _ => .error .overwritten
    | some _ => .error .overwritten

end Toml

end PointerScript
