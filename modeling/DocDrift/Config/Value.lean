import DocDrift.Number.Binary64
import DocDrift.Text.Quoted

/-!
The values that a configuration source can give to a key, and how diagnostics show them.
-/

namespace DocDrift.Config

inductive Value where
  | none
  | bool (value : Bool)
  | int (value : Int)
  | float (value : Number.Decimal)
  | string (value : Text)
  | list (items : List Value)
  | table (entries : List (Text × Value))
  /-- A date or a time, by its shown form. -/
  | moment (shown : String)
  deriving Repr, Inhabited

namespace Value

mutual

def render : Value → String
  | none => "None"
  | bool value => if value then "True" else "False"
  | int value => toString value
  | float value => value.render
  | string value => Text.quoted value
  | list items => "[" ++ ", ".intercalate (renderItems items) ++ "]"
  | table entries => "\x7b" ++ ", ".intercalate (renderEntries entries) ++ "\x7d"
  | moment shown => shown

def renderItems : List Value → List String
  | [] => []
  | item :: rest => item.render :: renderItems rest

def renderEntries : List (Text × Value) → List String
  | [] => []
  | (key, value) :: rest => (Text.quoted key ++ ": " ++ value.render) :: renderEntries rest

end

def lookup (entries : List (Text × Value)) (key : Text) : Option Value :=
  (entries.find? fun entry => entry.1 == key).map (·.2)

/-- Gives a key its value: in its old place if the table has the key, else at the end. -/
def assign (entries : List (Text × Value)) (key : Text) (value : Value) : List (Text × Value) :=
  match entries with
  | [] => [(key, value)]
  | entry :: rest =>
    if entry.1 == key then (key, value) :: rest else entry :: assign rest key value

def ofPairs (pairs : List (Text × Value)) : List (Text × Value) :=
  pairs.foldl (fun entries pair => assign entries pair.1 pair.2) []

end Value
end DocDrift.Config
