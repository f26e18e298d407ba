import DocDrift.Config.Layer
import DocDrift.Files.Tree
import DocDrift.Toml.Document

/-!
Configuration files: TOML documents whose table `tool` may hold a table of settings.
-/

namespace DocDrift.Config

inductive LoadError where
  /-- The file is refused, with a message for the user. -/
  | refused (error : ConfigError)
  /-- The file cannot be read as text. -/
  | unreadable (error : ReadError)
  /-- The entry `tool` of the document is no table, so nothing can be looked up in it. -/
  | toolNotATable
  deriving Repr

/-- The entries of the table of settings in a document. A table that is missing has no entries. -/
def settingsTable (path : Path) (document : List (Text × Value)) :
    Except LoadError (List (Text × Value)) :=
  match Value.lookup document "tool".toList with
  | none => .ok []
  | some (.table tools) =>
    match Value.lookup tools ConfigError.tableName with
    | none => .ok []
    | some (.table entries) => .ok entries
    | some _ => .error (.refused (.sectionNotATable path))
  | some _ => .error .toolNotATable

def ofDocument (path : Path) (text : Text) : Except LoadError Config :=
  match Toml.parse text with
  | none => .error (.refused (.invalidDocument path))
  | some document =>
    match settingsTable path document with
    | .error error => .error error
    | .ok entries => (ofMapping entries).mapError .refused

/-- The configuration that a file gives over the defaults. -/
def ofFile (tree : FileTree) (path : Path) : Except LoadError Config :=
  match tree.bytes path >>= Utf8.decode with
  | .error error => .error (.unreadable error)
  | .ok text => ofDocument path text

end DocDrift.Config
