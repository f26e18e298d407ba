import DocDrift.Config.Basic

/-!
Layers of configuration: values given by key are laid over settings one after the other. A mapping
is checked as it is read; a later value for a field replaces an earlier one. The style and the
strategy are looked up last, so an unknown key or a wrong flag value is reported before them.
-/

namespace DocDrift.Config

variable {φ : Type}

/-- Settings with the style and strategy values given so far, not looked up yet. -/
structure Draft (φ : Type) where
  settings : Settings φ
  style : Option Value := none
  strategy : Option Value := none

namespace Draft

def lookupStyle : Value → Except ConfigError Docstring.Style
  | .string label =>
    match Docstring.Style.ofLabel? (String.ofList label) with
    | some style => .ok style
    | none => .error (.unknownStyle (.string label))
  | value => .error (.unknownStyle value)

def lookupStrategy : Value → Except ConfigError Strategy
  | .string label =>
    match Strategy.ofLabel? (String.ofList label) with
    | some strategy => .ok strategy
    | none => .error (.unknownStrategy (.string label))
  | value => .error (.unknownStrategy value)

/-- The settings with the drafted style and strategy looked up, the style first. -/
def finish (draft : Draft φ) : Except ConfigError (Settings φ) := do
  let style ← match draft.style with
    | some value => lookupStyle value
    | none => .ok draft.settings.style
  let strategy ← match draft.strategy with
    | some value => lookupStrategy value
    | none => .ok draft.settings.strategy
  .ok { draft.settings with style := style, strategy := strategy }

/-- Gives a field a value, where a flag takes what `flagValue` makes of it. -/
def put (flagValue : Value → Except ConfigError φ) (draft : Draft φ) (field : Field)
    (value : Value) : Except ConfigError (Draft φ) :=
  match field with
  | .flag flag => (flagValue value).map fun v => { draft with settings := draft.settings.set v flag }
  | .style => .ok { draft with style := some value }
  | .strategy => .ok { draft with strategy := some value }

end Draft

def normalizeKey (key : Text) : Text := key.map fun c => if c = '-' then '_' else c

def booleanFlag (key : Text) : Value → Except ConfigError Bool
  | .bool value => .ok value
  | _ => .error (.flagNotBoolean key)

def readEntries (draft : Draft Bool) : List (Text × Value) → Except ConfigError (Draft Bool)
  | [] => .ok draft
  | (key, value) :: rest =>
    match Field.ofKey? (normalizeKey key) with
    | none => .error (.unknownKey key)
    | some field =>
      match draft.put (booleanFlag key) field value with
      | .ok next => readEntries next rest
      | .error error => .error error

/-- The configuration that a mapping gives over the defaults. -/
def ofMapping (entries : List (Text × Value)) : Except ConfigError Config :=
  readEntries ⟨default, none, none⟩ entries >>= Draft.finish

/-- Sorts texts by code points, without repetitions. -/
def sortedKeys (keys : List Text) : List Text :=
  (keys.mergeSort fun a b => !Text.less b a).eraseDups

/-- Settings with some fields replaced. Keys must be spelled as the fields are; flags take any
value. -/
def withChanges (settings : Settings Value) (changes : List (Text × Value)) :
    Except ConfigError (Settings Value) :=
  let unknown := (changes.map (·.1)).filter fun key => (Field.ofKey? key).isNone
  if unknown.isEmpty then
    let put := fun (draft : Draft Value) (change : Text × Value) =>
      match Field.ofKey? change.1 with
      | some field => draft.put .ok field change.2
      | none => .ok draft
    changes.foldlM put ⟨settings, none, none⟩ >>= Draft.finish
  else .error (.unknownKeys (sortedKeys unknown))

end DocDrift.Config
