import DocDrift.Config.Layer

namespace DocDrift.Config

/-! # Layers of values

A configuration is known by the value that it has for each field.  A layer laid over it changes the
fields that its keys name to the last values that it gives them, and leaves every other field alone.
-/

variable {φ : Type}

namespace Settings

/-- The value for a field, as a source of configuration would give it. -/
def value (encode : φ → Value) (settings : Settings φ) : Field → Value
  | .flag flag => encode (settings.get flag)
  | .style => .string settings.style.label.toList
  | .strategy => .string settings.strategy.label.toList

theorem get_set (settings : Settings φ) (v : φ) (flag other : Flag) :
    (settings.set v flag).get other = if other = flag then v else settings.get other := by
  cases flag <;> cases other <;> rfl

theorem map_value (encode : φ → Value) (settings : Settings φ) (field : Field) :
    (settings.map encode).value id field = settings.value encode field := by
  match field with
  | .flag flag => cases flag <;> rfl
  | .style | .strategy => rfl

end Settings

theorem Field.ofKey?_key (field : Field) : ofKey? field.key.toList = some field := by
  match field with
  | .flag .breakOnEmptyLine | .flag .succeedIfNoDocstring | .flag .succeedIfNoArgsSection => decide
  | .flag .succeedIfDocstringUntyped | .flag .skipVariadicParams | .style | .strategy => decide

theorem Field.ofKey?_eq_some_iff {key : Text} {field : Field} : ofKey? key = some field ↔ key = field.key.toList := by
  constructor
  · intro found
    have same := List.find?_some found
    exact (beq_iff_eq.mp same).symm
  · rintro rfl
    exact ofKey?_key field

theorem Field.key_inj {field other : Field} : field.key.toList = other.key.toList ↔ field = other := by
  rw [← ofKey?_eq_some_iff, ofKey?_key, Option.some_inj, eq_comm]

theorem normalizeKey_key (field : Field) : normalizeKey field.key.toList = field.key.toList := by
  match field with
  | .flag .breakOnEmptyLine | .flag .succeedIfNoDocstring | .flag .succeedIfNoArgsSection => decide
  | .flag .succeedIfDocstringUntyped | .flag .skipVariadicParams | .style | .strategy => decide

/-! ## Choices by label -/

/-- The label of one of the choices. -/
def IsLabel {α : Type} (label : α → String) (value : Value) : Prop :=
  ∃ choice, value = .string (label choice).toList

theorem isLabel_map {α : Type} {label : α → String} (choice : Option α) :
    ∀ value ∈ choice.map fun a => Value.string (label a).toList, IsLabel label value := by
  intro value member
  obtain ⟨chosen, _, rfl⟩ := Option.map_eq_some_iff.mp member
  exact ⟨chosen, rfl⟩

/-- A look-up that finds every choice by its label and refuses every other value. -/
structure Recognizes {α : Type} (lookup : Value → Except ConfigError α) (label : α → String)
    (refusal : Value → ConfigError) : Prop where
  accepts : ∀ choice, lookup (.string (label choice).toList) = .ok choice
  refuses : ∀ value, ¬ IsLabel label value → lookup value = .error (refusal value)

theorem Recognizes.label_inj {α : Type} {lookup : Value → Except ConfigError α} {label : α → String}
    {refusal : Value → ConfigError} (recognizes : Recognizes lookup label refusal) {choice other : α}
    (same : Value.string (label choice).toList = .string (label other).toList) : choice = other := by
  have found := recognizes.accepts choice
  rw [same, recognizes.accepts other] at found
  exact (Except.ok.inj found).symm

theorem lookupStyle_recognizes : Recognizes Draft.lookupStyle Docstring.Style.label .unknownStyle where
  accepts style := by
    match style with
    | .fixed .google | .fixed .numpy | .auto => rfl
  refuses value other := by
    match value with
    | .string label =>
        have unknown : Docstring.Style.ofLabel? (String.ofList label) = none := by
          rw [Docstring.Style.ofLabel?, List.find?_eq_none]
          intro style _ same
          exact other ⟨style, by rw [beq_iff_eq.mp same, String.toList_ofList]⟩
        rw [Draft.lookupStyle, unknown]
    | .none | .bool _ | .int _ | .float _ | .list _ | .table _ | .moment _ => rfl

theorem lookupStrategy_recognizes : Recognizes Draft.lookupStrategy Strategy.label .unknownStrategy where
  accepts strategy := by
    match strategy with
    | .tree | .lexer => rfl
  refuses value other := by
    match value with
    | .string label =>
        have unknown : Strategy.ofLabel? (String.ofList label) = none := by
          rw [Strategy.ofLabel?, List.find?_eq_none]
          intro strategy _ same
          exact other ⟨strategy, by rw [beq_iff_eq.mp same, String.toList_ofList]⟩
        rw [Draft.lookupStrategy, unknown]
    | .none | .bool _ | .int _ | .float _ | .list _ | .table _ | .moment _ => rfl

theorem Settings.ext_value {encode : φ → Value} (faithful : Function.Injective encode) {settings other : Settings φ}
    (same : ∀ field, settings.value encode field = other.value encode field) : settings = other := by
  have flags (flag : Flag) : settings.get flag = other.get flag := faithful (same (.flag flag))
  have style := lookupStyle_recognizes.label_inj (same .style)
  have strategy := lookupStrategy_recognizes.label_inj (same .strategy)
  obtain ⟨a, b, c, d, e, _, _⟩ := settings
  obtain rfl : a = _ := flags .breakOnEmptyLine
  obtain rfl : b = _ := flags .succeedIfNoDocstring
  obtain rfl : c = _ := flags .succeedIfNoArgsSection
  obtain rfl : d = _ := flags .succeedIfDocstringUntyped
  obtain rfl : e = _ := flags .skipVariadicParams
  cases style
  cases strategy
  rfl

namespace Draft

/-- The value for a field, whether it is looked up already or not. -/
def value (encode : φ → Value) (draft : Draft φ) : Field → Value
  | .flag flag => encode (draft.settings.get flag)
  | .style => draft.style.getD (.string draft.settings.style.label.toList)
  | .strategy => draft.strategy.getD (.string draft.settings.strategy.label.toList)

variable {encode : φ → Value} {draft : Draft φ}

theorem finish_eq (encode : φ → Value) (draft : Draft φ) :
    draft.finish = (do
      let style ← lookupStyle (draft.value encode .style)
      let strategy ← lookupStrategy (draft.value encode .strategy)
      .ok { draft.settings with style := style, strategy := strategy }) := by
  obtain ⟨settings, style, strategy⟩ := draft
  cases style <;> cases strategy <;>
    simp only [finish, value, Option.getD_none, Option.getD_some, lookupStyle_recognizes.accepts,
      lookupStrategy_recognizes.accepts]

theorem finish_labelled (style : IsLabel Docstring.Style.label (draft.value encode .style))
    (strategy : IsLabel Strategy.label (draft.value encode .strategy)) :
    ∃ settings, draft.finish = .ok settings ∧ ∀ field, settings.value encode field = draft.value encode field := by
  obtain ⟨chosen, label⟩ := style
  obtain ⟨way, name⟩ := strategy
  refine ⟨{ draft.settings with style := chosen, strategy := way }, ?_, fun field => ?_⟩
  · rw [finish_eq encode, label, name, lookupStyle_recognizes.accepts, lookupStrategy_recognizes.accepts]
    rfl
  · match field with
    | .flag flag => cases flag <;> rfl
    | .style => exact label.symm
    | .strategy => exact name.symm

theorem finish_unknownStyle (style : ¬ IsLabel Docstring.Style.label (draft.value encode .style)) :
    draft.finish = .error (.unknownStyle (draft.value encode .style)) := by
  rw [finish_eq encode, lookupStyle_recognizes.refuses _ style]
  rfl

theorem finish_unknownStrategy (style : IsLabel Docstring.Style.label (draft.value encode .style))
    (strategy : ¬ IsLabel Strategy.label (draft.value encode .strategy)) :
    draft.finish = .error (.unknownStrategy (draft.value encode .strategy)) := by
  obtain ⟨chosen, label⟩ := style
  rw [finish_eq encode, label, lookupStyle_recognizes.accepts, lookupStrategy_recognizes.refuses _ strategy]
  rfl

theorem put_value {flagValue : Value → Except ConfigError φ} {field : Field} {given : Value} {next : Draft φ}
    (encodes : ∀ v, flagValue given = .ok v → encode v = given)
    (laid : draft.put flagValue field given = .ok next) (other : Field) :
    next.value encode other = if other = field then given else draft.value encode other := by
  match field with
  | .flag flag =>
      cases converted : flagValue given with
      | error error =>
          rw [put, converted] at laid
          contradiction
      | ok v =>
          rw [put, converted] at laid
          cases laid
          match other with
          | .flag own =>
              simp only [value, Settings.get_set, Field.flag.injEq]
              split
              · exact encodes v converted
              · rfl
          | .style => cases flag <;> rfl
          | .strategy => cases flag <;> rfl
  | .style =>
      cases laid
      match other with
      | .flag _ | .style | .strategy => rfl
  | .strategy =>
      cases laid
      match other with
      | .flag _ | .style | .strategy => rfl

end Draft

/-! ## Entries in order -/

/-- The last value that entries give to a field. -/
def given (entries : List (Text × Value)) (field : Field) : Option Value :=
  (entries.filter fun entry => normalizeKey entry.1 = field.key.toList).getLast?.map (·.2)

theorem given_append (front entries : List (Text × Value)) (field : Field) :
    given (front ++ entries) field = (given entries field).or (given front field) := by
  rw [given, List.filter_append, List.getLast?_append, Option.map_or]
  rfl

theorem given_cons (entry : Text × Value) (rest : List (Text × Value)) (field : Field) :
    given (entry :: rest) field =
      (given rest field).or (if normalizeKey entry.1 = field.key.toList then some entry.2 else none) := by
  rw [← List.singleton_append, given_append]
  congr 1
  by_cases named : normalizeKey entry.1 = field.key.toList <;> simp [given, named]

theorem given_cons_getD (entry : Text × Value) (rest : List (Text × Value)) (field : Field) (usual : Value) :
    (given (entry :: rest) field).getD usual =
      (given rest field).getD (if normalizeKey entry.1 = field.key.toList then entry.2 else usual) := by
  rw [given_cons]
  cases given rest field with
  | some value => rfl
  | none =>
      rw [Option.none_or]
      split <;> rfl

/-- A draft comes from another one by laying the values of entries over it, each for the field that its
key names. -/
inductive Draft.Lays (encode : φ → Value) : Draft φ → List (Text × Value) → Draft φ → Prop where
  | nil {draft : Draft φ} : Lays encode draft [] draft
  | cons {draft next last : Draft φ} {entry : Text × Value} {rest : List (Text × Value)}
      (laid : ∀ field : Field, next.value encode field =
        if normalizeKey entry.1 = field.key.toList then entry.2 else draft.value encode field)
      (later : Lays encode next rest last) : Lays encode draft (entry :: rest) last

/-- What was laid over a draft is the last value that the entries give, and what was not stays. -/
theorem Draft.Lays.value {encode : φ → Value} {draft last : Draft φ} {entries : List (Text × Value)}
    (lays : Lays encode draft entries last) (field : Field) :
    last.value encode field = (given entries field).getD (draft.value encode field) := by
  induction lays with
  | nil => rfl
  | cons laid later ih => rw [ih, laid, given_cons_getD]

/-- An entry whose key names a field, which gets a boolean if it is a flag. -/
def Fits (entry : Text × Value) : Prop :=
  ∃ field : Field, normalizeKey entry.1 = field.key.toList ∧ ∀ flag, field = .flag flag → ∃ b, entry.2 = .bool b

/-- An entry that is refused by itself, and the reason. -/
inductive Offends : Text × Value → ConfigError → Prop where
  | unknownKey {key : Text} {value : Value} (unknown : ∀ field : Field, normalizeKey key ≠ field.key.toList) :
      Offends (key, value) (.unknownKey key)
  | flagNotBoolean {key : Text} {value : Value} {flag : Flag} (named : normalizeKey key = (Field.flag flag).key.toList)
      (other : ∀ b, value ≠ .bool b) : Offends (key, value) (.flagNotBoolean key)

theorem fits_or_offends (entry : Text × Value) : Fits entry ∨ ∃ error, Offends entry error := by
  obtain ⟨key, value⟩ := entry
  by_cases known : ∃ field : Field, normalizeKey key = field.key.toList
  · obtain ⟨field, named⟩ := known
    match field with
    | .flag flag =>
        by_cases boolean : ∃ b, value = .bool b
        · exact .inl ⟨.flag flag, named, fun _ _ => boolean⟩
        · exact .inr ⟨_, .flagNotBoolean named (not_exists.mp boolean)⟩
    | .style => exact .inl ⟨.style, named, fun _ flag => by contradiction⟩
    | .strategy => exact .inl ⟨.strategy, named, fun _ flag => by contradiction⟩
  · exact .inr ⟨_, .unknownKey (not_exists.mp known)⟩

theorem booleanFlag_eq_ok_iff {key : Text} {value : Value} {b : Bool} :
    booleanFlag key value = .ok b ↔ value = .bool b := by
  cases value <;> simp [booleanFlag]

theorem readEntries_fits {entry : Text × Value} (fits : Fits entry) (draft : Draft Bool) :
    ∃ next, (∀ rest, readEntries draft (entry :: rest) = readEntries next rest) ∧
      ∀ field, next.value .bool field =
        if normalizeKey entry.1 = field.key.toList then entry.2 else draft.value .bool field := by
  obtain ⟨key, value⟩ := entry
  obtain ⟨field, named, boolean⟩ := fits
  have known := Field.ofKey?_eq_some_iff.mpr named
  obtain ⟨next, laid⟩ : ∃ next, draft.put (booleanFlag key) field value = .ok next := by
    match field with
    | .flag flag =>
        obtain ⟨b, rfl⟩ := boolean flag rfl
        exact ⟨_, rfl⟩
    | .style | .strategy => exact ⟨_, rfl⟩
  refine ⟨next, fun rest => by simp only [readEntries, known, laid], fun other => ?_⟩
  rw [Draft.put_value (fun b read => (booleanFlag_eq_ok_iff.mp read).symm) laid other, named]
  simp only [Field.key_inj, eq_comm]

theorem readEntries_offends {entry : Text × Value} {error : ConfigError} (offends : Offends entry error)
    (draft : Draft Bool) (rest : List (Text × Value)) : readEntries draft (entry :: rest) = .error error := by
  cases offends with
  | @unknownKey key value unknown =>
      have missing : Field.ofKey? (normalizeKey key) = none :=
        Option.eq_none_iff_forall_ne_some.mpr fun field found => unknown field (Field.ofKey?_eq_some_iff.mp found)
      simp only [readEntries, missing]
  | @flagNotBoolean key value flag named other =>
      have refused : booleanFlag key value = .error (.flagNotBoolean key) := by
        cases value with
        | bool b => exact absurd rfl (other b)
        | _ => rfl
      simp only [readEntries, Field.ofKey?_eq_some_iff.mpr named, Draft.put, refused]
      rfl

theorem readEntries_admitted {entries : List (Text × Value)} (fit : ∀ entry ∈ entries, Fits entry)
    (draft : Draft Bool) :
    ∃ last, readEntries draft entries = .ok last ∧ draft.Lays .bool entries last := by
  induction entries generalizing draft with
  | nil => exact ⟨draft, rfl, .nil⟩
  | cons entry rest ih =>
      obtain ⟨next, read, laid⟩ := readEntries_fits (fit entry List.mem_cons_self) draft
      obtain ⟨last, finished, lays⟩ := ih (fun other member => fit other (List.mem_cons_of_mem _ member)) next
      exact ⟨last, (read rest).trans finished, .cons laid lays⟩

theorem readEntries_refused {front rest : List (Text × Value)} {entry : Text × Value} {error : ConfigError}
    (fit : ∀ entry ∈ front, Fits entry) (offends : Offends entry error) (draft : Draft Bool) :
    readEntries draft (front ++ entry :: rest) = .error error := by
  induction front generalizing draft with
  | nil => exact readEntries_offends offends draft rest
  | cons other front ih =>
      obtain ⟨next, read, _⟩ := readEntries_fits (fit other List.mem_cons_self) draft
      rw [List.cons_append, read]
      exact ih (fun another member => fit another (List.mem_cons_of_mem _ member)) next

/-- Entries that make a configuration. -/
structure Admits (entries : List (Text × Value)) : Prop where
  fit : ∀ entry ∈ entries, Fits entry
  style : ∀ value ∈ given entries .style, IsLabel Docstring.Style.label value
  strategy : ∀ value ∈ given entries .strategy, IsLabel Strategy.label value

/-- Entries that make no configuration, and the reason. -/
inductive Refuses : List (Text × Value) → ConfigError → Prop where
  | entry {front rest : List (Text × Value)} {entry : Text × Value} {error : ConfigError}
      (fit : ∀ entry ∈ front, Fits entry) (offends : Offends entry error) : Refuses (front ++ entry :: rest) error
  | style {entries : List (Text × Value)} {value : Value} (fit : ∀ entry ∈ entries, Fits entry)
      (chosen : given entries .style = some value) (unlabelled : ¬ IsLabel Docstring.Style.label value) :
      Refuses entries (.unknownStyle value)
  | strategy {entries : List (Text × Value)} {value : Value} (fit : ∀ entry ∈ entries, Fits entry)
      (style : ∀ value ∈ given entries .style, IsLabel Docstring.Style.label value)
      (chosen : given entries .strategy = some value) (unlabelled : ¬ IsLabel Strategy.label value) :
      Refuses entries (.unknownStrategy value)

theorem first_offence {entries : List (Text × Value)} (unfit : ¬ ∀ entry ∈ entries, Fits entry) :
    ∃ front entry rest error, entries = front ++ entry :: rest ∧ (∀ entry ∈ front, Fits entry) ∧
      Offends entry error := by
  induction entries with
  | nil => exact absurd (List.forall_mem_nil _) unfit
  | cons entry rest ih =>
      rcases fits_or_offends entry with fits | ⟨error, offends⟩
      · obtain ⟨front, other, after, error, rfl, fit, offends⟩ := ih fun all => unfit (List.forall_mem_cons.mpr ⟨fits, all⟩)
        exact ⟨entry :: front, other, after, error, rfl, List.forall_mem_cons.mpr ⟨fits, fit⟩, offends⟩
      · exact ⟨[], entry, rest, error, rfl, List.forall_mem_nil _, offends⟩

theorem admits_or_refuses (entries : List (Text × Value)) : Admits entries ∨ ∃ error, Refuses entries error := by
  by_cases fit : ∀ entry ∈ entries, Fits entry
  · by_cases style : ∀ value ∈ given entries .style, IsLabel Docstring.Style.label value
    · by_cases strategy : ∀ value ∈ given entries .strategy, IsLabel Strategy.label value
      · exact .inl ⟨fit, style, strategy⟩
      · simp only [Classical.not_forall] at strategy
        obtain ⟨value, chosen, unlabelled⟩ := strategy
        exact .inr ⟨_, .strategy fit style chosen unlabelled⟩
    · simp only [Classical.not_forall] at style
      obtain ⟨value, chosen, unlabelled⟩ := style
      exact .inr ⟨_, .style fit chosen unlabelled⟩
  · obtain ⟨front, entry, rest, error, rfl, fit, offends⟩ := first_offence fit
    exact .inr ⟨error, .entry fit offends⟩

theorem isLabel_getD {α : Type} {label : α → String} {chosen : Option Value} {usual : α}
    (labelled : ∀ value ∈ chosen, IsLabel label value) : IsLabel label (chosen.getD (.string (label usual).toList)) := by
  cases chosen with
  | none => exact ⟨usual, rfl⟩
  | some value => exact labelled value rfl

theorem Admits.ofMapping {entries : List (Text × Value)} (admits : Admits entries) :
    ∃ config, ofMapping entries = .ok config ∧
      ∀ field, config.value .bool field = (given entries field).getD (default.value .bool field) := by
  obtain ⟨last, read, lays⟩ := readEntries_admitted admits.fit ⟨default, none, none⟩
  have style : IsLabel Docstring.Style.label (last.value .bool .style) := by
    rw [lays.value]
    exact isLabel_getD admits.style
  have strategy : IsLabel Strategy.label (last.value .bool .strategy) := by
    rw [lays.value]
    exact isLabel_getD admits.strategy
  obtain ⟨config, finished, same⟩ := Draft.finish_labelled style strategy
  refine ⟨config, ?_, fun field => (same field).trans (lays.value field)⟩
  rw [Config.ofMapping, read]
  exact finished

theorem Refuses.ofMapping {entries : List (Text × Value)} {error : ConfigError} (refuses : Refuses entries error) :
    ofMapping entries = .error error := by
  cases refuses with
  | entry fit offends =>
      rw [Config.ofMapping, readEntries_refused fit offends]
      rfl
  | style fit chosen unlabelled =>
      obtain ⟨last, read, lays⟩ := readEntries_admitted fit ⟨default, none, none⟩
      have value := lays.value .style
      rw [chosen, Option.getD_some] at value
      rw [← value] at unlabelled ⊢
      rw [Config.ofMapping, read]
      exact Draft.finish_unknownStyle unlabelled
  | strategy fit style chosen unlabelled =>
      obtain ⟨last, read, lays⟩ := readEntries_admitted fit ⟨default, none, none⟩
      have label : IsLabel Docstring.Style.label (last.value .bool .style) := by
        rw [lays.value]
        exact isLabel_getD style
      have value := lays.value .strategy
      rw [chosen, Option.getD_some] at value
      rw [← value] at unlabelled ⊢
      rw [Config.ofMapping, read]
      exact Draft.finish_unknownStrategy label unlabelled

theorem ofMapping_eq_ok_iff {entries : List (Text × Value)} {config : Config} :
    ofMapping entries = .ok config ↔ Admits entries ∧
      ∀ field, config.value .bool field = (given entries field).getD (default.value .bool field) := by
  constructor
  · intro made
    rcases admits_or_refuses entries with admits | ⟨error, refuses⟩
    · obtain ⟨other, again, values⟩ := admits.ofMapping
      cases made.symm.trans again
      exact ⟨admits, values⟩
    · cases made.symm.trans refuses.ofMapping
  · rintro ⟨admits, values⟩
    obtain ⟨other, made, same⟩ := admits.ofMapping
    have faithful : Function.Injective Value.bool := fun _ _ => Value.bool.inj
    rw [made, Settings.ext_value faithful fun field => (same field).trans (values field).symm]

theorem ofMapping_eq_error_iff {entries : List (Text × Value)} {error : ConfigError} :
    ofMapping entries = .error error ↔ Refuses entries error := by
  refine ⟨fun failed => ?_, Refuses.ofMapping⟩
  rcases admits_or_refuses entries with admits | ⟨other, refuses⟩
  · obtain ⟨config, made, _⟩ := admits.ofMapping
    cases failed.symm.trans made
  · cases failed.symm.trans refuses.ofMapping
    exact refuses

/-! ## Changes by key -/

variable {changes : List (Text × Value)}

theorem foldlM_lays {put : Draft Value → Text × Value → Except ConfigError (Draft Value)}
    (puts : ∀ draft change field, Field.ofKey? change.1 = some field → put draft change = draft.put .ok field change.2)
    (known : ∀ change ∈ changes, ∃ field : Field, change.1 = field.key.toList) (draft : Draft Value) :
    ∃ last, changes.foldlM put draft = .ok last ∧ draft.Lays id changes last := by
  induction changes generalizing draft with
  | nil => exact ⟨draft, rfl, .nil⟩
  | cons change rest ih =>
      obtain ⟨field, named⟩ := known change List.mem_cons_self
      obtain ⟨next, laid⟩ : ∃ next, draft.put .ok field change.2 = .ok next := by
        match field with
        | .flag _ | .style | .strategy => exact ⟨_, rfl⟩
      obtain ⟨last, folded, lays⟩ := ih (fun other member => known other (List.mem_cons_of_mem _ member)) next
      refine ⟨last, ?_, .cons (fun other => ?_) lays⟩
      · rw [List.foldlM_cons, puts draft change field (Field.ofKey?_eq_some_iff.mpr named), laid]
        exact folded
      · have encodes : ∀ v, Except.ok change.2 = (.ok v : Except ConfigError Value) → id v = change.2 :=
          fun v same => (Except.ok.inj same).symm
        rw [Draft.put_value encodes laid other, named, normalizeKey_key]
        simp only [Field.key_inj, eq_comm]

/-- Changes under the keys of fields give each field the last value that they have for it. -/
theorem withChanges_known {settings : Settings Value}
    (known : ∀ change ∈ changes, ∃ field : Field, change.1 = field.key.toList)
    (style : ∀ value ∈ given changes .style, IsLabel Docstring.Style.label value)
    (strategy : ∀ value ∈ given changes .strategy, IsLabel Strategy.label value) :
    ∃ after, withChanges settings changes = .ok after ∧
      ∀ field, after.value id field = (given changes field).getD (settings.value id field) := by
  have unknown : ((changes.map (·.1)).filter fun key => (Field.ofKey? key).isNone) = [] := by
    rw [List.filter_eq_nil_iff, List.forall_mem_map]
    intro change member
    obtain ⟨field, named⟩ := known change member
    simp [named, Field.ofKey?_key]
  rw [withChanges, unknown, List.isEmpty_nil, if_pos rfl]
  extract_lets put
  have puts : ∀ draft change field, Field.ofKey? change.1 = some field →
      put draft change = draft.put .ok field change.2 := fun draft change field found => by simp only [put, found]
  obtain ⟨last, folded, lays⟩ := foldlM_lays puts known ⟨settings, none, none⟩
  have label : IsLabel Docstring.Style.label (last.value id .style) := by
    rw [lays.value]
    exact isLabel_getD style
  have name : IsLabel Strategy.label (last.value id .strategy) := by
    rw [lays.value]
    exact isLabel_getD strategy
  obtain ⟨after, finished, same⟩ := Draft.finish_labelled label name
  exact ⟨after, (congrArg (· >>= Draft.finish) folded).trans finished,
    fun field => (same field).trans (lays.value field)⟩

end DocDrift.Config
