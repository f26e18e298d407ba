import DocDrift.Proofs.Signature.Brackets
import DocDrift.Proofs.Signature.Nesting

namespace DocDrift

/-! # The grammar of parameter lists

The reader goes through a parameter list token by token and knows only how many brackets are open.
What it accepts is nevertheless a grammar over whole entries: a name, and behind it an annotation and
a default value, each a run of tokens that is balanced and that nothing ends outside its brackets.
-/

namespace Token

/-- As many brackets of every kind are closed as are opened. -/
def IsLevel (tokens : List Token) : Prop :=
  ∀ bracket, openings bracket tokens = closings bracket tokens

end Token

namespace EntryPart

/-- Outside all brackets a comma ends a part of an entry, and an equals sign ends an annotation. -/
def isEnd (part : EntryPart) : Token.Kind → Bool
  | .comma => true
  | .equals => part = .type
  | _ => false

/-- The tokens of an annotation or of a default value. -/
structure IsRun (part : EntryPart) (tokens : List Token) : Prop where
  balanced : Token.Balanced tokens
  unended : ∀ front token, front ++ [token] <+: tokens → Token.IsLevel front →
    part.isEnd token.kind = false

end EntryPart

namespace Reading

/-- The tokens of one entry in front of the token that ends it, and the parameter that they declare.
An annotation reaches from its colon to the equals sign or, without one, to the end of the entry. -/
inductive Declares (reading : Reading) (stop : Token) : List Token → Parameter → Prop where
  | bare {name : Token} (named : name.kind = .text) : Declares reading stop [name] ⟨name.text, none⟩
  | typed {name colon : Token} {type : List Token} (named : name.kind = .text)
      (separated : colon.kind = .colon) (typing : EntryPart.type.IsRun type) :
      Declares reading stop (name :: colon :: type)
        ⟨name.text, some (reading.textBetween colon.stop stop.start)⟩
  | typedValued {name colon equals : Token} {type value : List Token} (named : name.kind = .text)
      (separated : colon.kind = .colon) (typing : EntryPart.type.IsRun type)
      (assigned : equals.kind = .equals) (valuing : EntryPart.value.IsRun value) :
      Declares reading stop (name :: colon :: (type ++ equals :: value))
        ⟨name.text, some (reading.textBetween colon.stop equals.start)⟩
  | valued {name equals : Token} {value : List Token} (named : name.kind = .text)
      (assigned : equals.kind = .equals) (valuing : EntryPart.value.IsRun value) :
      Declares reading stop (name :: equals :: value) ⟨name.text, none⟩

/-- The tokens of a parameter list behind its opening bracket, and all parameters that they declare. -/
inductive Lists (reading : Reading) : List Token → List Parameter → Prop where
  | empty {close : Token} (closes : close.kind = .closing .round) : Lists reading [close] []
  | last {entry : List Token} {close : Token} {parameter : Parameter}
      (declares : reading.Declares close entry parameter) (closes : close.kind = .closing .round) :
      Lists reading (entry ++ [close]) [parameter]
  | more {entry list : List Token} {comma : Token} {parameter : Parameter} {params : List Parameter}
      (declares : reading.Declares comma entry parameter) (separates : comma.kind = .comma)
      (later : Lists reading list params) : Lists reading (entry ++ comma :: list) (parameter :: params)

def kept (reading : Reading) (params : List Parameter) : List Parameter :=
  params.filter fun parameter => Parameter.isKept reading.skipVariadics parameter.name

theorem keep_eq (reading : Reading) (params : List Parameter) (parameter : Parameter) :
    reading.keep params parameter.name parameter.type = params ++ reading.kept [parameter] := by
  cases selected : Parameter.isKept reading.skipVariadics parameter.name <;> simp [keep, kept, selected]

theorem kept_cons (reading : Reading) (parameter : Parameter) (params : List Parameter) :
    reading.kept (parameter :: params) = reading.kept [parameter] ++ reading.kept params := by
  rw [kept, kept, kept, ← List.filter_append, List.singleton_append]

end Reading

namespace Reader

/-- Reads on from a state in a parameter list to the end of the list.  This gives the parameters and
the tokens behind the list, or what the scan comes to if it stops before. -/
def readList (reading : Reading) (reader : Reader) (tokens : List Token) :
    Except Extraction (List Parameter × List Token) :=
  match reader, tokens with
  | closing _ params _, rest => .ok (params, rest)
  | reader, [] => .error (run reading reader [])
  | reader, token :: rest =>
    match reader.step reading token with
    | .ok (next, _) => readList reading next rest
    | .error error => .error (.failed (.scan error))

variable {reading : Reading} {reader next : Reader} {heading : Heading} {params : List Parameter}
  {name : Text} {type : Option Text} {part : EntryPart} {start : Nat} {depth after : Depth}
  {token stop : Token} {tokens rest : List Token} {result : List Parameter × List Token}

theorem readList_cons (stands : reader.opened? = some depth) (token : Token) (rest : List Token) :
    readList reading reader (token :: rest) =
      match reader.step reading token with
      | .ok (next, _) => readList reading next rest
      | .error error => .error (.failed (.scan error)) := by
  cases reader with
  | outside | defining | unopened | closing | body => contradiction
  | entries | named | inside => rfl

theorem readList_step (stands : reader.opened? = some depth) {found : Option Signature}
    (stepped : reader.step reading token = .ok (next, found)) (rest : List Token) :
    readList reading reader (token :: rest) = readList reading next rest := by
  rw [readList_cons stands, stepped]

theorem readList_closing (heading : Heading) (params : List Parameter) (depth : Int)
    (tokens : List Token) :
    readList reading (closing heading params depth) tokens = .ok (params, tokens) := by
  cases tokens <;> rfl

/-! ## The scan of a list -/

theorem readList_error (stands : reader.opened? = some depth) {outcome : Extraction}
    (failed : readList reading reader tokens = .error outcome) :
    ∃ error, outcome = .failed (.scan error) := by
  induction tokens generalizing reader depth with
  | nil =>
      cases reader with
      | outside | defining | unopened | closing | body => contradiction
      | entries | named | inside =>
          cases failed
          exact ⟨_, rfl⟩
  | cons token rest ih =>
      cases stepped : reader.step reading token with
      | error error =>
          rw [readList_cons stands, stepped] at failed
          cases failed
          exact ⟨error, rfl⟩
      | ok result =>
          obtain ⟨next, found⟩ := result
          rw [readList_step stands stepped] at failed
          cases step_listMove stands stepped with
          | within _ _ stands => exact ih stands failed
          | close =>
              rw [readList_closing] at failed
              contradiction

/-- The scan reads the list first and then goes on behind it. -/
theorem run_eq_readList (stands : reader.opened? = some depth) (heads : reader.heading? = some heading) :
    run reading reader tokens =
      match readList reading reader tokens with
      | .ok (params, rest) => run reading (closing heading params 0) rest
      | .error outcome => outcome := by
  induction tokens generalizing reader depth with
  | nil =>
      cases reader with
      | outside | defining | unopened | closing | body => contradiction
      | entries | named | inside => rfl
  | cons token rest ih =>
      rw [readList_cons stands, run]
      cases stepped : reader.step reading token with
      | error error => rfl
      | ok result =>
          obtain ⟨next, found⟩ := result
          have unfound : found = none ∧ next.heading? = some heading := by
            cases step_move stepped with
            | pass | define | name | complete | nested => contradiction
            | stay before after => exact ⟨rfl, after.trans (before.symm.trans heads)⟩
          obtain ⟨rfl, heads⟩ := unfound
          cases step_listMove stands stepped with
          | within _ _ stands => exact ih stands heads
          | close =>
              cases heads
              simp only [readList_closing]
              rfl

end Reader

/-! ## Runs of tokens -/

namespace EntryPart

/-- The brackets open after one more token of a part, unless the token ends the part or closes a
bracket that is not open in it. -/
def pass? (part : EntryPart) (depth : Depth) (kind : Token.Kind) : Option Depth :=
  if depth.isFlat && part.isEnd kind then none else depth.after? kind

def passAll? (part : EntryPart) (depth : Depth) : List Token → Option Depth
  | [] => some depth
  | token :: rest => (part.pass? depth token.kind).bind fun after => part.passAll? after rest

variable {part : EntryPart} {depth after : Depth} {token : Token} {tokens : List Token}

theorem passAll?_concat (part : EntryPart) (depth : Depth) (tokens : List Token) (token : Token) :
    part.passAll? depth (tokens ++ [token]) =
      (part.passAll? depth tokens).bind fun after => part.pass? after token.kind := by
  induction tokens generalizing depth with
  | nil => simp [passAll?]
  | cons other rest ih =>
      simp only [List.cons_append, passAll?, ih]
      cases part.pass? depth other.kind <;> rfl

theorem after?_of_pass? (passed : part.pass? depth token.kind = some after) :
    depth.after? token.kind = some after ∧ (depth.isFlat = true → part.isEnd token.kind = false) := by
  unfold pass? at passed
  split at passed
  · contradiction
  · rename_i other
    simp only [Bool.and_eq_true, not_and, Bool.not_eq_true] at other
    exact ⟨passed, other⟩

theorem isFlat_iff : depth.isFlat = true ↔ ∀ bracket, depth.count bracket = 0 := by
  constructor
  · intro flat bracket
    rw [Depth.eq_of_isFlat flat]
    cases bracket <;> rfl
  · intro none
    have round := none .round
    have square := none .square
    have curly := none .curly
    simp_all [Depth.isFlat, Depth.count]

/-- A part that can be passed over keeps count of the brackets that are open in it. -/
theorem spec_of_passAll? (passed : part.passAll? ⟨0, 0, 0⟩ tokens = some depth) :
    Token.Covered tokens ∧
      (∀ bracket, Token.openings bracket tokens = Token.closings bracket tokens + depth.count bracket) ∧
      ∀ front token, front ++ [token] <+: tokens → Token.IsLevel front → part.isEnd token.kind = false := by
  -- From the end: what is passed over so far is a front of the whole, and the statement is about fronts.
  induction tokens using List.reverseRecOn generalizing depth with
  | nil =>
      cases passed
      refine ⟨?_, ?_, ?_⟩
      · intro bracket front inside
        rw [List.prefix_nil.mp inside]
        exact Nat.le_refl _
      · intro bracket
        cases bracket <;> rfl
      · intro front token inside
        simp at inside
  | append_singleton tokens token ih =>
      rw [passAll?_concat] at passed
      obtain ⟨before, earlier, last⟩ := Option.bind_eq_some_iff.mp passed
      obtain ⟨covered, counted, unended⟩ := ih earlier
      obtain ⟨moved, unflat⟩ := after?_of_pass? last
      have count : ∀ bracket, Token.openings bracket (tokens ++ [token]) =
          Token.closings bracket (tokens ++ [token]) + depth.count bracket := by
        intro bracket
        have step := Depth.count_after? moved bracket
        have before := counted bracket
        rw [Token.openings_append, Token.closings_append, Token.openings_single, Token.closings_single]
        omega
      refine ⟨covered.concat fun bracket => ?_, count, ?_⟩
      · rw [count bracket]
        exact Nat.le_add_right _ _
      · intro front other inside level
        rcases List.prefix_concat_iff.mp inside with same | inside
        · obtain ⟨rfl, rfl⟩ : front = tokens ∧ other = token := by
            simpa using List.append_inj' same rfl
          apply unflat
          apply isFlat_iff.mpr
          intro bracket
          have here := counted bracket
          rw [level bracket] at here
          omega
        · exact unended front other inside level

theorem passAll?_exists (covered : Token.Covered tokens)
    (unended : ∀ front token, front ++ [token] <+: tokens → Token.IsLevel front →
      part.isEnd token.kind = false) :
    ∃ depth, part.passAll? ⟨0, 0, 0⟩ tokens = some depth := by
  induction tokens using List.reverseRecOn with
  | nil => exact ⟨⟨0, 0, 0⟩, rfl⟩
  | append_singleton tokens token ih =>
      have front := List.prefix_append tokens [token]
      obtain ⟨before, earlier⟩ := ih (fun bracket part inside => covered bracket part (inside.trans front))
        (fun part other inside => unended part other (inside.trans front))
      obtain ⟨_, counted, _⟩ := spec_of_passAll? earlier
      have goes : ¬ (before.isFlat && part.isEnd token.kind) = true := by
        rw [Bool.and_eq_true]
        rintro ⟨flat, ends⟩
        have level : Token.IsLevel tokens := fun bracket => by
          rw [counted bracket, isFlat_iff.mp flat bracket, Nat.add_zero]
        rw [unended tokens token (List.prefix_refl _) level] at ends
        contradiction
      have moves : ∃ depth, before.after? token.kind = some depth := by
        cases kind : token.kind with
        | opening bracket => exact ⟨_, rfl⟩
        | closing bracket =>
            have whole := covered bracket _ (List.prefix_refl _)
            have here := counted bracket
            rw [Token.openings_append, Token.closings_append, Token.openings_single,
              Token.closings_single, kind] at whole
            simp only [reduceCtorEq, if_false, if_true] at whole
            have positive : 0 < before.count bracket := by omega
            cases bracket <;> simp only [Depth.count] at positive <;>
              exact ⟨_, if_neg (Nat.ne_of_gt positive)⟩
        | define | comma | colon | equals | text => exact ⟨_, rfl⟩
      obtain ⟨depth, moved⟩ := moves
      exact ⟨depth, by rw [passAll?_concat, earlier, Option.bind_some, pass?, if_neg goes, moved]⟩

theorem isRun_iff : part.IsRun tokens ↔ part.passAll? ⟨0, 0, 0⟩ tokens = some ⟨0, 0, 0⟩ := by
  constructor
  · intro run
    obtain ⟨depth, passed⟩ := passAll?_exists run.balanced.covered run.unended
    obtain ⟨_, counted, _⟩ := spec_of_passAll? passed
    have flat : depth.isFlat = true := by
      apply isFlat_iff.mpr
      intro bracket
      have here := counted bracket
      rw [run.balanced.even bracket] at here
      omega
    rw [passed, Depth.eq_of_isFlat flat]
  · intro passed
    obtain ⟨covered, counted, unended⟩ := spec_of_passAll? passed
    refine ⟨⟨covered, fun bracket => ?_⟩, unended⟩
    rw [counted bracket]
    cases bracket <;> rfl

end EntryPart

namespace Reader

variable {reading : Reading} {reader next : Reader} {heading : Heading} {params : List Parameter}
  {name : Text} {type : Option Text} {part : EntryPart} {start : Nat} {depth after : Depth}
  {token stop : Token} {tokens rest : List Token} {result : List Parameter × List Token}

theorem step_pass (passed : part.pass? depth token.kind = some after) :
    (inside heading params name type part start depth).step reading token =
      .ok (inside heading params name type part start after, none) := by
  obtain ⟨moved, unflat⟩ := EntryPart.after?_of_pass? passed
  simp only [step, stepInside]
  cases kind : token.kind with
  | opening bracket =>
      rw [kind] at moved
      cases moved
      rfl
  | closing bracket =>
      rw [kind] at moved
      simp only [show depth.leave? bracket = some after from moved]
      rfl
  | comma =>
      rw [kind] at moved unflat
      cases moved
      have deep : depth.isFlat = false := Bool.eq_false_iff.mpr fun flat => Bool.noConfusion (unflat flat)
      simp only [deep]
      rfl
  | equals =>
      rw [kind] at moved unflat
      cases moved
      have goes : (depth.isFlat && decide (part = .type)) = false := by
        cases flat : depth.isFlat with
        | false => rfl
        | true => simpa [EntryPart.isEnd] using unflat flat
      simp only [goes]
      rfl
  | define | colon | text =>
      rw [kind] at moved
      cases moved
      rfl

/-- What becomes of a token that does not belong to the part. -/
theorem step_halt (halted : part.pass? depth token.kind = none) :
    (depth = ⟨0, 0, 0⟩ ∧ EndsEntry token.kind ∧
      (inside heading params name type part start depth).step reading token =
        .ok (behind heading (reading.keep params name (readPart reading type part start token.start))
          token.kind, none)) ∨
    (depth = ⟨0, 0, 0⟩ ∧ part = .type ∧ token.kind = .equals ∧
      (inside heading params name type part start depth).step reading token =
        .ok (inside heading params name (some (reading.textBetween start token.start)) .value token.stop
          ⟨0, 0, 0⟩, none)) ∨
    ∃ error, (inside heading params name type part start depth).step reading token = .error error := by
  unfold EntryPart.pass? at halted
  split at halted
  · rename_i ends
    rw [Bool.and_eq_true] at ends
    obtain ⟨flat, ends⟩ := ends
    obtain rfl := Depth.eq_of_isFlat flat
    cases kind : token.kind with
    | comma => exact .inl ⟨rfl, .inl rfl, kind ▸ step_ends (.inl kind)⟩
    | equals =>
        rw [kind] at ends
        obtain rfl : part = .type := of_decide_eq_true ends
        exact .inr (.inl ⟨rfl, rfl, rfl, step_equals kind⟩)
    | define | opening | closing | colon | text =>
        rw [kind] at ends
        contradiction
  · cases kind : token.kind with
    | closing bracket =>
        rw [kind] at halted
        have closed : depth.leave? bracket = none := halted
        by_cases ends : bracket = .round ∧ depth.isFlat = true
        · obtain ⟨rfl, flat⟩ := ends
          obtain rfl := Depth.eq_of_isFlat flat
          exact .inl ⟨rfl, .inr rfl, kind ▸ step_ends (.inr kind)⟩
        · refine .inr (.inr ⟨.unbalancedBrackets token.start, ?_⟩)
          simp only [step, stepInside, kind, closed]
          rw [if_neg (by simpa using ends)]
          rfl
    | define | opening | comma | colon | equals | text =>
        rw [kind] at halted
        contradiction

theorem readList_passAll (passed : part.passAll? depth tokens = some after) (rest : List Token) :
    readList reading (inside heading params name type part start depth) (tokens ++ rest) =
      readList reading (inside heading params name type part start after) rest := by
  induction tokens generalizing depth with
  | nil =>
      cases passed
      rfl
  | cons token tokens ih =>
      obtain ⟨next, first, later⟩ := Option.bind_eq_some_iff.mp passed
      rw [List.cons_append, readList_step rfl (step_pass first), ih later]

theorem readList_isRun (run : part.IsRun tokens) (rest : List Token) :
    readList reading (inside heading params name type part start ⟨0, 0, 0⟩) (tokens ++ rest) =
      readList reading (inside heading params name type part start ⟨0, 0, 0⟩) rest :=
  readList_passAll (EntryPart.isRun_iff.mp run) rest

/-! ## Entries and lists -/

theorem step_name (named : token.kind = .text) :
    (entries heading params).step reading token = .ok (.named heading params token.text, none) := by
  simp only [step, named]

theorem step_closed (closes : token.kind = .closing .round) :
    (entries heading params).step reading token = .ok (closing heading params 0, none) := by
  simp only [step, closes]

theorem step_colon (separated : token.kind = .colon) :
    (named heading params name).step reading token =
      .ok (inside heading params name none .type token.stop ⟨0, 0, 0⟩, none) := by
  simp only [step, separated]

theorem step_assigned (assigned : token.kind = .equals) :
    (named heading params name).step reading token =
      .ok (inside heading params name none .value token.stop ⟨0, 0, 0⟩, none) := by
  simp only [step, assigned]

theorem readList_part (run : part.IsRun tokens) (ends : EndsEntry stop.kind) (rest : List Token) :
    readList reading (inside heading params name type part start ⟨0, 0, 0⟩) (tokens ++ stop :: rest) =
      readList reading (behind heading
        (reading.keep params name (readPart reading type part start stop.start)) stop.kind) rest := by
  rw [readList_isRun run]
  exact readList_step rfl (step_ends ends) rest

theorem readList_declares {entry : List Token} {parameter : Parameter}
    (declares : reading.Declares stop entry parameter) (ends : EndsEntry stop.kind)
    (params : List Parameter) (rest : List Token) :
    readList reading (entries heading params) (entry ++ stop :: rest) =
      readList reading (behind heading (params ++ reading.kept [parameter]) stop.kind) rest := by
  rw [← reading.keep_eq]
  cases declares with
  | bare named =>
      rw [List.singleton_append, readList_step rfl (step_name named), readList_step rfl (step_named ends)]
  | typed named separated typing =>
      rw [List.cons_append, readList_step rfl (step_name named), List.cons_append,
        readList_step rfl (step_colon separated), readList_part typing ends]
      rfl
  | @typedValued name colon equals type value named separated typing assigned valuing =>
      rw [List.cons_append, readList_step rfl (step_name named), List.cons_append,
        readList_step rfl (step_colon separated), List.append_assoc,
        readList_isRun typing]
      exact (readList_step rfl (step_equals assigned) _).trans (readList_part valuing ends rest)
  | valued named assigned valuing =>
      rw [List.cons_append, readList_step rfl (step_name named), List.cons_append,
        readList_step rfl (step_assigned assigned), readList_part valuing ends]
      rfl

theorem readList_lists {list : List Token} {listed : List Parameter} (lists : reading.Lists list listed)
    (params : List Parameter) (rest : List Token) :
    readList reading (entries heading params) (list ++ rest) = .ok (params ++ reading.kept listed, rest) := by
  induction lists generalizing params with
  | empty closes =>
      rw [List.singleton_append, readList_step rfl (step_closed closes), readList_closing]
      simp [Reading.kept]
  | @last entry close parameter declares closes =>
      rw [List.append_assoc, List.singleton_append, readList_declares declares (.inr closes), closes]
      exact readList_closing _ _ _ _
  | @more entry list comma parameter listed declares separates later ih =>
      rw [List.append_assoc, List.cons_append, readList_declares declares (.inl separates), separates,
        reading.kept_cons parameter listed, ← List.append_assoc]
      exact ih _

/-- A part that is read to the end of its list is a run, and a token that ends it follows. -/
theorem part_of_readList
    (read : readList reading (inside heading params name type part start depth) tokens = .ok result) :
    ∃ run stop rest, tokens = run ++ stop :: rest ∧ part.passAll? depth run = some ⟨0, 0, 0⟩ ∧
      (EndsEntry stop.kind ∧ readList reading (behind heading
          (reading.keep params name (readPart reading type part start stop.start)) stop.kind) rest =
            .ok result ∨
        part = .type ∧ stop.kind = .equals ∧
          readList reading (inside heading params name (some (reading.textBetween start stop.start)) .value
            stop.stop ⟨0, 0, 0⟩) rest = .ok result) := by
  induction tokens generalizing depth with
  | nil => contradiction
  | cons token tokens ih =>
      cases passed : part.pass? depth token.kind with
      | some after =>
          rw [readList_step rfl (step_pass passed)] at read
          obtain ⟨run, stop, rest, rfl, through, ended⟩ := ih read
          refine ⟨token :: run, stop, rest, rfl, ?_, ended⟩
          rw [EntryPart.passAll?, passed]
          exact through
      | none =>
          rcases @step_halt reading heading params name type part start depth token passed with
            ⟨rfl, ends, stepped⟩ | ⟨rfl, rfl, equals, stepped⟩ | ⟨error, stepped⟩
          · rw [readList_step rfl stepped] at read
            exact ⟨[], token, tokens, rfl, rfl, .inl ⟨ends, read⟩⟩
          · rw [readList_step rfl stepped] at read
            exact ⟨[], token, tokens, rfl, rfl, .inr ⟨rfl, equals, read⟩⟩
          · rw [readList_cons rfl, stepped] at read
            contradiction

theorem declares_of_readList {first : Token} (text : first.kind = .text)
    (read : readList reading (named heading params first.text) tokens = .ok result) :
    ∃ entry stop rest parameter, first :: tokens = entry ++ stop :: rest ∧
      reading.Declares stop entry parameter ∧ EndsEntry stop.kind ∧
      readList reading (behind heading (params ++ reading.kept [parameter]) stop.kind) rest = .ok result := by
  match tokens with
  | [] => contradiction
  | token :: tokens =>
      -- The token behind the name tells which form the entry has.
      by_cases ends : EndsEntry token.kind
      · rw [readList_step rfl (step_named ends)] at read
        refine ⟨[first], token, tokens, _, rfl, .bare text, ends, ?_⟩
        rw [← reading.keep_eq]
        exact read
      · cases kind : token.kind with
        | colon =>
            rw [readList_step rfl (step_colon kind)] at read
            obtain ⟨run, stop, rest, rfl, passed, ended⟩ := part_of_readList read
            have typing := EntryPart.isRun_iff.mpr passed
            rcases ended with ⟨ends, read⟩ | ⟨_, equals, read⟩
            · refine ⟨first :: token :: run, stop, rest, _, rfl, .typed text kind typing, ends, ?_⟩
              rw [← reading.keep_eq]
              exact read
            · -- No further equals sign ends a default value.
              obtain ⟨value, last, rest, rfl, passed, ended⟩ := part_of_readList read
              rcases ended with ⟨ends, read⟩ | ⟨other, _⟩
              · refine ⟨first :: token :: (run ++ stop :: value), last, rest, _, by simp,
                  .typedValued text kind typing equals (EntryPart.isRun_iff.mpr passed), ends, ?_⟩
                rw [← reading.keep_eq]
                exact read
              · contradiction
        | equals =>
            rw [readList_step rfl (step_assigned kind)] at read
            obtain ⟨run, stop, rest, rfl, passed, ended⟩ := part_of_readList read
            rcases ended with ⟨ends, read⟩ | ⟨other, _⟩
            · refine ⟨first :: token :: run, stop, rest, _, rfl,
                .valued text kind (EntryPart.isRun_iff.mpr passed), ends, ?_⟩
              rw [← reading.keep_eq]
              exact read
            · contradiction
        | comma => exact absurd (.inl kind) ends
        | closing bracket =>
            cases bracket with
            | round => exact absurd (.inr kind) ends
            | square | curly =>
                rw [readList_cons rfl] at read
                simp only [step, kind] at read
                contradiction
        | define | opening | text =>
            rw [readList_cons rfl] at read
            simp only [step, kind] at read
            contradiction

theorem lists_of_readList (read : readList reading (entries heading params) tokens = .ok result) :
    ∃ list listed, reading.Lists list listed ∧ tokens = list ++ result.2 ∧
      result.1 = params ++ reading.kept listed := by
  induction length : tokens.length using Nat.strongRecOn generalizing tokens params with
  | _ size ih =>
      match tokens with
      | [] => contradiction
      | first :: tokens =>
          cases kind : first.kind with
          | text =>
              rw [readList_step rfl (step_name kind)] at read
              obtain ⟨entry, stop, rest, parameter, split, declares, ends, read⟩ :=
                declares_of_readList kind read
              have shorter : rest.length < size := by
                rw [← length, split, List.length_append, List.length_cons]
                omega
              rw [split]
              rcases ends with comma | close
              · rw [behind, if_pos comma] at read
                obtain ⟨list, listed, lists, rest, kept⟩ := ih _ shorter read rfl
                refine ⟨entry ++ stop :: list, parameter :: listed, .more declares comma lists, ?_, ?_⟩
                · rw [rest, List.append_assoc, List.cons_append]
                · rw [kept, reading.kept_cons parameter listed, List.append_assoc]
              · rw [behind, if_neg (by simp [close]), readList_closing] at read
                cases read
                exact ⟨entry ++ [stop], [parameter], .last declares close, by simp, rfl⟩
          | closing bracket =>
              cases bracket with
              | round =>
                  rw [readList_step rfl (step_closed kind), readList_closing] at read
                  cases read
                  exact ⟨[first], [], .empty kind, rfl, by simp [Reading.kept]⟩
              | square | curly =>
                  rw [readList_cons rfl] at read
                  simp only [step, kind] at read
                  contradiction
          | define | opening | comma | colon | equals =>
              rw [readList_cons rfl] at read
              simp only [step, kind] at read
              contradiction

/-- Behind the opening bracket of a header the reader accepts exactly the parameter lists of the
grammar.  There is at most one at the front of the tokens; its tokens and no more are read, and of the
parameters that it declares those that belong in a signature are found.  Without one the scan ends
there with a scan error. -/
theorem readList_grammar (reading : Reading) (heading : Heading) (tokens : List Token) :
    (∀ params rest, readList reading (entries heading []) tokens = .ok (params, rest) ↔
      ∃ list listed, reading.Lists list listed ∧ tokens = list ++ rest ∧ params = reading.kept listed) ∧
    (∀ list listed other others, reading.Lists list listed → reading.Lists other others →
      list <+: tokens → other <+: tokens → list = other) ∧
    ((¬ ∃ list listed, reading.Lists list listed ∧ list <+: tokens) ↔
      ∃ error, readList reading (entries heading []) tokens = .error (.failed (.scan error))) ∧
    run reading (entries heading []) tokens =
      match readList reading (entries heading []) tokens with
      | .ok (params, rest) => run reading (closing heading params 0) rest
      | .error outcome => outcome := by
  refine ⟨fun params rest => ⟨fun read => ?_, ?_⟩, ?_, ⟨fun absent => ?_, ?_⟩, run_eq_readList rfl rfl⟩
  · exact lists_of_readList read
  · rintro ⟨list, listed, lists, rfl, rfl⟩
    exact readList_lists lists [] rest
  · rintro list listed other others lists otherLists ⟨rest, rfl⟩ ⟨otherRest, same⟩
    -- Both readings leave the same tokens behind.
    have here := @readList_lists reading heading _ _ lists [] rest
    rw [← same, readList_lists otherLists] at here
    obtain ⟨_, rfl⟩ := Prod.mk.inj (Except.ok.inj here)
    exact (List.append_cancel_right same).symm
  · cases read : readList reading (entries heading []) tokens with
    | ok result =>
        obtain ⟨list, listed, lists, split, _⟩ := lists_of_readList read
        exact absurd ⟨list, listed, lists, result.2, split.symm⟩ absent
    | error outcome =>
        obtain ⟨error, rfl⟩ := readList_error rfl read
        exact ⟨error, rfl⟩
  · rintro ⟨error, failed⟩ ⟨list, listed, lists, rest, rfl⟩
    rw [readList_lists lists] at failed
    contradiction

end Reader
end DocDrift
