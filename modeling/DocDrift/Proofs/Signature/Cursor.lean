import DocDrift.Signature.Reader
import DocDrift.Token.Cursor

namespace DocDrift

/-! # Reading from a cursor

The reader steps through a list of tokens, and a cursor hands tokens out on demand and takes one back.
Reading from a cursor comes to the same: where the body of a function opens with another one, the word
for that is taken back, and handed out again outside the header.
-/

namespace Cursor

/-- The tokens that a cursor has yet to hand out. -/
def ahead (cursor : Cursor) : List Token := cursor.pushed.toList ++ cursor.pending

variable {cursor after : Cursor} {token : Token} {rest : List Token}

theorem next_nil (ended : cursor.ahead = []) : cursor.next = (none, cursor) := by
  obtain ⟨length, pending, pushed, last⟩ := cursor
  cases pushed with
  | some token => contradiction
  | none =>
      obtain rfl : pending = [] := ended
      rfl

theorem next_cons (here : cursor.ahead = token :: rest) :
    ∃ after, cursor.next = (some token, after) ∧ after.ahead = rest ∧ after.pushed = none ∧
      after.length = cursor.length := by
  obtain ⟨length, pending, pushed, last⟩ := cursor
  cases pushed with
  | some other =>
      obtain ⟨rfl, rfl⟩ := List.cons.inj here
      exact ⟨_, rfl, rfl, rfl, rfl⟩
  | none =>
      obtain rfl : pending = token :: rest := here
      exact ⟨_, rfl, rfl, rfl, rfl⟩

theorem ahead_pushBack (clear : cursor.pushed = none) : (cursor.pushBack token).ahead = token :: cursor.ahead := by
  rw [ahead, ahead, clear]
  rfl

end Cursor

namespace Reader

/-- The next token for the reader, and the cursor behind it.  Outside a header the source may end.
Inside a type or a default value it is the reader that says why it must not, elsewhere the cursor. -/
def ask (reader : Reader) (cursor : Cursor) : Except ScanError (Option (Token × Cursor)) :=
  let expect := fun (context : String) =>
    match cursor.expect context with
    | (.ok token, after) => .ok (some (token, after))
    | (.error error, _) => .error error
  match reader with
  | outside =>
      match cursor.next with
      | (some token, after) => .ok (some (token, after))
      | (none, _) => .ok none
  | inside _ _ _ _ _ _ _ =>
      match cursor.next with
      | (some token, after) => .ok (some (token, after))
      | (none, _) => .error (.unclosedList cursor.length)
  | defining _ => expect "after 'def'"
  | unopened _ => expect "before the parameter list"
  | entries _ _ | named _ _ _ => expect "inside a parameter list"
  | closing _ _ _ => expect "before the end of the function header"
  | body _ _ => expect "before the function body"

variable {reading : Reading} {reader : Reader} {cursor after : Cursor} {token : Token}

theorem ask_next (handed : cursor.next = (some token, after)) :
    reader.ask cursor = .ok (some (token, after)) := by
  cases reader <;> simp only [ask, Cursor.expect, handed]

theorem ask_ended (nothing : cursor.next = (none, after)) :
    reader.ask cursor = match reader.ended cursor.length with
      | some error => .error error
      | none => .ok none := by
  cases reader <;> simp only [ask, Cursor.expect, nothing, ended]

theorem ask_eq_some (asked : reader.ask cursor = .ok (some (token, after))) :
    cursor.ahead = token :: after.ahead ∧ after.pushed = none := by
  cases here : cursor.ahead with
  | nil =>
      rw [ask_ended (Cursor.next_nil here)] at asked
      cases reader <;> cases asked
  | cons other rest =>
      obtain ⟨behind, handed, ahead, clear, _⟩ := Cursor.next_cons here
      rw [ask_next handed] at asked
      cases asked
      exact ⟨by rw [ahead], clear⟩

/-- The states in which the reader may give a token back. -/
def rank : Reader → Nat
  | body _ _ => 1
  | _ => 0

theorem rank_le (reader : Reader) : reader.rank ≤ 1 := by
  cases reader <;> simp [rank]

/-- What the reader makes of a token that it asked for.  A word that defines a function is given back
where it opens the body of another one. -/
def accept (reading : Reading) (reader : Reader) (token : Token) (after : Cursor) :
    Except ScanError (Reader × Option Signature × Cursor) :=
  match reader, token.kind with
  | body heading params, .define =>
      .ok (outside, some (reading.signature heading params none), after.pushBack token)
  | reader, _ => (reader.step reading token).map fun (next, found) => (next, found, after)

theorem accept_body {heading : Heading} {params : List Parameter} (define : token.kind = .define) :
    (body heading params).accept reading token after =
      .ok (outside, some (reading.signature heading params none), after.pushBack token) := by
  simp only [accept, define]

theorem accept_cases (reading : Reading) (reader : Reader) (token : Token) (after : Cursor) :
    (token.kind = .define ∧ ∃ heading params, reader = body heading params) ∨
      reader.accept reading token after =
        (reader.step reading token).map fun (next, found) => (next, found, after) := by
  unfold accept
  split
  · rename_i heading params define
    exact .inl ⟨define, heading, params, rfl⟩
  · exact .inr rfl

/-- Accepting a token gets on: it takes the token, or leaves the body of a function. -/
theorem accept_lt {next : Reader} {found : Option Signature} {rest : Cursor} (clear : after.pushed = none)
    (accepted : reader.accept reading token after = .ok (next, found, rest)) :
    2 * rest.ahead.length + next.rank < 2 * (after.ahead.length + 1) + reader.rank := by
  rcases accept_cases reading reader token after with ⟨define, heading, params, rfl⟩ | plain
  · rw [accept_body define] at accepted
    cases accepted
    rw [Cursor.ahead_pushBack clear]
    exact Nat.lt_succ_self _
  · have rank := next.rank_le
    rw [plain] at accepted
    cases stepped : reader.step reading token with
    | error error =>
        rw [stepped] at accepted
        contradiction
    | ok result =>
        rw [stepped] at accepted
        cases accepted
        omega

/-- Reads from a cursor until the source ends or is refused. -/
def read (reading : Reading) (reader : Reader) (cursor : Cursor) : Extraction :=
  match _asked : reader.ask cursor with
  | .error error => .failed (.scan error)
  | .ok none => ⟨[], none⟩
  | .ok (some (token, after)) =>
    match _accepted : reader.accept reading token after with
    | .error error => .failed (.scan error)
    | .ok (next, found, rest) => .found found (read reading next rest)
termination_by 2 * cursor.ahead.length + reader.rank
decreasing_by
  obtain ⟨here, clear⟩ := ask_eq_some _asked
  rw [here]
  exact accept_lt clear _accepted

theorem read_ended (nothing : cursor.next = (none, after)) :
    reader.read reading cursor = ⟨[], (reader.ended cursor.length).map .scan⟩ := by
  have asked := @ask_ended reader cursor after nothing
  rw [read]
  split <;> rename_i asks <;> rw [asks] at asked
  · split at asked
    · rename_i error ends
      cases asked
      rw [ends]
      rfl
    · contradiction
  · split at asked
    · contradiction
    · rename_i ends
      rw [ends]
      rfl
  · split at asked <;> cases asked

theorem read_next (handed : cursor.next = (some token, after)) :
    reader.read reading cursor = match reader.accept reading token after with
      | .error error => .failed (.scan error)
      | .ok (next, found, rest) => .found found (next.read reading rest) := by
  have asked := @ask_next reader cursor after token handed
  rw [read]
  split <;> rename_i asks <;> rw [asks] at asked <;> cases asked
  split <;> rename_i accepts <;> rw [accepts]

/-- Reading from a cursor is stepping through the tokens that it has yet to hand out. -/
theorem read_eq_run (whole : cursor.length = reading.source.length) :
    reader.read reading cursor = run reading reader cursor.ahead := by
  induction remain : cursor.ahead generalizing reader cursor with
  | nil => rw [read_ended (Cursor.next_nil remain), run, whole]
  | cons token tokens ih =>
      obtain ⟨after, handed, behind, clear, length⟩ := Cursor.next_cons remain
      rcases accept_cases reading reader token after with ⟨define, heading, params, rfl⟩ | plain
      · -- The word is handed out once more, and opens the next header.
        obtain ⟨again, handedAgain, behindAgain, _, lengthAgain⟩ :=
          Cursor.next_cons (@Cursor.ahead_pushBack after token clear)
        have inner : (defining token).read reading again = run reading (defining token) tokens :=
          ih (lengthAgain.trans (length.trans whole)) (behindAgain.trans behind)
        have outer : outside.read reading (after.pushBack token) = run reading (defining token) tokens := by
          rw [read_next handedAgain, ← inner]
          simp only [accept, step, define, if_true, Except.map]
          rfl
        rw [read_next handed, accept_body define, run]
        simp only [outer, step, define]
      · rw [read_next handed, plain, run]
        cases stepped : reader.step reading token with
        | error error => rfl
        | ok result =>
            obtain ⟨next, found⟩ := result
            exact congrArg (Extraction.found found) (ih (length.trans whole) behind)

end Reader

/-- The forward scan reads from a cursor over the source. -/
theorem Reading.extract_eq_read (reading : Reading) :
    reading.extract = Reader.read reading .outside (.ofText reading.source) :=
  (@Reader.read_eq_run reading .outside (.ofText reading.source) rfl).symm

end DocDrift
