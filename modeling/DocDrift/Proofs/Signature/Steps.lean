import DocDrift.Signature.Reader

namespace DocDrift.Reader

/-! # Runs of the reader

A run that meets no error is a chain of steps.  Chains compose, so a run over consecutive tokens can
be cut anywhere.
-/

/-- The reader goes from one state to another over some tokens and finds some signatures. -/
inductive Steps (reading : Reading) : Reader → List Token → List Signature → Reader → Prop where
  | nil {reader : Reader} : Steps reading reader [] [] reader
  | cons {reader next last : Reader} {token : Token} {tokens : List Token}
      {found : Option Signature} {signatures : List Signature}
      (first : reader.step reading token = .ok (next, found))
      (later : Steps reading next tokens signatures last) :
      Steps reading reader (token :: tokens) (found.toList ++ signatures) last

variable {reading : Reading} {reader last : Reader} {tokens : List Token}
  {signatures : List Signature}

theorem Steps.run_append (steps : Steps reading reader tokens signatures last) (more : List Token) :
    run reading reader (tokens ++ more) =
      ⟨signatures ++ (run reading last more).signatures, (run reading last more).fault⟩ := by
  induction steps with
  | nil => rfl
  | cons first later ih =>
      simp only [List.cons_append, run, first, ih, Extraction.found, List.append_assoc]

theorem Steps.append {later : List Token} {others : List Signature} {final : Reader}
    (steps : Steps reading reader tokens signatures last) (more : Steps reading last later others final) :
    Steps reading reader (tokens ++ later) (signatures ++ others) final := by
  induction steps with
  | nil => exact more
  | cons first _ ih =>
      rw [List.append_assoc]
      exact .cons first (ih more)

theorem Steps.split_last {token : Token} (chain : Steps reading reader (tokens ++ [token]) signatures last) :
    ∃ middle earlier found, Steps reading reader tokens earlier middle ∧
      middle.step reading token = .ok (last, found) ∧ signatures = earlier ++ found.toList := by
  induction tokens generalizing reader signatures with
  | nil =>
      cases chain with
      | @cons _ _ _ _ _ found _ first later =>
          cases later
          exact ⟨reader, [], found, .nil, first, by simp⟩
  | cons other tokens ih =>
      cases chain with
      | @cons _ _ _ _ _ found _ first later =>
          obtain ⟨middle, earlier, own, before, step, rfl⟩ := ih later
          exact ⟨middle, found.toList ++ earlier, own, .cons first before, step, by simp⟩

/-- A signature is found in one step, after a chain of steps. -/
theorem steps_of_found {signature : Signature} (member : signature ∈ (run reading reader tokens).signatures) :
    ∃ before token after earlier middle next, tokens = before ++ token :: after ∧
      Steps reading reader before earlier middle ∧
      middle.step reading token = .ok (next, some signature) := by
  induction tokens generalizing reader with
  | nil => contradiction
  | cons token rest ih =>
      simp only [run] at member
      cases first : reader.step reading token with
      | error error =>
          rw [first] at member
          contradiction
      | ok result =>
          obtain ⟨next, found⟩ := result
          rw [first] at member
          rcases List.mem_append.mp member with here | later
          · obtain rfl := Option.mem_toList.mp here
            exact ⟨[], token, rest, [], reader, next, rfl, .nil, first⟩
          · obtain ⟨before, other, after, earlier, middle, last, rfl, chain, step⟩ := ih later
            exact ⟨token :: before, other, after, found.toList ++ earlier, middle, last, rfl,
              .cons first chain, step⟩

/-- A run without a fault is a chain of steps that ends outside every header. -/
theorem steps_of_run (finished : (run reading reader tokens).fault = none) :
    Steps reading reader tokens (run reading reader tokens).signatures .outside := by
  induction tokens generalizing reader with
  | nil =>
      cases reader with
      | outside => exact .nil
      | _ => contradiction
  | cons token rest ih =>
      simp only [run] at finished ⊢
      cases first : reader.step reading token with
      | error error =>
          rw [first] at finished
          contradiction
      | ok result =>
          rw [first] at finished
          exact .cons first (ih finished)

theorem run_fault (reading : Reading) (reader : Reader) (tokens : List Token) :
    (run reading reader tokens).fault = none ∨
      ∃ error, (run reading reader tokens).fault = some (.scan error) := by
  induction tokens generalizing reader with
  | nil =>
      simp only [run]
      cases reader.ended reading.source.length with
      | none => exact .inl rfl
      | some error => exact .inr ⟨error, rfl⟩
  | cons token rest ih =>
      simp only [run]
      cases reader.step reading token with
      | error error => exact .inr ⟨error, rfl⟩
      | ok result => exact ih result.1

/-- The header that the reader stands in, once its name is known. -/
def heading? : Reader → Option Heading
  | outside | defining _ => none
  | unopened heading | entries heading _ | named heading _ _ | inside heading _ _ _ _ _ _
  | closing heading _ _ | body heading _ => some heading

/-- What one step can do to the header and what it can find. -/
inductive Move (reading : Reading) (token : Token) : Reader → Reader → Option Signature → Prop where
  | pass (other : token.kind ≠ .define) : Move reading token outside outside none
  | define (defines : token.kind = .define) : Move reading token outside (defining token) none
  | name {define : Token} (named : token.kind = .text) :
      Move reading token (defining define) (unopened ⟨define, token⟩) none
  | stay {reader next : Reader} {heading : Heading} (before : reader.heading? = some heading)
      (after : next.heading? = some heading) : Move reading token reader next none
  | complete {heading : Heading} {params : List Parameter} {docstring : Option Span}
      (text : token.kind = .text) :
      Move reading token (body heading params) outside
        (some (reading.signature heading params docstring))
  | nested {heading : Heading} {params : List Parameter} (defines : token.kind = .define) :
      Move reading token (body heading params) (defining token)
        (some (reading.signature heading params none))

theorem stepInside_heading {heading : Heading} {params : List Parameter} {name : Text}
    {type : Option Text} {part : EntryPart} {start : Nat} {depth : Depth} {token : Token}
    {next : Reader}
    (stepped : stepInside reading heading params name type part start depth token = .ok next) :
    next.heading? = some heading := by
  simp only [stepInside] at stepped
  repeat' split at stepped
  all_goals first
    | contradiction
    | cases stepped; rfl

theorem step_move {next : Reader} {token : Token} {found : Option Signature}
    (stepped : reader.step reading token = .ok (next, found)) :
    Move reading token reader next found := by
  cases reader with
  | outside =>
      cases stepped
      by_cases defines : token.kind = .define
      · rw [if_pos defines]
        exact .define defines
      · rw [if_neg defines]
        exact .pass defines
  | defining define =>
      simp only [step] at stepped
      split at stepped
      · rename_i named
        cases stepped
        exact .name named
      · contradiction
  | unopened heading =>
      cases stepped
      by_cases opens : token.kind = .opening .round
      · rw [if_pos opens]
        exact .stay rfl rfl
      · rw [if_neg opens]
        exact .stay rfl rfl
  | entries heading params =>
      simp only [step] at stepped
      split at stepped <;> cases stepped <;> exact .stay rfl rfl
  | named heading params name =>
      simp only [step] at stepped
      split at stepped <;> cases stepped <;> exact .stay rfl rfl
  | inside heading params name type part start depth =>
      simp only [step] at stepped
      cases result : stepInside reading heading params name type part start depth token with
      | error error =>
          rw [result] at stepped
          contradiction
      | ok after =>
          rw [result] at stepped
          cases stepped
          exact .stay rfl (stepInside_heading result)
  | closing heading params depth =>
      simp only [step] at stepped
      split at stepped
      · cases stepped; exact .stay rfl rfl
      · cases stepped; exact .stay rfl rfl
      · cases stepped
        by_cases flat : depth = 0
        · rw [if_pos flat]
          exact .stay rfl rfl
        · rw [if_neg flat]
          exact .stay rfl rfl
      · cases stepped; exact .stay rfl rfl
  | body heading params =>
      simp only [step] at stepped
      split at stepped
      · rename_i text
        split at stepped
        · split at stepped
          · cases stepped; exact .complete text
          · contradiction
        · cases stepped; exact .complete text
      · rename_i defines
        cases stepped
        exact .nested defines
      · cases stepped; exact .stay rfl rfl

end DocDrift.Reader
