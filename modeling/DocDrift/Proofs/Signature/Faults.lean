import DocDrift.Proofs.Signature.Bodies

namespace DocDrift

/-! # Where a scan breaks off

The reader halts at a token that does not fit its state, or at the end of the source inside a header.
Either place lies behind all that it has read: behind the word that defines the function, and behind the
names and docstrings of the functions before.
-/

namespace ScanError

/-- How the message of an error begins when the source ends too early. -/
def endMessage : Text := "reached end of source".toList

def isEnd : ScanError → Bool
  | sourceEnded _ _ | unclosedList _ => true
  | _ => false

theorem not_endMessage {lead : String} {c : Char} (first : lead.toList.head? = some c) (other : c ≠ 'r')
    (more : String) : ¬ endMessage <+: (lead ++ more).toList := by
  rw [String.toList_append]
  rintro ⟨rest, same⟩
  have own : endMessage.head? = some 'r' := by decide +kernel
  have heads := congrArg List.head? same
  rw [List.head?_append, List.head?_append, own, first] at heads
  exact other (Option.some.inj heads).symm

theorem isEnd_iff (error : ScanError) : error.isEnd = true ↔ endMessage <+: error.message.toList := by
  cases error with
  | sourceEnded context length =>
      have lead : endMessage <+: "reached end of source ".toList := by decide +kernel
      refine iff_of_true rfl ?_
      change endMessage <+: ("reached end of source " ++ context).toList
      rw [String.toList_append]
      exact lead.trans (List.prefix_append _ _)
  | unclosedList length =>
      have whole : endMessage <+: "reached end of source without enclosers".toList := by decide +kernel
      exact iff_of_true rfl whole
  | nameExpected found offset =>
      have first : "expected a function name, found ".toList.head? = some 'e' := by decide +kernel
      exact iff_of_false Bool.false_ne_true (not_endMessage first (by decide) _)
  | unexpectedInList found offset =>
      have first : "unexpected ".toList.head? = some 'u' := by decide +kernel
      refine iff_of_false Bool.false_ne_true ?_
      change ¬ endMessage <+: ("unexpected " ++ Text.quoted found ++ " in parameter list").toList
      rw [String.append_assoc]
      exact not_endMessage first (by decide) _
  | separatorExpected name offset =>
      have first : "expected ',', ':', '=' or ')' after parameter ".toList.head? = some 'e' := by decide +kernel
      exact iff_of_false Bool.false_ne_true (not_endMessage first (by decide) _)
  | unbalancedBrackets offset =>
      have other : ¬ endMessage <+: "unbalanced brackets in parameter list".toList := by decide +kernel
      exact iff_of_false Bool.false_ne_true other
  | unterminatedDocstring offset =>
      have other : ¬ endMessage <+: "unterminated docstring".toList := by decide +kernel
      exact iff_of_false Bool.false_ne_true other
  | unparsable report =>
      have first : "cannot parse source".toList.head? = some 'c' := by decide +kernel
      exact iff_of_false Bool.false_ne_true (not_endMessage first (by decide) _)

end ScanError

namespace Reader

variable {reading : Reading} {reader last : Reader} {token : Token} {tokens rest : List Token}
  {found : List Signature} {error : ScanError}

/-- The word that defines the function in whose header the reader stands. -/
def define? : Reader → Option Token
  | defining define => some define
  | reader => reader.heading?.map (·.define)

/-- The error of a reader that cannot go on over the tokens that are left. -/
def halt? (reading : Reading) (reader : Reader) : List Token → Option ScanError
  | [] => reader.ended reading.source.length
  | token :: _ =>
    match reader.step reading token with
    | .ok _ => none
    | .error error => some error

/-- A run that breaks off is a chain of steps to a reader that halts. -/
theorem steps_of_fault (broken : (run reading reader tokens).fault = some (.scan error)) :
    ∃ read rest last, tokens = read ++ rest ∧
      Steps reading reader read (run reading reader tokens).signatures last ∧
        last.halt? reading rest = some error := by
  induction tokens generalizing reader with
  | nil =>
      obtain ⟨own, ended, same⟩ := Option.map_eq_some_iff.mp broken
      cases same
      exact ⟨[], [], reader, rfl, .nil, ended⟩
  | cons token tokens ih =>
      simp only [run] at broken ⊢
      cases stepped : reader.step reading token with
      | error own =>
          rw [stepped] at broken
          cases broken
          exact ⟨[], token :: tokens, reader, rfl, .nil, by simp [halt?, stepped]⟩
      | ok result =>
          rw [stepped] at broken
          obtain ⟨read, rest, last, rfl, chain, halts⟩ := ih broken
          exact ⟨token :: read, rest, last, rfl, .cons stepped chain, halts⟩

theorem stepInside_error {heading : Heading} {params : List Parameter} {name : Text} {type : Option Text}
    {part : EntryPart} {start : Nat} {depth : Depth}
    (stepped : stepInside reading heading params name type part start depth token = .error error) :
    error = .unbalancedBrackets token.start := by
  simp only [stepInside] at stepped
  repeat' split at stepped
  all_goals cases stepped
  rfl

theorem step_error (stepped : reader.step reading token = .error error) :
    error.offset? = some token.start ∧ error.isEnd = false ∧ reader.define? ≠ none := by
  cases reader with
  | outside => cases stepped
  | defining define =>
      simp only [step] at stepped
      split at stepped <;> cases stepped
      exact ⟨rfl, rfl, by simp [define?]⟩
  | unopened heading => cases stepped
  | entries heading params =>
      simp only [step] at stepped
      split at stepped <;> cases stepped
      exact ⟨rfl, rfl, by simp [define?, heading?]⟩
  | named heading params name =>
      simp only [step] at stepped
      split at stepped <;> cases stepped
      exact ⟨rfl, rfl, by simp [define?, heading?]⟩
  | inside heading params name type part start depth =>
      simp only [step] at stepped
      cases result : stepInside reading heading params name type part start depth token with
      | ok after =>
          rw [result] at stepped
          cases stepped
      | error own =>
          rw [result] at stepped
          cases stepped
          obtain rfl := stepInside_error result
          exact ⟨rfl, rfl, by simp [define?, heading?]⟩
  | closing heading params depth =>
      simp only [step] at stepped
      split at stepped <;> cases stepped
  | body heading params =>
      simp only [step] at stepped
      split at stepped
      · split at stepped
        · split at stepped <;> cases stepped
          exact ⟨rfl, rfl, by simp [define?, heading?]⟩
        · cases stepped
      · cases stepped
      · cases stepped

theorem ended_error {length : Nat} (ended : reader.ended length = some error) :
    error.offset? = some length ∧ error.isEnd = true ∧ reader.define? ≠ none := by
  cases reader with
  | outside => cases ended
  | _ =>
      cases ended
      exact ⟨rfl, rfl, by simp [define?, heading?]⟩

theorem define?_of_heading {heading : Heading} (standing : reader.heading? = some heading) :
    reader.define? = some heading.define := by
  cases reader <;> cases standing <;> rfl

/-- The function that a reader stands in is the last one that it has come to, and it has found nothing
since. -/
theorem Steps.from_define {define : Token} (chain : Steps reading .outside tokens found reader)
    (standing : reader.define? = some define) :
    ∃ front inner, tokens = front ++ define :: inner ∧ define.kind = .define ∧
      Steps reading .outside (front ++ [define]) found (.defining define) ∧
        Steps reading (.defining define) inner [] reader := by
  induction tokens using List.reverseRecOn generalizing reader found with
  | nil =>
      cases chain
      cases standing
  | append_singleton tokens token ih =>
      obtain ⟨middle, earlier, signature, before, step, rfl⟩ := chain.split_last
      cases step_move step with
      | pass | complete => cases standing
      | define defines | nested defines =>
          cases standing
          exact ⟨tokens, [], rfl, defines, chain, .nil⟩
      | name named =>
          cases standing
          obtain ⟨front, rfl, defines⟩ := before.defined
          exact ⟨front, [token], by simp, defines, by simpa using before, .quiet step .nil⟩
      | @stay _ _ heading earlier after =>
          have same := (define?_of_heading after).symm.trans standing
          obtain ⟨front, inner, rfl, defines, entry, within⟩ := ih before ((define?_of_heading earlier).trans same)
          refine ⟨front, inner ++ [token], by simp, defines, by simpa using entry, ?_⟩
          simpa using within.append (.quiet step .nil)

/-- What is found over some tokens stands before every offset behind them. -/
theorem Steps.spans_before {limit : Nat} (chain : Steps reading reader tokens found last)
    (within : ∀ token ∈ tokens, token ∈ Token.scan reading.source) (bounded : ∀ token ∈ tokens, token.stop ≤ limit)
    (named : ∀ heading ∈ reader.heading?, heading.name.stop ≤ limit) :
    ∀ signature ∈ found, ∀ span ∈ signature.spans, span.stop ≤ limit := by
  induction chain with
  | nil => simp
  | @cons reader next last token tokens signature found stepped later ih =>
      obtain ⟨here, within⟩ := List.forall_mem_cons.mp within
      obtain ⟨ends, bounded⟩ := List.forall_mem_cons.mp bounded
      cases signature with
      | none =>
          refine ih within bounded fun heading stands => ?_
          cases step_move stepped with
          | pass | define => cases stands
          | name =>
              cases stands
              exact ends
          | stay before after => exact named heading (before.trans (after.symm.trans stands))
      | some signature =>
          obtain ⟨heading, params, docstring, rfl, closed, rfl, opens⟩ := step_found stepped
          refine List.forall_mem_cons.mpr ⟨List.forall_mem_cons.mpr ⟨?_, ?_⟩, ih within bounded (by simp [closed])⟩
          · exact Int.ofNat_le.mpr (named heading rfl)
          · intro span member
            have bounds := (opens span (Option.mem_toList.mp member)).bounds here
            exact Int.le_trans bounds.2.2 (Int.ofNat_le.mpr ends)

/-- The place of an error that halts a reader: a token, or the end of a source that ends too early. -/
structure HaltsAt (reading : Reading) (rest : List Token) (error : ScanError) (offset : Nat) : Prop where
  place : error.offset? = some offset
  ends : error.isEnd = true → rest = [] ∧ offset = reading.source.length
  fits : error.isEnd = false → ∃ token after, rest = token :: after ∧ offset = token.start

theorem haltsAt_of_halt? (halts : reader.halt? reading rest = some error) :
    ∃ offset define, HaltsAt reading rest error offset ∧ reader.define? = some define := by
  cases rest with
  | nil =>
      obtain ⟨place, ends, header⟩ := ended_error halts
      obtain ⟨define, stands⟩ := Option.ne_none_iff_exists'.mp header
      exact ⟨_, define, ⟨place, fun _ => ⟨rfl, rfl⟩, by simp [ends]⟩, stands⟩
  | cons token after =>
      cases stepped : reader.step reading token with
      | ok result => simp [halt?, stepped] at halts
      | error own =>
          obtain rfl : own = error := by simpa [halt?, stepped] using halts
          obtain ⟨place, early, header⟩ := step_error stepped
          obtain ⟨define, stands⟩ := Option.ne_none_iff_exists'.mp header
          exact ⟨_, define, ⟨place, by simp [early], fun _ => ⟨token, after, rfl, rfl⟩⟩, stands⟩

/-- Tokens that are read stand before the place at which the reader halts. -/
theorem HaltsAt.behind {offset : Nat} (halts : HaltsAt reading rest error offset)
    (whole : Token.scan reading.source = tokens ++ rest) :
    offset ≤ reading.source.length ∧ ∀ token ∈ tokens, token.stop ≤ offset := by
  have cuts := Token.scan_cuts reading.source
  cases early : error.isEnd with
  | true =>
      obtain ⟨_, rfl⟩ := halts.ends early
      refine ⟨Nat.le_refl _, fun token member => ?_⟩
      have bounds := cuts.bounds (show token ∈ Token.scan reading.source by simp [whole, member])
      omega
  | false =>
      obtain ⟨next, after, rfl, rfl⟩ := halts.fits early
      have bounds := cuts.bounds (show next ∈ Token.scan reading.source by simp [whole])
      have apart := cuts.apart
      rw [whole] at apart
      refine ⟨by omega, fun token member => ?_⟩
      exact ((List.pairwise_append.mp apart).2.2 token member next List.mem_cons_self).2

end Reader

theorem extract_error_offset (reading : Reading) {error : ScanError}
    (broken : reading.extract.fault = some (.scan error)) :
    ∃ offset : Nat, error.offset? = some offset ∧ offset ≤ reading.source.length := by
  obtain ⟨read, rest, last, whole, _, halts⟩ := Reader.steps_of_fault broken
  obtain ⟨offset, _, place, _⟩ := Reader.haltsAt_of_halt? halts
  exact ⟨offset, place.place, (place.behind whole).1⟩

end DocDrift
