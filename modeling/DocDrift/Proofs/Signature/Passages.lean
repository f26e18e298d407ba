import Mathlib.Data.List.Induction
import DocDrift.Proofs.Signature.Concatenation

namespace DocDrift

/-! # Every defining word is accounted for

A run cuts the tokens of a text into the passages of its headers, each from the defining word to the
colon that ends the header, and into tokens between them, none of which defines a function.  Each
passage gives one signature, so no function is lost and none is made up.
-/

/-- The tokens of a header from its defining word to the colon that ends it. -/
structure Passage where
  heading : Heading
  inner : List Token
  colon : Token
  deriving DecidableEq, Repr

namespace Passage

def opening (passage : Passage) : List Token :=
  passage.heading.define :: passage.heading.name :: passage.inner

def tokens (passage : Passage) : List Token := passage.opening ++ [passage.colon]

/-- The reader comes to the colon with the parameter list read and outside all brackets, after the
tokens in front of the passage, which gave the signatures that are found by then. -/
structure IsRead (reading : Reading) (front : List Token) (found : List Signature)
    (params : List Parameter) (passage : Passage) : Prop where
  defines : passage.heading.define.kind = .define
  named : passage.heading.name.kind = .text
  ends : passage.colon.kind = .colon
  reached : Reader.Steps reading .outside (front ++ passage.opening) found
    (.closing passage.heading params 0)

end Passage

/-- Tokens made up of passages and of tokens that define nothing, with the signatures that the
passages give. -/
inductive Laid (reading : Reading) : List Token → List Passage → List Signature → Prop where
  | nil : Laid reading [] [] []
  | other {tokens : List Token} {passages : List Passage} {found : List Signature} {token : Token}
      (laid : Laid reading tokens passages found) (plain : token.kind ≠ .define) :
      Laid reading (tokens ++ [token]) passages found
  | passage {tokens : List Token} {passages : List Passage} {found : List Signature}
      {passage : Passage} {params : List Parameter} (docstring : Option Span)
      (laid : Laid reading tokens passages found) (read : passage.IsRead reading tokens found params) :
      Laid reading (tokens ++ passage.tokens) (passages ++ [passage])
        (found ++ [reading.signature passage.heading params docstring])

theorem Laid.others {reading : Reading} {tokens gap : List Token} {passages : List Passage}
    {found : List Signature} (laid : Laid reading tokens passages found)
    (plain : ∀ token ∈ gap, token.kind ≠ .define) : Laid reading (tokens ++ gap) passages found := by
  induction gap generalizing tokens with
  | nil => simpa using laid
  | cons token gap ih =>
      obtain ⟨first, rest⟩ := List.forall_mem_cons.mp plain
      have later := ih (laid.other first) rest
      rwa [List.append_assoc, List.singleton_append] at later

namespace Reader

variable {reading : Reading} {reader next last : Reader} {token : Token} {tokens before : List Token}
  {found signatures : List Signature} {signature : Option Signature}

theorem step_of_body {heading : Heading} {params : List Parameter}
    (stepped : (body heading params).step reading token = .ok (next, none)) :
    next = body heading params ∧ token.kind ≠ .define := by
  simp only [step] at stepped
  split at stepped
  · split at stepped
    · split at stepped <;> cases stepped
    · cases stepped
  · cases stepped
  · rename_i notDefine
    cases stepped
    exact ⟨rfl, notDefine⟩

/-- A header ends at a colon outside all brackets, and nowhere else. -/
theorem step_to_body {heading : Heading} {params : List Parameter}
    (stepped : reader.step reading token = .ok (body heading params, none)) :
    reader = closing heading params 0 ∧ token.kind = .colon ∨
      reader = body heading params ∧ token.kind ≠ .define := by
  cases reader with
  | outside => by_cases defines : token.kind = .define <;> simp [step, defines] at stepped
  | defining define => by_cases named : token.kind = .text <;> simp [step, named] at stepped
  | unopened heading => by_cases opens : token.kind = .opening .round <;> simp [step, opens] at stepped
  | entries heading params =>
      simp only [step] at stepped
      split at stepped <;> cases stepped
  | named heading params name =>
      simp only [step] at stepped
      split at stepped <;> cases stepped
  | inside heading params name type part start depth =>
      simp only [step, stepInside] at stepped
      repeat' split at stepped
      all_goals cases stepped
  | closing heading params depth =>
      simp only [step] at stepped
      split at stepped
      · cases stepped
      · cases stepped
      · rename_i colon
        split at stepped
        · rename_i flat
          cases stepped
          exact .inl ⟨by rw [flat], colon⟩
        · cases stepped
      · cases stepped
  | body heading params =>
      obtain ⟨same, plain⟩ := step_of_body stepped
      exact .inr ⟨same.symm, plain⟩

theorem Steps.quiet (first : reader.step reading token = .ok (next, none))
    (later : Steps reading next tokens signatures last) :
    Steps reading reader (token :: tokens) signatures last :=
  .cons first later

theorem Steps.defined {define : Token}
    (chain : Steps reading .outside tokens found (.defining define)) :
    ∃ front, tokens = front ++ [define] ∧ define.kind = .define := by
  cases tokens using List.reverseRecOn with
  | nil => cases chain
  | append_singleton front token =>
      obtain ⟨middle, earlier, signature, before, step, _⟩ := chain.split_last
      cases step_move step with
      | define defines => exact ⟨front, rfl, defines⟩
      | nested defines => exact ⟨front, rfl, defines⟩
      | stay _ after => contradiction

/-- A reader that stands in a header has come to it by its defining word and its name, and has found
nothing since. -/
theorem Steps.entered {heading : Heading} (chain : Steps reading .outside tokens found reader)
    (standing : reader.heading? = some heading) :
    ∃ front inner, tokens = front ++ heading.define :: heading.name :: inner ∧
      heading.define.kind = .define ∧ heading.name.kind = .text ∧
      Steps reading .outside (front ++ [heading.define, heading.name]) found (.unopened heading) ∧
      Steps reading (.unopened heading) inner [] reader := by
  induction tokens using List.reverseRecOn generalizing reader found with
  | nil =>
      cases chain
      contradiction
  | append_singleton tokens token ih =>
      obtain ⟨middle, earlier, signature, before, step, rfl⟩ := chain.split_last
      cases step_move step with
      | name named =>
          cases standing
          obtain ⟨front, rfl, defines⟩ := before.defined
          refine ⟨front, [], by simp, defines, named, ?_, .nil⟩
          simpa using chain
      | @stay _ _ same earlier after =>
          obtain rfl : same = heading := Option.some.inj (after.symm.trans standing)
          obtain ⟨front, inner, rfl, defines, named, entry, within⟩ := ih before earlier
          refine ⟨front, inner ++ [token], by simp, defines, named, by simpa using entry, ?_⟩
          simpa using within.append (.quiet step .nil)
      | pass | define | complete | nested => contradiction

theorem Steps.ended {heading : Heading} {params : List Parameter} {inner : List Token}
    (chain : Steps reading (.unopened heading) inner [] (.body heading params)) :
    ∃ opening colon gap, inner = opening ++ colon :: gap ∧ colon.kind = .colon ∧
      Steps reading (.unopened heading) opening [] (.closing heading params 0) := by
  induction inner using List.reverseRecOn with
  | nil => cases chain
  | append_singleton tokens token ih =>
      obtain ⟨middle, earlier, found, before, step, nothing⟩ := chain.split_last
      obtain ⟨rfl, none⟩ := List.append_eq_nil_iff.mp nothing.symm
      obtain rfl := Option.toList_eq_nil_iff.mp none
      rcases step_to_body step with ⟨rfl, colon⟩ | ⟨rfl, _⟩
      · exact ⟨tokens, token, [], rfl, colon, before⟩
      · obtain ⟨opening, colon, gap, rfl, ends, within⟩ := ih before
        exact ⟨opening, colon, gap ++ [token], by simp, ends, within⟩

theorem not_text_of_body {heading : Heading} {params : List Parameter}
    (stepped : (body heading params).step reading token = .ok (next, none)) : token.kind ≠ .text := by
  intro text
  simp only [step, text] at stepped
  split at stepped
  · split at stepped <;> cases stepped
  · cases stepped

/-- Before a body stands the passage of its header, and behind the colon nothing that tells whether the
body opens with a docstring. -/
theorem Steps.passage {heading : Heading} {params : List Parameter}
    (chain : Steps reading .outside tokens found (.body heading params)) :
    ∃ (passage : Passage) (front gap : List Token), passage.heading = heading ∧
      tokens = front ++ passage.tokens ++ gap ∧ passage.IsRead reading front found params ∧
      ∀ token ∈ gap, token.kind ≠ .define ∧ token.kind ≠ .text := by
  induction tokens using List.reverseRecOn generalizing found with
  | nil => cases chain
  | append_singleton tokens token ih =>
      obtain ⟨middle, earlier, signature, before, stepped, rfl⟩ := chain.split_last
      obtain rfl : signature = none := by
        cases step_move stepped
        rfl
      rcases step_to_body stepped with ⟨rfl, colon⟩ | ⟨rfl, plain⟩
      · obtain ⟨front, inner, rfl, defines, named, _, _⟩ := before.entered rfl
        have read : Passage.IsRead reading front earlier params ⟨heading, inner, token⟩ :=
          ⟨defines, named, colon, before⟩
        refine ⟨⟨heading, inner, token⟩, front, [], rfl, ?_, by simpa using read, by simp⟩
        simp [Passage.tokens, Passage.opening]
      · obtain ⟨passage, front, gap, same, rfl, read, others⟩ := ih before
        refine ⟨passage, front, gap ++ [token], same, by simp, by simpa using read, ?_⟩
        intro other member
        rcases List.mem_append.mp member with inGap | last
        · exact others other inGap
        · obtain rfl := List.mem_singleton.mp last
          exact ⟨plain, not_text_of_body stepped⟩

theorem steps_gap (heading : Heading) (params : List Parameter) {gap : List Token}
    (plain : ∀ token ∈ gap, token.kind ≠ .define ∧ token.kind ≠ .text) :
    Steps reading (body heading params) gap [] (body heading params) := by
  induction gap with
  | nil => exact .nil
  | cons token gap ih =>
      obtain ⟨⟨notDefine, notText⟩, later⟩ := List.forall_mem_cons.mp plain
      exact .quiet (by simp only [step]) (ih later)

/-- A header that is read to its colon is followed by its body. -/
theorem steps_of_isRead {passage : Passage} {front gap : List Token} {params : List Parameter}
    (read : passage.IsRead reading front found params)
    (plain : ∀ token ∈ gap, token.kind ≠ .define ∧ token.kind ≠ .text) :
    Steps reading .outside (front ++ passage.tokens ++ gap) found (.body passage.heading params) := by
  have ends : (closing passage.heading params 0).step reading passage.colon =
      .ok (body passage.heading params, none) := by
    simp [step, read.ends]
  have whole := read.reached.append (.quiet ends (steps_gap passage.heading params plain))
  simpa [Passage.tokens] using whole

/-- What the tokens before a state have come to: passages with their signatures, and the passage that
the reader stands in. -/
inductive Accounted (reading : Reading) (before : List Token) (found : List Signature) : Reader → Prop where
  | outside {passages : List Passage} (laid : Laid reading before passages found) :
      Accounted reading before found outside
  | defining {front : List Token} {passages : List Passage} {define : Token}
      (laid : Laid reading front passages found) (split : before = front ++ [define])
      (defines : define.kind = .define) : Accounted reading before found (defining define)
  | header {reader : Reader} {front inner : List Token} {passages : List Passage} {heading : Heading}
      (laid : Laid reading front passages found)
      (split : before = front ++ heading.define :: heading.name :: inner)
      (defines : heading.define.kind = .define) (named : heading.name.kind = .text)
      (stands : reader.heading? = some heading) (notBody : ∀ params, reader ≠ body heading params) :
      Accounted reading before found reader
  | body {front gap : List Token} {passages : List Passage} {passage : Passage}
      {params : List Parameter} (laid : Laid reading front passages found)
      (read : passage.IsRead reading front found params)
      (split : before = front ++ passage.tokens ++ gap) (plain : ∀ token ∈ gap, token.kind ≠ .define) :
      Accounted reading before found (body passage.heading params)

theorem Accounted.step (accounted : Accounted reading before found reader)
    (chain : Steps reading .outside before found reader)
    (stepped : reader.step reading token = .ok (next, signature)) :
    Accounted reading (before ++ [token]) (found ++ signature.toList) next := by
  cases accounted with
  | outside laid =>
      cases step_move stepped with
      | pass other => simpa using Accounted.outside (laid.other other)
      | define defines => simpa using Accounted.defining laid rfl defines
      | stay before => contradiction
  | @defining front _ define laid split defines =>
      cases step_move stepped with
      | name named =>
          subst split
          rw [List.append_assoc, Option.toList_none, List.append_nil]
          exact .header laid rfl defines named rfl (by simp)
      | stay before => contradiction
  | @header _ front inner _ heading laid split defines named stands notBody =>
      subst split
      cases step_move stepped with
      | pass => contradiction
      | define => contradiction
      | name => contradiction
      | @complete _ params =>
          cases stands
          exact absurd rfl (notBody params)
      | @nested _ params =>
          cases stands
          exact absurd rfl (notBody params)
      | @stay _ _ same earlier after =>
          obtain rfl : same = heading := Option.some.inj (earlier.symm.trans stands)
          by_cases ends : ∃ params, next = .body same params
          · -- The header ends here, so the token is its colon.
            obtain ⟨params, rfl⟩ := ends
            obtain ⟨rfl, colon⟩ | ⟨inBody, _⟩ := step_to_body stepped
            · have read : Passage.IsRead reading front found params ⟨same, inner, token⟩ :=
                ⟨defines, named, colon, chain⟩
              have split : front ++ same.define :: same.name :: inner ++ [token] =
                  front ++ Passage.tokens ⟨same, inner, token⟩ ++ [] := by
                simp [Passage.tokens, Passage.opening]
              simpa using Accounted.body laid read split (by simp)
            · exact absurd inBody (notBody params)
          · have split : front ++ same.define :: same.name :: inner ++ [token] =
                front ++ same.define :: same.name :: (inner ++ [token]) := by simp
            simpa using Accounted.header laid split defines named after fun params body => ends ⟨params, body⟩
  | @body front gap _ passage params laid read split plain =>
      subst split
      have whole : ∀ docstring, Laid reading (front ++ passage.tokens ++ gap) _ _ := fun docstring =>
        (laid.passage docstring read).others plain
      cases step_move stepped with
      | @complete _ _ docstring text =>
          exact .outside ((whole docstring).other (by simp [text]))
      | nested defines => exact .defining (whole none) rfl defines
      | @stay _ _ heading earlier after =>
          obtain ⟨rfl, other⟩ := step_of_body stepped
          have longer : ∀ token' ∈ gap ++ [token], token'.kind ≠ .define := by
            simpa [or_imp, forall_and] using ⟨plain, other⟩
          simpa using Accounted.body laid read (by simp) longer

theorem Steps.accounted (chain : Steps reading reader tokens signatures last)
    (earlier : Steps reading .outside before found reader)
    (accounted : Accounted reading before found reader) :
    Accounted reading (before ++ tokens) (found ++ signatures) last := by
  induction chain generalizing before found with
  | nil => simpa using accounted
  | @cons reader next last token tokens signature signatures first later ih =>
      have one : Steps reading reader [token] signature.toList next := by
        simpa using Steps.cons first .nil
      have rest := ih (earlier.append one) (accounted.step earlier first)
      simpa only [List.append_assoc, List.singleton_append] using rest

theorem laid_of_run (finished : (run reading outside tokens).fault = none) :
    ∃ passages, Laid reading tokens passages (run reading outside tokens).signatures := by
  have accounted := (steps_of_run finished).accounted .nil (.outside .nil)
  cases accounted with
  | outside laid => exact ⟨_, laid⟩
  | header _ _ _ _ stands => contradiction

end Reader

namespace Laid

variable {reading : Reading} {tokens : List Token} {passages : List Passage} {found : List Signature}

theorem nameSpans (laid : Laid reading tokens passages found) :
    found.map (·.nameSpan) =
      passages.map fun passage => ⟨passage.heading.name.start, passage.heading.name.stop⟩ := by
  induction laid with
  | nil => rfl
  | other _ _ ih => exact ih
  | passage _ _ _ ih =>
      rw [List.map_append, List.map_append, ih]
      rfl

theorem lines (laid : Laid reading tokens passages found) :
    found.map (·.line) = passages.map fun passage =>
      ((LineIndex.ofText reading.source).lineOf passage.heading.define.start : Int) := by
  induction laid with
  | nil => rfl
  | other _ _ ih => exact ih
  | passage _ _ _ ih =>
      rw [List.map_append, List.map_append, ih]
      rfl

/-- Each passage stands in the tokens and was read from where they begin.  The tokens behind it
define nothing up to the next passage or to the end. -/
theorem split (laid : Laid reading tokens passages found) {passage : Passage} (member : passage ∈ passages) :
    ∃ front gap back earlier params, tokens = front ++ passage.tokens ++ (gap ++ back) ∧
      passage.IsRead reading front earlier params ∧ (∀ token ∈ gap, token.kind ≠ .define) ∧
      (back = [] ∨ ∃ next ∈ passages, next.tokens <+: back) := by
  induction laid with
  | nil => contradiction
  | @other _ _ _ token laid other ih =>
      obtain ⟨front, gap, back, earlier, params, rfl, isRead, plain, ends | ⟨next, present, starts⟩⟩ := ih member
      · refine ⟨front, gap ++ [token], [], earlier, params, by simp [ends], isRead, ?_, .inl rfl⟩
        simpa [or_imp, forall_and] using ⟨plain, other⟩
      · exact ⟨front, gap, back ++ [token], earlier, params, by simp, isRead, plain,
          .inr ⟨next, present, starts.trans (List.prefix_append back _)⟩⟩
  | @passage tokens _ found own params docstring laid read ih =>
      rcases List.mem_append.mp member with before | last
      · obtain ⟨front, gap, back, earlier, params, rfl, isRead, plain, follows⟩ := ih before
        refine ⟨front, gap, back ++ own.tokens, earlier, params, by simp, isRead, plain, .inr ?_⟩
        rcases follows with rfl | ⟨next, present, starts⟩
        · exact ⟨own, by simp, List.prefix_refl own.tokens⟩
        · exact ⟨next, List.mem_append_left _ present, starts.trans (List.prefix_append back _)⟩
      · obtain rfl := List.mem_singleton.mp last
        exact ⟨tokens, [], [], found, params, by simp, read, by simp, .inl rfl⟩

theorem defined (laid : Laid reading tokens passages found) {token : Token} (member : token ∈ tokens)
    (defines : token.kind = .define) :
    ∃ passage ∈ passages, token = passage.heading.define ∨ token ∈ passage.inner := by
  induction laid with
  | nil => contradiction
  | other _ plain ih =>
      rcases List.mem_append.mp member with before | last
      · exact ih before
      · obtain rfl := List.mem_singleton.mp last
        contradiction
  | @passage _ passages _ own params docstring laid read ih =>
      rcases List.mem_append.mp member with before | here
      · obtain ⟨passage, earlier, place⟩ := ih before
        exact ⟨passage, List.mem_append_left _ earlier, place⟩
      · refine ⟨own, by simp, ?_⟩
        simp only [Passage.tokens, Passage.opening, List.cons_append, List.mem_cons, List.mem_append,
          List.not_mem_nil, or_false] at here
        rcases here with first | name | inner | colon
        · exact .inl first
        · rw [name, read.named] at defines
          contradiction
        · exact .inr inner
        · rw [colon, read.ends] at defines
          contradiction

theorem ordered (laid : Laid reading tokens passages found)
    (apart : tokens.Pairwise fun earlier later => earlier.start < later.start ∧ earlier.stop ≤ later.start) :
    passages.Pairwise fun earlier later => earlier.heading.define.start < later.heading.define.start ∧
      earlier.colon.stop ≤ later.heading.define.start := by
  induction laid with
  | nil => exact .nil
  | other _ _ ih => exact ih (List.pairwise_append.mp apart).1
  | @passage tokens passages found own params docstring laid read ih =>
      obtain ⟨before, _, across⟩ := List.pairwise_append.mp apart
      refine List.pairwise_append.mpr ⟨ih before, List.pairwise_singleton _ _, ?_⟩
      intro earlier member later last
      obtain rfl := List.mem_singleton.mp last
      obtain ⟨front, gap, back, _, _, rfl, _⟩ := laid.split member
      have first : later.heading.define ∈ later.tokens := by simp [Passage.tokens, Passage.opening]
      have define : earlier.heading.define ∈ front ++ earlier.tokens ++ (gap ++ back) := by
        simp [Passage.tokens, Passage.opening]
      have colon : earlier.colon ∈ front ++ earlier.tokens ++ (gap ++ back) := by simp [Passage.tokens]
      exact ⟨(across _ define _ first).1, (across _ colon _ first).2⟩

end Laid

theorem Passage.inner_between {passage : Passage} {front back : List Token} {token : Token}
    (apart : (front ++ passage.tokens ++ back).Pairwise fun earlier later =>
      earlier.start < later.start ∧ earlier.stop ≤ later.start) (member : token ∈ passage.inner) :
    passage.heading.name.stop ≤ token.start ∧ token.stop ≤ passage.colon.start := by
  have own := (List.pairwise_append.mp (List.pairwise_append.mp apart).1).2.1
  obtain ⟨opening, _, across⟩ := List.pairwise_append.mp own
  have inside : token ∈ passage.opening := by simp [Passage.opening, member]
  have named := (List.pairwise_cons.mp (List.pairwise_cons.mp opening).2).1 token member
  exact ⟨named.2, (across token inside _ List.mem_cons_self).2⟩

/-- Where a scan meets no fault, its signatures come one by one from defining words, in order: each
has the name that follows its word and the line of the word.  Every other defining word stands
between the name of a signature and the colon at which the reader left that signature's header, and
behind a colon the next defining word begins the next header. -/
theorem extract_passages (reading : Reading) (finished : reading.extract.fault = none) :
    ∃ passages : List Passage,
      reading.extract.signatures.map (·.nameSpan) =
          passages.map (fun passage => ⟨passage.heading.name.start, passage.heading.name.stop⟩) ∧
        reading.extract.signatures.map (·.line) = passages.map (fun passage =>
          ((LineIndex.ofText reading.source).lineOf passage.heading.define.start : Int)) ∧
        (passages.Pairwise fun earlier later =>
          earlier.heading.define.start < later.heading.define.start ∧
            earlier.colon.stop ≤ later.heading.define.start) ∧
        (∀ passage ∈ passages, ∃ front gap back found params,
          Token.scan reading.source = front ++ passage.tokens ++ (gap ++ back) ∧
            passage.IsRead reading front found params ∧ (∀ token ∈ gap, token.kind ≠ .define) ∧
            (back = [] ∨ ∃ next ∈ passages, next.tokens <+: back)) ∧
        ∀ token ∈ Token.scan reading.source, token.kind = .define →
          ∃ passage ∈ passages, token = passage.heading.define ∨
            passage.heading.name.stop ≤ token.start ∧ token.stop ≤ passage.colon.start := by
  obtain ⟨passages, laid⟩ := Reader.laid_of_run finished
  have apart := (Token.scan_cuts reading.source).apart
  refine ⟨passages, laid.nameSpans, laid.lines, laid.ordered apart, fun _ => laid.split, ?_⟩
  intro token member defines
  obtain ⟨passage, present, own | inner⟩ := laid.defined member defines
  · exact ⟨passage, present, .inl own⟩
  · obtain ⟨front, gap, back, _, _, whole, _⟩ := laid.split present
    rw [whole] at apart
    exact ⟨passage, present, .inr (passage.inner_between apart inner)⟩

/-- A header with the defining word inside, and a function that opens the body of another. -/
theorem extract_passages_nested :
    let reading : Reading := ⟨"def f(a=def):\n def g(): 0\n".toList, true⟩
    reading.extract.fault = none ∧ ∃ passages : List Passage,
      passages.map (fun passage => passage.heading.name.start) = [4, 19] ∧
        ∃ passage ∈ passages, (⟨.define, 8, ['d', 'e', 'f']⟩ : Token) = passage.heading.define ∨
          passage.heading.name.stop ≤ 8 ∧ 11 ≤ passage.colon.start := by
  intro reading
  have finished : reading.extract.fault = none := by decide
  obtain ⟨passages, names, _, _, _, covered⟩ := extract_passages reading finished
  have spans : reading.extract.signatures.map (·.nameSpan) = [⟨4, 5⟩, ⟨19, 20⟩] := by decide
  refine ⟨finished, passages, ?_, covered _ (by decide) rfl⟩
  rw [spans] at names
  have starts := congrArg (List.map fun span : Span => span.start.toNat) names
  simpa [Function.comp_def] using starts.symm

end DocDrift
