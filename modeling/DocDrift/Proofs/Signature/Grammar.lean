import DocDrift.Proofs.Signature.Bodies
import DocDrift.Proofs.Signature.ParameterList

namespace DocDrift

/-! # The grammar of a source

A scan that comes to its end has read the tokens as functions with other tokens between them.  A function
is a header, with its parameter list and the annotation of its result, and a body, which is read up to the
first token that tells whether it opens with a docstring.
-/

/-- The annotation of a result, from the end of the parameter list to the colon.  All kinds of brackets
count alike, and `level` of them are open in front of it. -/
structure Token.IsResult (level : Int) (result : List Token) : Prop where
  flat : level + surplus result = 0
  unended : ∀ front token, front ++ [token] <+: result → level + surplus front = 0 → token.kind ≠ .colon

/-- A header that declares the listed parameters.  What stands between the name and the list does not
matter. -/
structure Passage.IsHeader (reading : Reading) (listed : List Parameter) (passage : Passage) : Prop where
  defines : passage.heading.define.kind = .define
  named : passage.heading.name.kind = .text
  inner : ∃ lead opening list result, passage.inner = lead ++ opening :: (list ++ result) ∧
    (∀ token ∈ lead, token.kind ≠ .opening .round) ∧ opening.kind = .opening .round ∧
    reading.Lists list listed ∧ Token.IsResult 0 result
  ends : passage.colon.kind = .colon

namespace Reading

/-- What the tokens behind a header show of its docstring, and the tokens that are left then. -/
inductive Documents (reading : Reading) : List Token → Option Span → List Token → Prop where
  | other {token : Token} {body rest : List Token} {docstring : Option Span}
      (notText : token.kind ≠ .text) (notDefine : token.kind ≠ .define)
      (later : Documents reading body docstring rest) : Documents reading (token :: body) docstring rest
  | nested {define : Token} {rest : List Token} (defines : define.kind = .define) :
      Documents reading (define :: rest) none (define :: rest)
  | plain {token : Token} {rest : List Token} (text : token.kind = .text)
      (plain : opensDocstring token = false) : Documents reading (token :: rest) none rest
  | docstring {token : Token} {rest : List Token} {span : Span} (text : token.kind = .text)
      (opens : opensDocstring token = true)
      (located : Docstring.locate reading.source token.start none = some span) :
      Documents reading (token :: rest) (some span) rest

/-- Functions with other tokens between them, and the signatures of the functions. -/
inductive Functions (reading : Reading) : List Token → List Signature → Prop where
  | nil : Functions reading [] []
  | other {token : Token} {tokens : List Token} {found : List Signature} (plain : token.kind ≠ .define)
      (later : Functions reading tokens found) : Functions reading (token :: tokens) found
  | function {passage : Passage} {listed : List Parameter} {body rest : List Token}
      {docstring : Option Span} {found : List Signature} (header : passage.IsHeader reading listed)
      (documents : reading.Documents body docstring rest) (later : Functions reading rest found) :
      Functions reading (passage.tokens ++ body)
        (reading.signature passage.heading (reading.kept listed) docstring :: found)

end Reading

namespace Token

variable {level : Int} {token : Token} {result : List Token}

theorem surplus_cons (token : Token) (tokens : List Token) :
    surplus (token :: tokens) = surplus [token] + surplus tokens := by
  rw [← List.singleton_append]
  simp only [surplus, openings_append, closings_append]
  omega

theorem isResult_nil : IsResult level [] ↔ level = 0 := by
  constructor
  · intro result
    simpa [surplus, openings, closings] using result.flat
  · rintro rfl
    exact ⟨rfl, fun front token inside => by simp at inside⟩

theorem isResult_cons : IsResult level (token :: result) ↔
    (level = 0 → token.kind ≠ .colon) ∧ IsResult (level + surplus [token]) result := by
  constructor
  · intro whole
    have flat := whole.flat
    refine ⟨fun zero => whole.unended [] token ⟨result, rfl⟩ (by rw [zero]; rfl), ?_, ?_⟩
    · rw [surplus_cons] at flat
      omega
    · intro front other inside here
      refine whole.unended (token :: front) other (List.cons_prefix_cons.mpr ⟨rfl, inside⟩) ?_
      rw [surplus_cons]
      omega
  · rintro ⟨first, rest⟩
    refine ⟨?_, ?_⟩
    · rw [surplus_cons, ← Int.add_assoc]
      exact rest.flat
    · intro front other inside here
      cases front with
      | nil =>
          obtain ⟨rfl, _⟩ := List.cons_prefix_cons.mp inside
          exact first (by simpa [surplus, openings, closings] using here)
      | cons head front =>
          obtain ⟨rfl, within⟩ := List.cons_prefix_cons.mp inside
          refine rest.unended front other within ?_
          rw [surplus_cons] at here
          omega

end Token

namespace Reader

variable {reading : Reading} {reader next : Reader} {heading : Heading} {params listed : List Parameter}
  {level : Int} {token : Token} {tokens lead result rest : List Token} {passage : Passage}
  {docstring : Option Span} {found : List Signature}

theorem run_next (stepped : reader.step reading token = .ok (next, none)) (tokens : List Token) :
    run reading reader (token :: tokens) = run reading next tokens := by
  rw [run, stepped]
  rfl

/-! ## Headers -/

theorem step_lead (other : token.kind ≠ .opening .round) :
    (unopened heading).step reading token = .ok (unopened heading, none) := by
  rw [step, if_neg other]

theorem step_list (opens : token.kind = .opening .round) :
    (unopened heading).step reading token = .ok (entries heading [], none) := by
  rw [step, if_pos opens]

theorem run_lead (plain : ∀ token ∈ lead, token.kind ≠ .opening .round) (rest : List Token) :
    run reading (unopened heading) (lead ++ rest) = run reading (unopened heading) rest := by
  induction lead with
  | nil => rfl
  | cons token lead ih =>
      obtain ⟨first, others⟩ := List.forall_mem_cons.mp plain
      rw [List.cons_append, run_next (step_lead first)]
      exact ih others

theorem lead_of_run (finished : (run reading (unopened heading) tokens).fault = none) :
    ∃ lead opening rest, tokens = lead ++ opening :: rest ∧
      (∀ token ∈ lead, token.kind ≠ .opening .round) ∧ opening.kind = .opening .round := by
  induction tokens with
  | nil => contradiction
  | cons token tokens ih =>
      by_cases opens : token.kind = .opening .round
      · exact ⟨[], token, tokens, rfl, by simp, opens⟩
      · rw [run_next (step_lead opens)] at finished
        obtain ⟨lead, opening, rest, rfl, plain, last⟩ := ih finished
        exact ⟨token :: lead, opening, rest, rfl, List.forall_mem_cons.mpr ⟨opens, plain⟩, last⟩

theorem run_result {colon : Token} (ends : colon.kind = .colon) (read : Token.IsResult level result)
    (rest : List Token) :
    run reading (closing heading params level) (result ++ colon :: rest) =
      run reading (body heading params) rest := by
  induction result generalizing level with
  | nil =>
      have flat := Token.isResult_nil.mp read
      have closes := step_result reading heading params level colon
      rw [if_pos ⟨flat, ends⟩] at closes
      exact run_next closes rest
  | cons token result ih =>
      obtain ⟨unended, later⟩ := Token.isResult_cons.mp read
      have stays := step_result reading heading params level token
      rw [if_neg fun ⟨flat, colon⟩ => unended flat colon] at stays
      rw [List.cons_append, run_next stays]
      exact ih later

theorem result_of_run (finished : (run reading (closing heading params level) tokens).fault = none) :
    ∃ result colon rest, tokens = result ++ colon :: rest ∧ Token.IsResult level result ∧
      colon.kind = .colon := by
  induction tokens generalizing level with
  | nil => contradiction
  | cons token tokens ih =>
      by_cases ends : level = 0 ∧ token.kind = .colon
      · exact ⟨[], token, tokens, rfl, Token.isResult_nil.mpr ends.1, ends.2⟩
      · have stays := step_result reading heading params level token
        rw [if_neg ends] at stays
        rw [run_next stays] at finished
        obtain ⟨result, colon, rest, rfl, read, closes⟩ := ih finished
        have unended : level = 0 → token.kind ≠ .colon := fun flat colon => ends ⟨flat, colon⟩
        exact ⟨token :: result, colon, rest, rfl, Token.isResult_cons.mpr ⟨unended, read⟩, closes⟩

theorem step_define (defines : token.kind = .define) :
    outside.step reading token = .ok (defining token, none) := by
  rw [step, if_pos defines]

theorem step_naming {define : Token} (named : token.kind = .text) :
    (defining define).step reading token = .ok (unopened ⟨define, token⟩, none) := by
  rw [step, if_pos named]

/-- A header is read to its colon, and nothing is found on the way. -/
theorem run_header (header : passage.IsHeader reading listed) (more : List Token) :
    run reading outside (passage.tokens ++ more) =
      run reading (body passage.heading (reading.kept listed)) more := by
  obtain ⟨lead, opening, list, result, inner, plain, opens, lists, read⟩ := header.inner
  have split : passage.tokens ++ more = passage.heading.define :: passage.heading.name ::
      (lead ++ opening :: (list ++ (result ++ passage.colon :: more))) := by
    simp [Passage.tokens, Passage.opening, inner]
  have listRead := @readList_lists reading passage.heading _ _ lists [] (result ++ passage.colon :: more)
  calc run reading outside (passage.tokens ++ more)
      = run reading (unopened passage.heading)
          (lead ++ opening :: (list ++ (result ++ passage.colon :: more))) := by
        rw [split, run_next (step_define header.defines), run_next (step_naming header.named)]
    _ = run reading (entries passage.heading []) (list ++ (result ++ passage.colon :: more)) := by
        rw [run_lead plain, run_next (step_list opens)]
    _ = run reading (closing passage.heading (reading.kept listed) 0)
          (result ++ passage.colon :: more) := by
        rw [@run_eq_readList reading _ passage.heading ⟨1, 0, 0⟩ _ rfl rfl, listRead]
        rfl
    _ = run reading (body passage.heading (reading.kept listed)) more := run_result header.ends read more

theorem header_of_run {define : Token} (defines : define.kind = .define)
    (finished : (run reading (defining define) tokens).fault = none) :
    ∃ passage listed more, define :: tokens = passage.tokens ++ more ∧
      Passage.IsHeader reading listed passage := by
  cases tokens with
  | nil => contradiction
  | cons name tokens =>
      by_cases named : name.kind = .text
      · rw [run_next (step_naming named)] at finished
        obtain ⟨lead, opening, inner, rfl, plain, opens⟩ := lead_of_run finished
        rw [run_lead plain, run_next (step_list opens),
          @run_eq_readList reading _ ⟨define, name⟩ ⟨1, 0, 0⟩ _ rfl rfl] at finished
        cases read : readList reading (entries ⟨define, name⟩ []) inner with
        | error outcome =>
            obtain ⟨error, rfl⟩ := readList_error rfl read
            rw [read] at finished
            contradiction
        | ok parts =>
            obtain ⟨list, listed, lists, rfl, _⟩ := lists_of_readList read
            rw [read] at finished
            obtain ⟨result, colon, more, behind, flat, ends⟩ := result_of_run finished
            refine ⟨⟨⟨define, name⟩, lead ++ opening :: (list ++ result), colon⟩, listed, more, ?_,
              defines, named, ⟨lead, opening, list, result, rfl, plain, opens, lists, flat⟩, ends⟩
            simp [Passage.tokens, Passage.opening, behind]
      · rw [run, step, if_neg named] at finished
        contradiction

/-! ## Bodies -/

theorem step_body (notText : token.kind ≠ .text) (notDefine : token.kind ≠ .define) :
    (body heading params).step reading token = .ok (body heading params, none) := by
  simp only [step]

theorem run_documents (documents : reading.Documents tokens docstring rest) :
    run reading (body heading params) tokens =
      .found (some (reading.signature heading params docstring)) (run reading outside rest) := by
  induction documents with
  | other notText notDefine _ ih => rw [run_next (step_body notText notDefine), ih]
  | nested defines =>
      rw [run, run_next (step_define defines)]
      simp only [step, defines]
  | plain text plain => exact run_body_plain text plain
  | docstring text opens located => exact run_body_located text opens located

theorem documents_of_run (finished : (run reading (body heading params) tokens).fault = none) :
    ∃ docstring rest, reading.Documents tokens docstring rest ∧ rest.length ≤ tokens.length := by
  induction tokens with
  | nil => contradiction
  | cons token tokens ih =>
      by_cases text : token.kind = .text
      · cases opens : Reading.opensDocstring token with
        | false => exact ⟨none, tokens, .plain text opens, Nat.le_succ _⟩
        | true =>
            cases located : Docstring.locate reading.source token.start none with
            | some span => exact ⟨some span, tokens, .docstring text opens located, Nat.le_succ _⟩
            | none =>
                rw [run_body_unterminated text opens located] at finished
                contradiction
      · by_cases defines : token.kind = .define
        · exact ⟨none, token :: tokens, .nested defines, Nat.le_refl _⟩
        · rw [run_next (step_body text defines)] at finished
          obtain ⟨docstring, rest, documents, shorter⟩ := ih finished
          exact ⟨docstring, rest, .other text defines documents, Nat.le_succ_of_le shorter⟩

/-! ## Functions -/

theorem step_outside (plain : token.kind ≠ .define) : outside.step reading token = .ok (outside, none) := by
  rw [step, if_neg plain]

theorem run_functions (functions : reading.Functions tokens found) :
    run reading outside tokens = ⟨found, none⟩ := by
  induction functions with
  | nil => rfl
  | other plain _ ih => rw [run_next (step_outside plain), ih]
  | function header documents _ ih =>
      rw [run_header header, run_documents documents, ih]
      rfl

theorem functions_of_run (finished : (run reading outside tokens).fault = none) :
    reading.Functions tokens (run reading outside tokens).signatures := by
  induction length : tokens.length using Nat.strongRecOn generalizing tokens with
  | _ size ih =>
      cases tokens with
      | nil => exact .nil
      | cons token tokens =>
          by_cases defines : token.kind = .define
          · have entered := finished
            rw [run_next (step_define defines)] at entered
            obtain ⟨passage, listed, more, split, header⟩ := header_of_run defines entered
            rw [split, run_header header] at finished ⊢
            obtain ⟨docstring, rest, documents, shorter⟩ := documents_of_run finished
            rw [run_documents documents] at finished ⊢
            have less : rest.length < size := by
              have whole := congrArg List.length split
              simp only [Passage.tokens, Passage.opening, List.length_cons, List.length_append] at whole length
              omega
            exact .function header documents (ih rest.length less finished rfl)
          · rw [run_next (step_outside defines)] at finished ⊢
            have less : tokens.length < size := by
              rw [← length]
              exact Nat.lt_succ_self _
            exact .other defines (ih tokens.length less finished rfl)

end Reader

/-- A scan comes to its end exactly on the tokens of the grammar, and finds the signatures of the functions
that they are made of. -/
theorem Reading.extract_grammar (reading : Reading) (found : List Signature) :
    reading.extract = ⟨found, none⟩ ↔ reading.Functions (Token.scan reading.source) found := by
  constructor
  · intro extracted
    have finished : reading.extract.fault = none := by rw [extracted]
    have functions := Reader.functions_of_run finished
    rwa [show Reader.run reading .outside (Token.scan reading.source) = ⟨found, none⟩ from extracted] at functions
  · exact Reader.run_functions

end DocDrift
