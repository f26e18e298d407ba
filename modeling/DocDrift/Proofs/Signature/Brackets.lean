import DocDrift.Proofs.Signature.Passages

namespace DocDrift

/-! # Brackets of a header

Inside a parameter list the reader counts brackets by kind and refuses one that closes nothing, so
every list that it reads is balanced.  Behind the list it counts all kinds together and refuses none:
the count only has to be zero at the colon, and an annotation of the result that closes what it did
not open goes unnoticed.
-/

namespace Token

/-- The number of brackets of one kind that some tokens open, and below, that they close. -/
def openings (bracket : Bracket) (tokens : List Token) : Nat :=
  tokens.countP fun token => token.kind = .opening bracket

def closings (bracket : Bracket) (tokens : List Token) : Nat :=
  tokens.countP fun token => token.kind = .closing bracket

/-- Up to no token do the closing brackets of a kind outnumber the opening ones. -/
def Covered (tokens : List Token) : Prop :=
  ∀ bracket front, front <+: tokens → closings bracket front ≤ openings bracket front

structure Balanced (tokens : List Token) : Prop where
  covered : Covered tokens
  even : ∀ bracket, openings bracket tokens = closings bracket tokens

/-- The brackets that some tokens open and do not close, all kinds taken together. -/
def surplus (tokens : List Token) : Int :=
  openings .round tokens + openings .square tokens + openings .curly tokens -
    (closings .round tokens + closings .square tokens + closings .curly tokens)

/-- The tokens of a parameter list: from its opening bracket to the one that closes it, which is the
first at which as many round brackets are closed as are opened. -/
structure IsParameterList (list : List Token) : Prop where
  opens : list.head?.map (·.kind) = some (.opening .round)
  balanced : Balanced list
  enclosed : ∀ front, front <+: list → front ≠ [] → front ≠ list →
    closings .round front < openings .round front

variable {tokens others : List Token} {token : Token}

theorem openings_append (bracket : Bracket) (tokens others : List Token) :
    openings bracket (tokens ++ others) = openings bracket tokens + openings bracket others :=
  List.countP_append

theorem closings_append (bracket : Bracket) (tokens others : List Token) :
    closings bracket (tokens ++ others) = closings bracket tokens + closings bracket others :=
  List.countP_append

theorem openings_single (bracket : Bracket) (token : Token) :
    openings bracket [token] = if token.kind = .opening bracket then 1 else 0 := by
  simp [openings, List.countP_singleton]

theorem closings_single (bracket : Bracket) (token : Token) :
    closings bracket [token] = if token.kind = .closing bracket then 1 else 0 := by
  simp [closings, List.countP_singleton]

theorem surplus_single (token : Token) :
    surplus [token] = match token.kind with
      | .opening _ => 1
      | .closing _ => -1
      | _ => 0 := by
  simp only [surplus, openings_single, closings_single]
  cases token.kind with
  | opening bracket => cases bracket <;> rfl
  | closing bracket => cases bracket <;> rfl
  | define | comma | colon | equals | text => rfl

theorem surplus_concat (tokens : List Token) (token : Token) :
    surplus (tokens ++ [token]) = surplus tokens + surplus [token] := by
  simp only [surplus, openings_append, closings_append]
  omega

theorem Covered.concat (covered : Covered tokens)
    (last : ∀ bracket, closings bracket (tokens ++ [token]) ≤ openings bracket (tokens ++ [token])) :
    Covered (tokens ++ [token]) := by
  intro bracket front inside
  rcases List.prefix_concat_iff.mp inside with rfl | inside
  · exact last bracket
  · exact covered bracket front inside

/-- Behind balanced tokens the counts begin anew. -/
theorem Balanced.covered_append (balanced : Balanced tokens) :
    Covered (tokens ++ others) ↔ Covered others := by
  constructor
  · intro covered bracket front inside
    have longer := covered bracket (tokens ++ front) ((List.prefix_append_right_inj tokens).mpr inside)
    rw [openings_append, closings_append, balanced.even bracket] at longer
    omega
  · intro covered bracket front inside
    rcases List.prefix_or_prefix_of_prefix inside (List.prefix_append tokens others) with
      within | ⟨rest, rfl⟩
    · exact balanced.covered bracket front within
    · rw [openings_append, closings_append, balanced.even bracket]
      have behind := (List.prefix_append_right_inj tokens).mp inside
      exact Nat.add_le_add_left (covered bracket rest behind) _

/-- Without a surplus it is enough that nothing is closed before it is opened. -/
theorem IsParameterList.balanced_append {list result : List Token} (read : IsParameterList list)
    (level : surplus result = 0) : Balanced (list ++ result) ↔ Covered result := by
  constructor
  · intro balanced
    exact read.balanced.covered_append.mp balanced.covered
  · intro covered
    have round := covered .round result (List.prefix_refl result)
    have square := covered .square result (List.prefix_refl result)
    have curly := covered .curly result (List.prefix_refl result)
    refine ⟨read.balanced.covered_append.mpr covered, fun bracket => ?_⟩
    rw [openings_append, closings_append, read.balanced.even bracket]
    unfold surplus at level
    cases bracket <;> omega

end Token

namespace Depth

def count (depth : Depth) : Bracket → Nat
  | .round => depth.round
  | .square => depth.square
  | .curly => depth.curly

/-- The open brackets after one more token, unless it closes one that is not open. -/
def after? (depth : Depth) : Token.Kind → Option Depth
  | .opening bracket => some (depth.enter bracket)
  | .closing bracket => depth.leave? bracket
  | _ => some depth

theorem count_after? {depth after : Depth} {kind : Token.Kind} (moved : depth.after? kind = some after)
    (bracket : Bracket) :
    after.count bracket + (if kind = .closing bracket then 1 else 0) =
      depth.count bracket + (if kind = .opening bracket then 1 else 0) := by
  cases kind with
  | opening own =>
      cases moved
      cases own <;> cases bracket <;> simp [enter, count]
  | closing own =>
      cases own <;> simp only [after?, leave?] at moved <;> split at moved <;> cases moved <;>
        cases bracket <;> simp [count] <;> omega
  | define | comma | colon | equals | text =>
      cases moved
      simp

theorem eq_of_isFlat {depth : Depth} (flat : depth.isFlat = true) : depth = ⟨0, 0, 0⟩ := by
  obtain ⟨round, square, curly⟩ := depth
  simp_all [isFlat]

theorem enter_after? {depth after : Depth} {kind : Token.Kind} (moved : depth.after? kind = some after)
    (outer : Bracket) : (depth.enter outer).after? kind = some (after.enter outer) := by
  cases kind with
  | opening own =>
      cases moved
      cases own <;> cases outer <;> rfl
  | closing own =>
      cases own <;> simp only [after?, leave?] at moved <;> split at moved <;> cases moved <;>
        cases outer <;> simp_all [after?, leave?, enter] <;> omega
  | define | comma | colon | equals | text =>
      cases moved
      rfl

end Depth

namespace Token

/-- The tokens of a parameter list up to a point inside it, and the brackets open there, the one of
the list among them. -/
structure IsOpen (list : List Token) (depth : Depth) : Prop where
  opens : list.head?.map (·.kind) = some (.opening .round)
  covered : Covered list
  counted : ∀ bracket, openings bracket list = closings bracket list + depth.count bracket
  enclosed : ∀ front, front <+: list → front ≠ [] → closings .round front < openings .round front

namespace IsOpen

variable {list : List Token} {depth after : Depth} {token : Token}

theorem counted_after? (opened : IsOpen list depth) (moved : depth.after? token.kind = some after)
    (bracket : Bracket) :
    openings bracket (list ++ [token]) = closings bracket (list ++ [token]) + after.count bracket := by
  have counted := opened.counted bracket
  have step := Depth.count_after? moved bracket
  rw [openings_append, closings_append, openings_single, closings_single]
  omega

theorem covered_after? (opened : IsOpen list depth) (moved : depth.after? token.kind = some after) :
    Covered (list ++ [token]) := by
  apply opened.covered.concat
  intro bracket
  rw [opened.counted_after? moved bracket]
  exact Nat.le_add_right _ _

theorem opens_concat (opened : IsOpen list depth) :
    (list ++ [token]).head?.map (·.kind) = some (.opening .round) := by
  have opens := opened.opens
  cases list with
  | nil => contradiction
  | cons first rest => exact opens

theorem step (opened : IsOpen list depth) (moved : depth.after? token.kind = some after)
    (within : 0 < after.round) : IsOpen (list ++ [token]) after where
  opens := opened.opens_concat
  covered := opened.covered_after? moved
  counted := opened.counted_after? moved
  enclosed := by
    intro front inside nonempty
    rcases List.prefix_concat_iff.mp inside with rfl | inside
    · rw [opened.counted_after? moved .round]
      exact Nat.lt_add_of_pos_right within
    · exact opened.enclosed front inside nonempty

theorem close (opened : IsOpen list ⟨1, 0, 0⟩) (closes : token.kind = .closing .round) :
    IsParameterList (list ++ [token]) where
  opens := opened.opens_concat
  balanced := by
    have moved : Depth.after? ⟨1, 0, 0⟩ token.kind = some ⟨0, 0, 0⟩ := by
      rw [closes]
      rfl
    refine ⟨opened.covered_after? moved, fun bracket => ?_⟩
    rw [opened.counted_after? moved bracket]
    cases bracket <;> rfl
  enclosed := by
    intro front inside nonempty part
    rcases List.prefix_concat_iff.mp inside with rfl | inside
    · contradiction
    · exact opened.enclosed front inside nonempty

end IsOpen

theorem isOpen_opening {token : Token} (opens : token.kind = .opening .round) :
    IsOpen [token] ⟨1, 0, 0⟩ := by
  have counted : ∀ bracket, openings bracket [token] =
      closings bracket [token] + Depth.count ⟨1, 0, 0⟩ bracket := by
    intro bracket
    rw [openings_single, closings_single, opens]
    cases bracket <;> rfl
  have fronts : ∀ front, front <+: [token] → front ≠ [] → front = [token] := by
    intro front inside nonempty
    rcases List.prefix_cons_iff.mp inside with rfl | ⟨rest, rfl, behind⟩
    · contradiction
    · rw [List.prefix_nil.mp behind]
  refine ⟨by simp [opens], ?_, counted, ?_⟩
  · intro bracket front inside
    by_cases nonempty : front = []
    · rw [nonempty]
      exact Nat.le_refl _
    · rw [fronts front inside nonempty, counted bracket]
      exact Nat.le_add_right _ _
  · intro front inside nonempty
    rw [fronts front inside nonempty, counted .round]
    exact Nat.lt_succ_self _

end Token

namespace Reader

variable {reading : Reading} {reader next last : Reader} {token : Token} {inner tokens : List Token}
  {heading : Heading} {depth : Depth}

/-- The brackets that are open where the reader stands in a parameter list. -/
def opened? : Reader → Option Depth
  | entries _ _ | named _ _ _ => some ⟨1, 0, 0⟩
  | inside _ _ _ _ _ _ depth => some (depth.enter .round)
  | _ => none

/-- What a step inside a parameter list does to the open brackets. -/
inductive ListMove (depth : Depth) (kind : Token.Kind) : Reader → Prop where
  | within {next : Reader} {after : Depth} (moved : depth.after? kind = some after)
      (positive : 0 < after.round) (stands : next.opened? = some after) : ListMove depth kind next
  | close {heading : Heading} {params : List Parameter} (closes : kind = .closing .round)
      (only : depth = ⟨1, 0, 0⟩) : ListMove depth kind (closing heading params 0)

theorem stepInside_listMove {params : List Parameter} {name : Text} {type : Option Text}
    {part : EntryPart} {start : Nat}
    (stepped : stepInside reading heading params name type part start depth token = .ok next) :
    ListMove (depth.enter .round) token.kind next := by
  have stay : ∀ after, depth.after? token.kind = some after →
      ListMove (depth.enter .round) token.kind
        (inside heading params name type part start after) :=
    fun after moved => .within (Depth.enter_after? moved .round) (Nat.succ_pos _) rfl
  simp only [stepInside] at stepped
  cases kind : token.kind with
  | opening bracket =>
      simp only [kind] at stepped stay
      cases stepped
      exact stay _ rfl
  | closing bracket =>
      simp only [kind] at stepped stay
      split at stepped
      · rename_i after left
        cases stepped
        exact stay after left
      · -- What closes nothing inside the entry can only close the list, and only where nothing is open.
        split at stepped
        · rename_i ends
          simp only [Bool.and_eq_true, decide_eq_true_eq] at ends
          cases stepped
          rw [Depth.eq_of_isFlat ends.2, ends.1]
          exact .close rfl rfl
        · contradiction
  | comma =>
      simp only [kind] at stepped stay
      split at stepped
      · rename_i flat
        cases stepped
        rw [Depth.eq_of_isFlat flat]
        exact .within rfl Nat.one_pos rfl
      · cases stepped
        exact stay depth rfl
  | equals =>
      simp only [kind] at stepped stay
      split at stepped
      · rename_i ends
        cases stepped
        rw [Depth.eq_of_isFlat (Bool.and_eq_true_iff.mp ends).1]
        exact .within rfl Nat.one_pos rfl
      · cases stepped
        exact stay depth rfl
  | define | colon | text =>
      simp only [kind] at stepped stay
      cases stepped
      exact stay depth rfl

theorem step_listMove (stands : reader.opened? = some depth) {signature : Option Signature}
    (stepped : reader.step reading token = .ok (next, signature)) :
    ListMove depth token.kind next := by
  cases reader with
  | outside | defining | unopened | closing | body => contradiction
  | entries own params =>
      cases stands
      simp only [step] at stepped
      split at stepped
      · rename_i close
        cases stepped
        rw [close]
        exact .close rfl rfl
      · rename_i text
        cases stepped
        rw [text]
        exact .within rfl Nat.one_pos rfl
      · contradiction
  | named own params name =>
      cases stands
      simp only [step] at stepped
      split at stepped
      case h_4 close =>
        cases stepped
        rw [close]
        exact .close rfl rfl
      case h_5 => contradiction
      all_goals
        rename_i separator
        cases stepped
        rw [separator]
        exact .within rfl Nat.one_pos rfl
  | inside own params name type part start depth =>
      cases stands
      simp only [step] at stepped
      cases result : stepInside reading own params name type part start depth token with
      | error error =>
          rw [result] at stepped
          contradiction
      | ok after =>
          rw [result] at stepped
          cases stepped
          exact stepInside_listMove result

/-- What the tokens behind the name of a header have come to where the reader stands in it. -/
inductive Bracketed (inner : List Token) : Reader → Prop where
  | unopened {heading : Heading} (plain : ∀ token ∈ inner, token.kind ≠ .opening .round) :
      Bracketed inner (unopened heading)
  | list {reader : Reader} {depth : Depth} {lead list : List Token} (stands : reader.opened? = some depth)
      (split : inner = lead ++ list) (plain : ∀ token ∈ lead, token.kind ≠ .opening .round)
      (opened : Token.IsOpen list depth) : Bracketed inner reader
  | closing {heading : Heading} {params : List Parameter} {depth : Int} {lead list result : List Token}
      (split : inner = lead ++ (list ++ result))
      (plain : ∀ token ∈ lead, token.kind ≠ .opening .round) (read : Token.IsParameterList list)
      (level : Token.surplus result = depth) : Bracketed inner (closing heading params depth)
  | body {heading : Heading} {params : List Parameter} : Bracketed inner (body heading params)

theorem step_result (reading : Reading) (heading : Heading) (params : List Parameter) (level : Int)
    (token : Token) :
    (closing heading params level).step reading token =
      .ok (if level = 0 ∧ token.kind = .colon then body heading params
        else closing heading params (level + Token.surplus [token]), none) := by
  rw [Token.surplus_single]
  simp only [step]
  cases token.kind with
  | colon => by_cases flat : level = 0 <;> simp [flat]
  | opening | closing | define | comma | equals | text => simp [Int.sub_eq_add_neg]

theorem Bracketed.step (bracketed : Bracketed inner reader)
    (stepped : reader.step reading token = .ok (next, none)) : Bracketed (inner ++ [token]) next := by
  cases bracketed with
  | @unopened heading plain =>
      cases stepped
      split
      · rename_i opens
        exact .list rfl rfl plain (Token.isOpen_opening opens)
      · rename_i other
        exact .unopened (by simpa [or_imp, forall_and] using ⟨plain, other⟩)
  | @list _ depth lead list stands split plain opened =>
      subst split
      rw [List.append_assoc]
      cases step_listMove stands stepped with
      | within moved positive after => exact .list after rfl plain (opened.step moved positive)
      | close closes only =>
          subst only
          have split : lead ++ (list ++ [token]) = lead ++ (list ++ [token] ++ []) := by simp
          exact .closing split plain (opened.close closes) rfl
  | @closing heading params level lead list result split plain read sum =>
      -- Behind the list only the sum over all kinds is known, so nothing is refused here.
      subst split sum
      rw [step_result] at stepped
      cases stepped
      split
      · exact .body
      · refine .closing ?_ plain read (Token.surplus_concat result token)
        simp only [List.append_assoc]
  | body =>
      obtain ⟨rfl, _⟩ := step_of_body stepped
      exact .body

theorem Steps.bracketed (chain : Steps reading (.unopened heading) inner [] reader) :
    Bracketed inner reader := by
  -- The tokens read so far grow at their end, so the run is taken apart at its last step.
  induction inner using List.reverseRecOn generalizing reader with
  | nil =>
      cases chain
      exact .unopened (by simp)
  | append_singleton tokens token ih =>
      obtain ⟨middle, earlier, found, before, step, nothing⟩ := chain.split_last
      obtain ⟨rfl, none⟩ := List.append_eq_nil_iff.mp nothing.symm
      obtain rfl := Option.toList_eq_nil_iff.mp none
      exact (ih before).step step

end Reader

namespace Passage

/-- A header from its name to its colon, in three parts: what stands in front of the parameter list,
the list, and the annotation of the result. -/
structure IsCut (passage : Passage) (lead list result : List Token) : Prop where
  split : passage.inner = lead ++ (list ++ result)
  plain : ∀ token ∈ lead, token.kind ≠ .opening .round
  read : Token.IsParameterList list
  level : Token.surplus result = 0

theorem exists_isCut {reading : Reading} {heading : Heading} {params : List Parameter}
    {inner : List Token} (colon : Token)
    (within : Reader.Steps reading (.unopened heading) inner [] (.closing heading params 0)) :
    ∃ lead list result, IsCut ⟨heading, inner, colon⟩ lead list result := by
  cases within.bracketed with
  | closing split plain read level => exact ⟨_, _, _, split, plain, read, level⟩
  | list stands => contradiction

end Passage

/-- Every signature that a scan finds, whether or not the scan comes to its end, has a header whose
parameter list is balanced in each kind of bracket.  The header is balanced up to its colon exactly
if the annotation of its result closes no bracket of a kind that is not open. -/
theorem extract_brackets (reading : Reading) {signature : Signature}
    (found : signature ∈ reading.extract.signatures) :
    ∃ (passage : Passage) (front back : List Token) (earlier : List Signature)
      (params : List Parameter) (docstring : Option Span) (lead list result : List Token),
      Token.scan reading.source = front ++ passage.tokens ++ back ∧
        passage.IsRead reading front earlier params ∧
        signature = reading.signature passage.heading params docstring ∧
        passage.IsCut lead list result ∧
        (Token.Balanced (list ++ result) ↔ Token.Covered result) := by
  obtain ⟨before, token, after, earlier, reader, next, whole, chain, step⟩ := Reader.steps_of_found found
  obtain ⟨heading, params, docstring, rfl, rfl⟩ : ∃ heading params docstring,
      reader = .body heading params ∧ signature = reading.signature heading params docstring := by
    cases Reader.step_move step with
    | complete => exact ⟨_, _, _, rfl, rfl⟩
    | nested => exact ⟨_, _, _, rfl, rfl⟩
  obtain ⟨front, inner, rfl, defines, named, entry, within⟩ := chain.entered rfl
  obtain ⟨opening, colon, gap, rfl, ends, reached⟩ := within.ended
  obtain ⟨lead, list, result, cut⟩ := Passage.exists_isCut colon reached
  have arrived : Reader.Steps reading .outside (front ++ heading.define :: heading.name :: opening) earlier
      (.closing heading params 0) := by
    simpa using entry.append reached
  refine ⟨⟨heading, opening, colon⟩, front, gap ++ token :: after, earlier, params, docstring, lead, list,
    result, ?_, ⟨defines, named, ends, arrived⟩, rfl, cut, cut.read.balanced_append cut.level⟩
  simpa [Passage.tokens, Passage.opening] using whole

/-- A function with nested brackets in every part of its header, and one that breaks off. -/
theorem extract_brackets_unfinished :
    let reading : Reading := ⟨"def f[T](x: dict[str, (T)] = \x7b1: [2]\x7d) -> list[(T)]: 0\ndef g(".toList, true⟩
    reading.extract.fault ≠ none ∧ ∃ signature ∈ reading.extract.signatures, signature.name = ['f'] ∧
      ∃ (passage : Passage) (lead list result : List Token), passage.IsCut lead list result ∧
        (Token.Balanced (list ++ result) ↔ Token.Covered result) := by
  intro reading
  have named : reading.extract.signatures.map (·.name) = [['f']] := by decide +kernel
  obtain ⟨signature, found⟩ : ∃ signature, reading.extract.signatures = [signature] := by
    simpa using List.length_eq_one_iff.mp (by simpa using congrArg List.length named)
  rw [found] at named
  have member : signature ∈ reading.extract.signatures := by rw [found]; exact List.mem_singleton_self _
  obtain ⟨passage, _, _, _, _, _, lead, list, result, _, _, _, cut, level⟩ := extract_brackets reading member
  exact ⟨by decide +kernel, signature, member, by simpa using named, passage, lead, list, result, cut, level⟩

/-- The header `def f() -> (]:`, where a square bracket closes a round one. -/
def crossedPassage : Passage where
  heading := ⟨⟨.define, 0, ['d', 'e', 'f']⟩, ⟨.text, 4, ['f']⟩⟩
  inner :=
    [⟨.opening .round, 5, ['(']⟩, ⟨.closing .round, 6, [')']⟩, ⟨.text, 8, ['-', '>']⟩,
      ⟨.opening .round, 11, ['(']⟩, ⟨.closing .square, 12, [']']⟩]
  colon := ⟨.colon, 13, [':']⟩

/-- The scan accepts the header, with one square bracket closed that was never opened and one round
bracket left open. -/
theorem extract_crossed_brackets :
    let reading : Reading := ⟨"def f() -> (]:\n    pass\n".toList, true⟩
    Token.scan reading.source = crossedPassage.tokens ++ [⟨.text, 19, "pass".toList⟩] ∧
      crossedPassage.IsRead reading [] [] [] ∧
      reading.extract = ⟨[reading.signature crossedPassage.heading [] none], none⟩ ∧
      ¬ Token.Covered crossedPassage.inner ∧ ¬ Token.Balanced crossedPassage.inner := by
  intro reading
  have uncovered : ¬ Token.Covered crossedPassage.inner := fun covered =>
    absurd (covered .square crossedPassage.inner (List.prefix_refl _)) (by decide)
  have reached : Reader.Steps reading .outside crossedPassage.opening [] (.closing crossedPassage.heading [] 0) :=
    .quiet rfl (.quiet rfl (.quiet rfl (.quiet rfl (.quiet rfl (.quiet rfl (.quiet rfl .nil))))))
  exact ⟨by decide +kernel, ⟨rfl, rfl, rfl, reached⟩, by decide +kernel, uncovered,
    fun balanced => uncovered balanced.covered⟩

end DocDrift
