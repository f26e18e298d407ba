import Mathlib.Data.Finset.Card
import DocDrift.Proofs.Token.Partition
import DocDrift.Token.Cursor

namespace DocDrift

/-! # Cursors as places among the tokens

Whatever calls a cursor has served, it stands at one place among the tokens of its source.  What was
handed out are the tokens before that place, and the token that can be handed out again is the last one
of them.
-/

namespace Token

theorem scan_nodup (source : Text) : (scan source).Nodup :=
  (scan_cuts source).apart.imp fun before same => by
    subst same
    exact absurd before.1 (Nat.lt_irrefl _)

end Token

namespace Cursor

/-- What a call comes to: it hands out a token, or none at the end of the source, or it takes the last
token back. -/
inductive Event where
  | delivery (token : Option Token)
  | pushBack
  deriving DecidableEq, Repr

/-- A cursor serves some calls, one after the other.  A token is taken back only once one was handed
out. -/
inductive Serves : Cursor → List Event → Cursor → Prop where
  | idle {cursor : Cursor} : Serves cursor [] cursor
  | next {cursor last : Cursor} {events : List Event} (later : Serves cursor.next.2 events last) :
      Serves cursor (.delivery cursor.next.1 :: events) last
  | expect {cursor last : Cursor} {events : List Event} (context : String)
      (later : Serves (cursor.expect context).2 events last) :
      Serves cursor (.delivery (cursor.expect context).1.toOption :: events) last
  | pushBack {cursor last : Cursor} {events : List Event} {token : Token} (handed : cursor.last = some token)
      (later : Serves (cursor.pushBack token) events last) : Serves cursor (.pushBack :: events) last

/-- The tokens that calls hand out. -/
def delivered : List Event → List Token
  | [] => []
  | .delivery token :: rest => token.toList ++ delivered rest
  | .pushBack :: rest => delivered rest

/-- The tokens that calls hand out, without those that are handed out `again` because they were taken
back. -/
def fresh (again : Bool) : List Event → List Token
  | [] => []
  | .pushBack :: rest => fresh true rest
  | .delivery none :: rest => fresh again rest
  | .delivery (some token) :: rest => if again then fresh false rest else token :: fresh false rest

theorem fresh_sublist (again : Bool) (events : List Event) : (fresh again events).Sublist (delivered events) := by
  induction events generalizing again with
  | nil => exact .slnil
  | cons event rest ih =>
      match event with
      | .pushBack => exact ih true
      | .delivery none => exact ih again
      | .delivery (some token) =>
          rw [fresh]
          split
          · exact (ih false).cons token
          · exact (ih false).cons_cons token

/-- A cursor over a source that stands behind its first `count` tokens. -/
structure Stands (source : Text) (cursor : Cursor) (count : Nat) : Prop where
  length : cursor.length = source.length
  within : count ≤ (Token.scan source).length
  pending : cursor.pending = (Token.scan source).drop count
  last : cursor.last = if count = 0 then none else (Token.scan source)[count - 1]?
  pushed : cursor.pushed = none ∨ cursor.pushed = cursor.last

theorem ofText_stands (source : Text) : Stands source (ofText source) 0 :=
  ⟨rfl, Nat.zero_le _, rfl, rfl, .inl rfl⟩

variable {source : Text} {cursor last : Cursor} {count : Nat} {events : List Event}

/-- What a cursor can do when it is asked for a token: it hands out the last one again, or goes on to
the one after it, or stays at the end. -/
inductive Move (source : Text) (cursor : Cursor) (count : Nat) : Option Token → Cursor → Nat → Prop where
  | again {token : Token} {after : Cursor} (pushed : cursor.pushed = some token)
      (before : token ∈ (Token.scan source).take count) (clear : after.pushed = none) :
      Move source cursor count (some token) after count
  | onward {token : Token} {after : Cursor} (unpushed : cursor.pushed = none)
      (found : (Token.scan source)[count]? = some token) (clear : after.pushed = none) :
      Move source cursor count (some token) after (count + 1)
  | stay (unpushed : cursor.pushed = none) (ended : (Token.scan source)[count]? = none) :
      Move source cursor count none cursor count

theorem Stands.last_mem (stands : Stands source cursor count) {token : Token} (handed : cursor.last = some token) :
    token ∈ (Token.scan source).take count := by
  rw [stands.last] at handed
  split at handed
  · contradiction
  · obtain ⟨inside, rfl⟩ := List.getElem?_eq_some_iff.mp handed
    exact List.mem_take_iff_getElem.mpr ⟨count - 1, by omega, rfl⟩

theorem Stands.next (stands : Stands source cursor count) :
    ∃ answer after place, cursor.next = (answer, after) ∧ Move source cursor count answer after place ∧
      Stands source after place := by
  cases pushed : cursor.pushed with
  | some token =>
      have same : some token = cursor.last := by simpa [pushed] using stands.pushed
      have move : cursor.next = (some token, { cursor with pushed := none, last := some token }) := by
        simp only [Cursor.next, pushed]
      refine ⟨_, _, count, move, .again pushed (stands.last_mem same.symm) rfl, ?_⟩
      exact ⟨stands.length, stands.within, stands.pending, same.trans stands.last, .inl rfl⟩
  | none =>
      cases pending : cursor.pending with
      | nil =>
          have move : cursor.next = (none, cursor) := by simp only [Cursor.next, pushed, pending]
          have ended : (Token.scan source)[count]? = none := by
            rw [← List.head?_drop, ← stands.pending, pending]
            rfl
          exact ⟨_, _, count, move, .stay pushed ended, stands⟩
      | cons token rest =>
          have move : cursor.next = (some token, { cursor with pending := rest, last := some token }) := by
            simp only [Cursor.next, pushed, pending]
          have front := stands.pending
          rw [pending] at front
          have found : (Token.scan source)[count]? = some token := by
            rw [← List.head?_drop, ← front]
            rfl
          have behind : rest = (Token.scan source).drop (count + 1) := by
            rw [← List.tail_drop, ← front]
            rfl
          refine ⟨_, _, count + 1, move, .onward pushed found pushed, ?_⟩
          exact ⟨stands.length, (List.getElem?_eq_some_iff.mp found).1, behind, by simp [found], .inl pushed⟩

theorem Stands.pushBack (stands : Stands source cursor count) {token : Token} (handed : cursor.last = some token) :
    Stands source (cursor.pushBack token) count :=
  ⟨stands.length, stands.within, stands.pending, stands.last, .inr handed.symm⟩

theorem expect_next (cursor : Cursor) (context : String) :
    (cursor.expect context).1.toOption = cursor.next.1 ∧ (cursor.expect context).2 = cursor.next.2 := by
  unfold expect
  split
  · rename_i move
    simp [move, Except.toOption]
  · rename_i move
    simp [move, Except.toOption]

/-- A run up to a place is the first delivery and the run from where it leads. -/
theorem Move.delivery {after : Cursor} {token : Option Token} {place final : Nat}
    (move : Move source cursor count token after place) (onward : place ≤ final)
    (later : fresh after.pushed.isSome events = ((Token.scan source).take final).drop place)
    (inside : ∀ other ∈ delivered events, other ∈ (Token.scan source).take final) :
    count ≤ final ∧
      fresh cursor.pushed.isSome (.delivery token :: events) = ((Token.scan source).take final).drop count ∧
      ∀ other ∈ delivered (.delivery token :: events), other ∈ (Token.scan source).take final := by
  cases move with
  | @again token _ pushed before clear =>
      rw [clear] at later
      refine ⟨onward, by rw [pushed]; exact later, fun other member => ?_⟩
      rcases List.mem_cons.mp member with rfl | member
      · exact (List.take_prefix_take_left onward).subset before
      · exact inside other member
  | @onward token _ unpushed found clear =>
      have next : ((Token.scan source).take final)[count]? = some token := by
        rw [List.getElem?_take_of_lt (by omega), found]
      rw [clear] at later
      refine ⟨by omega, ?_, fun other member => ?_⟩
      · rw [unpushed, List.drop_eq_getElem?_toList_append, next]
        exact congrArg (token :: ·) later
      · rcases List.mem_cons.mp member with rfl | member
        · exact List.mem_of_getElem? next
        · exact inside other member
  | stay unpushed ended => exact ⟨onward, later, inside⟩

/-- Along a run, the place only moves on, and what is handed out lies before it. -/
theorem Serves.stands (serves : Serves cursor events last) (stands : Stands source cursor count) :
    ∃ final, Stands source last final ∧ count ≤ final ∧
      fresh cursor.pushed.isSome events = ((Token.scan source).take final).drop count ∧
      ∀ token ∈ delivered events, token ∈ (Token.scan source).take final := by
  induction serves generalizing count with
  | idle =>
      exact ⟨count, stands, Nat.le_refl _, by simp [fresh], List.forall_mem_nil _⟩
  | next later ih =>
      obtain ⟨answer, after, place, same, move, reached⟩ := stands.next
      rw [same] at ih ⊢
      obtain ⟨final, ends, onward, rest, inside⟩ := ih reached
      exact ⟨final, ends, move.delivery onward rest inside⟩
  | @expect cursor _ _ context later ih =>
      obtain ⟨answer, after, place, same, move, reached⟩ := stands.next
      rw [(cursor.expect_next context).1, same]
      rw [(cursor.expect_next context).2, same] at ih
      obtain ⟨final, ends, onward, rest, inside⟩ := ih reached
      exact ⟨final, ends, move.delivery onward rest inside⟩
  | pushBack handed later ih =>
      exact ih (stands.pushBack handed)

theorem Stands.next_eq (stands : Stands source cursor count) :
    cursor.next.1 = cursor.pushed.or (Token.scan source)[count]? := by
  obtain ⟨answer, after, place, same, move, _⟩ := stands.next
  rw [same]
  cases move with
  | again pushed => rw [pushed, Option.some_or]
  | onward unpushed found => rw [unpushed, Option.none_or, found]
  | stay unpushed ended => rw [unpushed, Option.none_or, ended]

/-- At a place among the tokens, a cursor that must hand out a token does as one that may, but at the
end of the source it fails there and stays as it is. -/
theorem Stands.expect_eq (stands : Stands source cursor count) (context : String) :
    (∀ token, cursor.next.1 = some token → cursor.expect context = (.ok token, cursor.next.2)) ∧
      (cursor.next.1 = none →
        cursor.expect context = (.error (.sourceEnded context source.length), cursor)) := by
  obtain ⟨answer, after, place, same, move, _⟩ := stands.next
  rw [expect, same]
  cases move with
  | again | onward => exact ⟨fun _ given => by cases given; rfl, fun ended => by contradiction⟩
  | stay => exact ⟨fun _ given => by contradiction, fun _ => by rw [stands.length]⟩

/-- Whatever a cursor has served, the tokens that it handed out, each counted once, are the first ones
of its source, in order.  The last of them is at hand, and it alone may have been taken back; what comes
next is that token or the one after it. -/
theorem serves_refines (serves : Serves (.ofText source) events cursor) :
    let tokens := Token.scan source
    let count := (delivered events).toFinset.card
    fresh false events = tokens.take count ∧ count ≤ tokens.length ∧
      cursor.last = (if count = 0 then none else tokens[count - 1]?) ∧
      (cursor.pushed = none ∨ cursor.pushed = cursor.last) ∧
      cursor.next.1 = cursor.pushed.or tokens[count]? ∧
      ∀ context,
        (∀ token, cursor.next.1 = some token → cursor.expect context = (.ok token, cursor.next.2)) ∧
        (cursor.next.1 = none →
          cursor.expect context = (.error (.sourceEnded context source.length), cursor)) := by
  intro tokens count
  obtain ⟨final, stands, _, handed, inside⟩ := serves.stands (ofText_stands source)
  have distinct : count = final := by
    have same : (delivered events).toFinset = (tokens.take final).toFinset := by
      ext token
      simp only [List.mem_toFinset]
      refine ⟨inside token, fun member => (fresh_sublist false events).subset ?_⟩
      exact handed ▸ member
    have nodup : (tokens.take final).Nodup := (Token.scan_nodup source).sublist (List.take_sublist _ _)
    rw [show count = (delivered events).toFinset.card from rfl, same, List.toFinset_card_of_nodup nodup,
      List.length_take, Nat.min_eq_left stands.within]
  rw [← distinct] at stands handed
  exact ⟨handed, stands.within, stands.last, stands.pushed, stands.next_eq, stands.expect_eq⟩

/-- A run over two tokens in which both are taken back, one of them twice and the other behind the end of
the source. -/
theorem serves_refines_end :
    let source : Text := "def f # x".toList
    let define : Token := ⟨.define, 0, "def".toList⟩
    let name : Token := ⟨.text, 4, "f".toList⟩
    let cursor : Cursor := ⟨9, [], none, some name⟩
    let events : List Event := [.delivery (some define), .pushBack, .pushBack, .delivery (some define),
      .delivery (some name), .delivery none, .delivery none, .pushBack, .delivery (some name)]
    Serves (.ofText source) events cursor ∧ (delivered events).toFinset.card = 2 ∧
      fresh false events = (Token.scan source).take 2 ∧ cursor.next.1 = none ∧
      cursor.expect "in a list" = (.error (.sourceEnded "in a list" 9), cursor) := by
  intro source define name cursor events
  have serves : Serves (.ofText source) events cursor :=
    .next (.pushBack rfl (.pushBack rfl (.expect "" (.next (.expect "" (.next
      (.pushBack rfl (.expect "" .idle))))))))
  have count : (delivered events).toFinset.card = 2 := by decide
  obtain ⟨handed, _, _, _, next, refused⟩ := serves_refines serves
  rw [count] at handed next
  have ended : cursor.next.1 = none := next.trans (by decide)
  exact ⟨serves, count, handed, ended, (refused "in a list").2 ended⟩

end Cursor
end DocDrift
