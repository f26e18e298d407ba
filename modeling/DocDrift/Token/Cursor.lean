import DocDrift.Token.Scanner
import DocDrift.Signature.ScanError

/-!
A forward cursor over the tokens of a source text, with one token of pushback.
-/

namespace DocDrift

structure Cursor where
  /-- The length of the source text, where the cursor stands at its end. -/
  length : Nat
  pending : List Token
  /-- The token to hand out before the pending ones. -/
  pushed : Option Token := none
  last : Option Token := none
  deriving DecidableEq, Repr

namespace Cursor

def ofText (source : Text) : Cursor := ⟨source.length, Token.scan source, none, none⟩

/-- Hands out the next token, or none at the end of the source. -/
def next (cursor : Cursor) : Option Token × Cursor :=
  match cursor.pushed with
  | some token => (some token, { cursor with pushed := none, last := some token })
  | none =>
    match cursor.pending with
    | token :: rest => (some token, { cursor with pending := rest, last := some token })
    | [] => (none, cursor)

/-- Hands out the next token; the source must not end here. -/
def expect (cursor : Cursor) (context : String) : Except ScanError Token × Cursor :=
  match cursor.next with
  | (some token, after) => (.ok token, after)
  | (none, after) => (.error (.sourceEnded context cursor.length), after)

def pushBack (cursor : Cursor) (token : Token) : Cursor := { cursor with pushed := some token }

end Cursor
end DocDrift
