import DocDrift.Result

/-!
Decoding UTF-8. The first malformed sequence is reported with the bytes of it that are well-formed
so far.
-/

namespace DocDrift.Utf8

def isContinuation (byte : UInt8) : Bool := 0x80 ≤ byte && byte ≤ 0xbf

/-- The bytes that may follow the first byte of a sequence: a narrower range where longer forms of
short sequences, surrogates or code points beyond the last one would begin. -/
def mayFollow (first second : UInt8) : Bool :=
  if first = 0xe0 then 0xa0 ≤ second && second ≤ 0xbf
  else if first = 0xed then 0x80 ≤ second && second ≤ 0x9f
  else if first = 0xf0 then 0x90 ≤ second && second ≤ 0xbf
  else if first = 0xf4 then 0x80 ≤ second && second ≤ 0x8f
  else isContinuation second

/-- How many bytes follow the first byte of a sequence, if it can be one. -/
def followers? (first : UInt8) : Option Nat :=
  if first < 0x80 then some 0
  else if 0xc2 ≤ first && first ≤ 0xdf then some 1
  else if 0xe0 ≤ first && first ≤ 0xef then some 2
  else if 0xf0 ≤ first && first ≤ 0xf4 then some 3
  else none

def codePoint (first : UInt8) (more : List UInt8) : Nat :=
  let lead := match more.length with
    | 0 => first.toNat
    | 1 => first.toNat % 0x20
    | 2 => first.toNat % 0x10
    | _ => first.toNat % 0x08
  more.foldl (fun n byte => 0x40 * n + byte.toNat % 0x40) lead

/-- The number of bytes after the first one that fit the sequence. -/
def fitting (first : UInt8) (more : List UInt8) : Nat :=
  match more with
  | [] => 0
  | second :: rest =>
    if mayFollow first second then 1 + (rest.takeWhile isContinuation).length else 0

/-- Decodes bytes, the first of which stands at `position`. The fuel is their number. -/
def decodeFrom : Nat → Nat → List UInt8 → Except ReadError Text
  | 0, _, _ => .ok []
  | _, _, [] => .ok []
  | fuel + 1, position, first :: rest =>
    match followers? first with
    | none => .error (.undecodable first position 1 "invalid start byte")
    | some count =>
      let more := rest.take count
      let fits := fitting first more
      if fits = count then
        (decodeFrom fuel (position + count + 1) (rest.drop count)).map
          (Char.ofNat (codePoint first more) :: ·)
      else if fits = more.length then
        .error (.undecodable first position (fits + 1) "unexpected end of data")
      else .error (.undecodable first position (fits + 1) "invalid continuation byte")

def decode (bytes : List UInt8) : Except ReadError Text := decodeFrom bytes.length 0 bytes

end DocDrift.Utf8
