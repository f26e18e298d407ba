import Mathlib.Data.List.TakeWhile
import DocDrift.Files.Utf8

namespace DocDrift.Utf8

/-! # Decoding inverts encoding

Bytes are decoded exactly if they are the UTF-8 form of a text, and then to that text.  Each sequence
stands for one character, so the argument is about single sequences, with bytes as numbers.
-/

def encode (text : Text) : List UInt8 := text.flatMap String.utf8EncodeChar

/-- A first byte and the bytes behind it that it calls for. -/
structure IsSequence (first : UInt8) (more : List UInt8) : Prop where
  counted : followers? first = some more.length
  fits : fitting first more = more.length

variable {first second : UInt8} {bytes more rest : List UInt8} {count fuel position : Nat} {text : Text}

theorem isContinuation_iff : isContinuation first = true ↔ 0x80 ≤ first.toNat ∧ first.toNat ≤ 0xbf := by
  simp [isContinuation, UInt8.le_iff_toNat_le]

theorem mayFollow_iff :
    mayFollow first second = true ↔ (0x80 ≤ second.toNat ∧ second.toNat ≤ 0xbf) ∧
      (first.toNat = 0xe0 → 0xa0 ≤ second.toNat) ∧ (first.toNat = 0xed → second.toNat ≤ 0x9f) ∧
      (first.toNat = 0xf0 → 0x90 ≤ second.toNat) ∧ (first.toNat = 0xf4 → second.toNat ≤ 0x8f) := by
  simp only [mayFollow, isContinuation, ← UInt8.toNat_inj, UInt8.le_iff_toNat_le]
  repeat' split
  all_goals simp_all <;> omega

theorem followers?_iff :
    followers? first = some count ↔ (count = 0 ∧ first.toNat < 0x80) ∨
      (count = 1 ∧ 0xc2 ≤ first.toNat ∧ first.toNat ≤ 0xdf) ∨
      (count = 2 ∧ 0xe0 ≤ first.toNat ∧ first.toNat ≤ 0xef) ∨
      (count = 3 ∧ 0xf0 ≤ first.toNat ∧ first.toNat ≤ 0xf4) := by
  simp only [followers?, UInt8.le_iff_toNat_le, UInt8.lt_iff_toNat_lt]
  repeat' split
  all_goals simp_all <;> omega

theorem fitting_iff : fitting first (second :: more) = (second :: more).length ↔
    mayFollow first second = true ∧ ∀ byte ∈ more, isContinuation byte = true := by
  have all : (more.takeWhile isContinuation).length = more.length ↔
      ∀ byte ∈ more, isContinuation byte = true := by
    rw [← List.takeWhile_eq_self_iff]
    exact (List.takeWhile_prefix isContinuation).sublist.length_eq
  simp only [fitting, List.length_cons]
  split
  · rename_i follows
    rw [← all]
    simp only [follows, true_and]
    omega
  · rename_i other
    simp [other]

theorem val_ofNat {point : Nat} (valid : point < 0xd800 ∨ 0xdfff < point ∧ point < 0x110000) :
    (Char.ofNat point).val.toNat = point := by
  rw [Char.ofNat, dif_pos valid]
  rfl

theorem IsSequence.encodes (sequence : IsSequence first more) :
    String.utf8EncodeChar (Char.ofNat (codePoint first more)) = first :: more := by
  obtain ⟨counted, fits⟩ := sequence
  rw [followers?_iff] at counted
  match more with
  | [] =>
      have point : codePoint first [] = first.toNat := rfl
      have lead : first.toNat < 0x80 := by simpa using counted
      rw [point, String.utf8EncodeChar, val_ofNat (by omega), if_pos (by omega), UInt8.ofNat_toNat]
  | [second] =>
      have lead : 0xc2 ≤ first.toNat ∧ first.toNat ≤ 0xdf := by simpa using counted
      obtain ⟨next, _⟩ := mayFollow_iff.mp (fitting_iff.mp fits).1
      have point : codePoint first [second] = 0x40 * (first.toNat % 0x20) + second.toNat % 0x40 := rfl
      clear counted
      rw [point, String.utf8EncodeChar, val_ofNat (by omega), if_neg (by omega), if_pos (by omega)]
      simp only [List.cons.injEq, and_true, ← UInt8.toNat_inj, UInt8.toNat_ofNat']
      refine ⟨?_, ?_⟩ <;> omega
  | [second, third] =>
      have lead : 0xe0 ≤ first.toNat ∧ first.toNat ≤ 0xef := by simpa using counted
      obtain ⟨follows, continued⟩ := fitting_iff.mp fits
      obtain ⟨next, least, most, _⟩ := mayFollow_iff.mp follows
      have last := isContinuation_iff.mp (continued third (by simp))
      have point : codePoint first [second, third] =
        0x40 * (0x40 * (first.toNat % 0x10) + second.toNat % 0x40) + third.toNat % 0x40 := rfl
      clear counted
      rw [point, String.utf8EncodeChar, val_ofNat (by omega), if_neg (by omega), if_neg (by omega),
        if_pos (by omega)]
      simp only [List.cons.injEq, and_true, ← UInt8.toNat_inj, UInt8.toNat_ofNat']
      clear least most
      refine ⟨?_, ?_, ?_⟩ <;> omega
  | [second, third, fourth] =>
      have lead : 0xf0 ≤ first.toNat ∧ first.toNat ≤ 0xf4 := by simpa using counted
      obtain ⟨follows, continued⟩ := fitting_iff.mp fits
      obtain ⟨next, _, _, least, most⟩ := mayFollow_iff.mp follows
      have inner := isContinuation_iff.mp (continued third (by simp))
      have last := isContinuation_iff.mp (continued fourth (by simp))
      have point : codePoint first [second, third, fourth] =
        0x40 * (0x40 * (0x40 * (first.toNat % 0x08) + second.toNat % 0x40) + third.toNat % 0x40) +
          fourth.toNat % 0x40 := rfl
      clear counted
      rw [point, String.utf8EncodeChar, val_ofNat (by omega), if_neg (by omega), if_neg (by omega),
        if_neg (by omega)]
      simp only [List.cons.injEq, and_true, ← UInt8.toNat_inj, UInt8.toNat_ofNat']
      clear least most
      refine ⟨?_, ?_, ?_, ?_⟩ <;> omega
  | _ :: _ :: _ :: _ :: _ =>
      simp only [List.length_cons] at counted
      omega

theorem toNat_lead {lead : Nat} (small : lead < 256) : (UInt8.ofNat lead).toNat = lead := by
  rw [UInt8.toNat_ofNat']
  omega

theorem toNat_continuation (point : Nat) : (UInt8.ofNat (point % 64 + 128)).toNat = point % 64 + 128 := by
  apply toNat_lead
  omega

theorem isContinuation_ofNat (point : Nat) : isContinuation (UInt8.ofNat (point % 64 + 128)) = true := by
  rw [isContinuation_iff, toNat_continuation]
  omega

/-- Every character is what some sequence is decoded to. -/
theorem exists_isSequence (c : Char) :
    ∃ first more, IsSequence first more ∧ codePoint first more = c.toNat := by
  have valid : c.toNat < 0xd800 ∨ 0xdfff < c.toNat ∧ c.toNat < 0x110000 := c.valid
  generalize c.toNat = point at valid
  have last := toNat_continuation point
  have inner := toNat_continuation (point / 64)
  have outer := toNat_continuation (point / 4096)
  by_cases one : point < 0x80
  · have lead := toNat_lead (by omega : point < 256)
    exact ⟨UInt8.ofNat point, [], ⟨followers?_iff.mpr (.inl ⟨rfl, by omega⟩), rfl⟩, lead⟩
  by_cases two : point < 0x800
  · have lead := toNat_lead (by omega : point / 64 + 192 < 256)
    refine ⟨UInt8.ofNat (point / 64 + 192), [UInt8.ofNat (point % 64 + 128)], ⟨?_, ?_⟩, ?_⟩
    · exact followers?_iff.mpr (.inr (.inl ⟨rfl, by omega⟩))
    · exact fitting_iff.mpr ⟨mayFollow_iff.mpr (by rw [lead, last]; omega), by simp⟩
    · simp only [codePoint, List.length_cons, List.length_nil, List.foldl_cons, List.foldl_nil, lead, last]
      omega
  by_cases three : point < 0x10000
  · have lead := toNat_lead (by omega : point / 4096 + 224 < 256)
    refine ⟨UInt8.ofNat (point / 4096 + 224),
      [UInt8.ofNat (point / 64 % 64 + 128), UInt8.ofNat (point % 64 + 128)], ⟨?_, ?_⟩, ?_⟩
    · exact followers?_iff.mpr (.inr (.inr (.inl ⟨rfl, by omega⟩)))
    · refine fitting_iff.mpr ⟨mayFollow_iff.mpr ?_, ?_⟩
      · rw [lead, inner]
        omega
      · exact List.forall_mem_singleton.mpr (isContinuation_ofNat point)
    · simp only [codePoint, List.length_cons, List.length_nil, List.foldl_cons, List.foldl_nil, lead, inner,
        last]
      omega
  · have lead := toNat_lead (by omega : point / 262144 + 240 < 256)
    refine ⟨UInt8.ofNat (point / 262144 + 240), [UInt8.ofNat (point / 4096 % 64 + 128),
      UInt8.ofNat (point / 64 % 64 + 128), UInt8.ofNat (point % 64 + 128)], ⟨?_, ?_⟩, ?_⟩
    · exact followers?_iff.mpr (.inr (.inr (.inr ⟨rfl, by omega⟩)))
    · refine fitting_iff.mpr ⟨mayFollow_iff.mpr ?_, ?_⟩
      · rw [lead, outer]
        omega
      · exact List.forall_mem_cons.mpr ⟨isContinuation_ofNat (point / 64),
          List.forall_mem_singleton.mpr (isContinuation_ofNat point)⟩
    · simp only [codePoint, List.length_cons, List.length_nil, List.foldl_cons, List.foldl_nil, lead, outer,
        inner, last]
      omega

theorem decodeFrom_isSequence (sequence : IsSequence first more) (fuel position : Nat) (rest : List UInt8) :
    decodeFrom (fuel + 1) position (first :: (more ++ rest)) =
      (decodeFrom fuel (position + more.length + 1) rest).map (Char.ofNat (codePoint first more) :: ·) := by
  simp only [decodeFrom, sequence.counted, List.take_left, sequence.fits, if_true, List.drop_left]

theorem fitting_le (first : UInt8) (more : List UInt8) : fitting first more ≤ more.length := by
  cases more with
  | nil => exact Nat.le_refl 0
  | cons second more =>
      have inside := (List.takeWhile_prefix isContinuation : more.takeWhile isContinuation <+: more).length_le
      simp only [fitting, List.length_cons]
      split <;> omega

/-- Decoding stops at bytes that do not begin with a sequence. -/
theorem decodeFrom_cases (fuel position : Nat) (first : UInt8) (bytes : List UInt8) :
    (∃ more rest, bytes = more ++ rest ∧ IsSequence first more) ∨
      (¬ ∃ more rest, bytes = more ++ rest ∧ IsSequence first more) ∧
        ∃ count reason, decodeFrom (fuel + 1) position (first :: bytes) =
          .error (.undecodable first position count reason) := by
  by_cases begins : ∃ more rest, bytes = more ++ rest ∧ IsSequence first more
  · exact .inl begins
  refine .inr ⟨begins, ?_⟩
  simp only [decodeFrom]
  split
  · exact ⟨_, _, rfl⟩
  · rename_i count counted
    split
    · rename_i fits
      have enough : (bytes.take count).length = count := by
        have most := fitting_le first (bytes.take count)
        have least := List.length_take_le count bytes
        omega
      refine absurd ⟨bytes.take count, bytes.drop count, (List.take_append_drop count bytes).symm, ?_, ?_⟩
        begins
      · rw [enough, counted]
      · rw [fits, enough]
    · split <;> exact ⟨_, _, rfl⟩

theorem not_prefix_encodeChar (unbegun : ¬ ∃ more rest, bytes = more ++ rest ∧ IsSequence first more)
    (c : Char) : ¬ String.utf8EncodeChar c <+: first :: bytes := by
  obtain ⟨lead, more, sequence, point⟩ := exists_isSequence c
  rintro ⟨rest, split⟩
  have form := sequence.encodes
  rw [point, Char.ofNat_toNat] at form
  rw [form] at split
  obtain ⟨rfl, rfl⟩ := List.cons.inj split
  exact unbegun ⟨more, rest, rfl, sequence⟩

theorem IsSequence.encode_cons (sequence : IsSequence first more) (text : Text) :
    encode (Char.ofNat (codePoint first more) :: text) = first :: (more ++ encode text) := by
  rw [encode, List.flatMap_cons, sequence.encodes]
  rfl

theorem decodeFrom_encode (text : Text) (enough : (encode text).length ≤ fuel) (position : Nat) :
    decodeFrom fuel position (encode text) = .ok text := by
  induction text generalizing fuel position with
  | nil => cases fuel <;> rfl
  | cons c text ih =>
      obtain ⟨first, more, sequence, point⟩ := exists_isSequence c
      have same : Char.ofNat (codePoint first more) = c := by rw [point, Char.ofNat_toNat]
      have split := sequence.encode_cons text
      rw [same] at split
      rw [split] at enough ⊢
      cases fuel with
      | zero => contradiction
      | succ fuel =>
          simp only [List.length_cons, List.length_append] at enough
          rw [decodeFrom_isSequence sequence, ih (by omega), same]
          rfl

theorem encode_of_decodeFrom (enough : bytes.length ≤ fuel)
    (decoded : decodeFrom fuel position bytes = .ok text) : bytes = encode text := by
  induction fuel generalizing bytes position text with
  | zero =>
      obtain rfl : bytes = [] := List.length_eq_zero_iff.mp (Nat.le_zero.mp enough)
      cases decoded
      rfl
  | succ fuel ih =>
      match bytes with
      | [] =>
          cases decoded
          rfl
      | first :: bytes =>
          rcases decodeFrom_cases fuel position first bytes with
            ⟨more, rest, rfl, sequence⟩ | ⟨_, count, reason, failed⟩
          · rw [decodeFrom_isSequence sequence] at decoded
            simp only [List.length_cons, List.length_append] at enough
            cases later : decodeFrom fuel (position + more.length + 1) rest with
            | error error =>
                rw [later] at decoded
                contradiction
            | ok behind =>
                rw [later] at decoded
                cases decoded
                rw [sequence.encode_cons, ← ih (by omega) later]
          · rw [failed] at decoded
            contradiction

/-- Decoding stops at the first byte that begins no character. -/
theorem undecodable_of_decodeFrom {error : ReadError}
    (failed : decodeFrom fuel position bytes = .error error) :
    ∃ before byte rest count reason, bytes = encode before ++ byte :: rest ∧
      (∀ c, ¬ String.utf8EncodeChar c <+: byte :: rest) ∧
      error = .undecodable byte (position + (encode before).length) count reason := by
  induction fuel generalizing bytes position with
  | zero => contradiction
  | succ fuel ih =>
      match bytes with
      | [] => contradiction
      | first :: bytes =>
          rcases decodeFrom_cases fuel position first bytes with
            ⟨more, rest, rfl, sequence⟩ | ⟨unbegun, count, reason, stopped⟩
          · rw [decodeFrom_isSequence sequence] at failed
            cases later : decodeFrom fuel (position + more.length + 1) rest with
            | ok text =>
                rw [later] at failed
                contradiction
            | error other =>
                rw [later] at failed
                cases failed
                obtain ⟨before, byte, rest, count, reason, rfl, unbegun, rfl⟩ := ih later
                refine ⟨Char.ofNat (codePoint first more) :: before, byte, rest, count, reason, ?_, unbegun, ?_⟩
                · rw [sequence.encode_cons, List.cons_append, List.append_assoc]
                · rw [sequence.encode_cons, List.length_cons, List.length_append]
                  congr 1
                  omega
          · rw [stopped] at failed
            cases failed
            exact ⟨[], first, bytes, count, reason, rfl, not_prefix_encodeChar unbegun, rfl⟩

theorem decode_eq_ok : decode bytes = .ok text ↔ bytes = encode text := by
  constructor
  · exact encode_of_decodeFrom (Nat.le_refl _)
  · rintro rfl
    exact decodeFrom_encode text (Nat.le_refl _) 0

theorem decode_error (undecodable : ¬ ∃ text, bytes = encode text) :
    ∃ before byte rest count reason, bytes = encode before ++ byte :: rest ∧
      (∀ c, ¬ String.utf8EncodeChar c <+: byte :: rest) ∧
      decode bytes = .error (.undecodable byte (encode before).length count reason) := by
  cases decoded : decode bytes with
  | ok text => exact absurd ⟨text, decode_eq_ok.mp decoded⟩ undecodable
  | error error =>
      obtain ⟨before, byte, rest, count, reason, split, unbegun, rfl⟩ := undecodable_of_decodeFrom decoded
      exact ⟨before, byte, rest, count, reason, split, unbegun, by rw [Nat.zero_add]⟩

end DocDrift.Utf8
