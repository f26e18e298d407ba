import DocDrift.Check.Source
import DocDrift.Proofs.Signature.Faults
import DocDrift.Proofs.Source.Positions

namespace DocDrift

/-! # Diagnostics

A scan that breaks off tells where: its error has an offset of the source, and the message that is logged
for it has the line of this offset.
-/

namespace Check

theorem describe_located (path : Option Path) {source : Text} {cause : Cause} {offset : Nat}
    (placed : cause.offset? = some offset) (inside : offset ≤ source.length) :
    describe source path cause = (match path with
      | some path => path.toString ++ ":"
      | none => "") ++ toString (1 + (source.take offset).count '\n') ++ ": " ++ cause.message := by
  unfold describe
  rw [placed]
  cases path with
  | none =>
      change ":".intercalate [toString ((LineIndex.ofText source).lineOf offset)] ++ ": " ++ cause.message = _
      rw [Position.lineOf_eq inside, String.empty_append]
      rfl
  | some path =>
      change ":".intercalate [path.toString, toString ((LineIndex.ofText source).lineOf offset)] ++ ": " ++
        cause.message = _
      rw [Position.lineOf_eq inside]
      rfl

end Check

/-- Where a scan breaks off, its error has the length of the source for an offset, if the source ends too
early, or else the start of a token.  The offset stands behind the word of the function that is being read
and behind all that was found by then.  The error is described with the line of the offset. -/
theorem extract_error_place (reading : Reading) {error : ScanError}
    (broken : reading.extract.fault = some (.scan error)) :
    ∃ offset : Nat, error.offset? = some offset ∧
      (offset = reading.source.length ↔ ScanError.endMessage <+: error.message.toList) ∧
      (offset = reading.source.length ∨ ∃ token ∈ Token.scan reading.source, token.start = offset) ∧
      (∃ front define inner rest last, Token.scan reading.source = front ++ define :: inner ++ rest ∧
        define.kind = .define ∧
        Reader.Steps reading .outside (front ++ [define]) reading.extract.signatures (.defining define) ∧
        Reader.Steps reading (.defining define) inner [] last ∧ last.halt? reading rest = some error ∧
        define.start < offset) ∧
      (∀ signature ∈ reading.extract.signatures, ∀ span ∈ signature.spans, span.stop ≤ offset) ∧
      ∀ path, Check.describe reading.source path (.scan error.message error.offset?) = (match path with
        | some path => path.toString ++ ":"
        | none => "") ++ toString (1 + (reading.source.take offset).count '\n') ++ ": " ++ error.message := by
  obtain ⟨read, rest, last, whole, chain, halts⟩ := Reader.steps_of_fault broken
  obtain ⟨offset, define, place, standing⟩ := Reader.haltsAt_of_halt? halts
  obtain ⟨front, inner, rfl, defines, entry, within⟩ := chain.from_define standing
  obtain ⟨inside, behind⟩ := place.behind whole
  have members : ∀ token ∈ front ++ define :: inner, token ∈ Token.scan reading.source :=
    fun token member => whole ▸ List.mem_append_left rest member
  have cuts := Token.scan_cuts reading.source
  refine ⟨offset, place.place, ?_, ?_, ?_, ?_, fun path => ?_⟩
  · rw [← ScanError.isEnd_iff]
    constructor
    · intro same
      apply Decidable.byContradiction
      intro early
      obtain ⟨token, after, rfl, rfl⟩ := place.fits (by simpa using early)
      have bounds := cuts.bounds (show token ∈ Token.scan reading.source by simp [whole])
      omega
    · exact fun early => (place.ends early).2
  · cases early : error.isEnd with
    | true => exact .inl (place.ends early).2
    | false =>
        obtain ⟨token, after, rfl, rfl⟩ := place.fits early
        exact .inr ⟨token, by simp [whole], rfl⟩
  · refine ⟨front, define, inner, rest, last, whole, defines, entry, within, halts, ?_⟩
    have here : define ∈ front ++ define :: inner := by simp
    exact Nat.lt_of_lt_of_le (cuts.bounds (members define here)).2.1 (behind define here)
  · exact chain.spans_before members behind (by simp [Reader.heading?])
  · exact Check.describe_located path place.place inside

/-- A bracket that is never opened, behind a function with a docstring. -/
theorem extract_error_place_bracket :
    let reading : Reading := ⟨"def f():\n  '''D'''\ndef g(a: ]): 0\n".toList, true⟩
    reading.extract.fault = some (.scan (.unbalancedBrackets 28)) ∧
      reading.extract.signatures.flatMap Signature.spans = [⟨4, 5⟩, ⟨11, 18⟩] ∧
      Check.describe reading.source none (.scan "unbalanced brackets in parameter list" (some 28)) =
        "3: unbalanced brackets in parameter list" := by
  intro reading
  have broken : reading.extract.fault = some (.scan (.unbalancedBrackets 28)) := by decide +kernel
  obtain ⟨offset, place, _, _, _, _, described⟩ := extract_error_place reading broken
  obtain rfl : 28 = offset := Option.some.inj place
  refine ⟨broken, by decide +kernel, (described none).trans ?_⟩
  decide +kernel

end DocDrift
