import DocDrift.Proofs.Files.Encoding
import DocDrift.Proofs.Run.Schedule
import DocDrift.Proofs.Syntax.Parser

namespace DocDrift

/-! # One bad file stops no run

A file that is no UTF-8 has a read error.  Any other file is checked: its text has one kind of line end,
so each position of its tree lies on a line of the index, and a scan that breaks off is an error of that
file alone.  Of the parser it is assumed that it fails with syntax errors only and counts every line end.
-/

/-- The results of a file that could be read, with the verdicts reached before the scan ended or broke
off. -/
inductive Result.Checked (path : Path) (verdicts : List Verdict) : Result → Prop where
  | whole (success : Bool) (message : String) :
      Checked path verdicts (.summary success message (some path) (some verdicts))
  | brokenOff (message : String) {cause : Cause} (found : cause.isScan ∨ cause.isInvariant) :
      Checked path verdicts
        (.error message (some path) (some cause) "check_source" path.toString (some verdicts))

namespace Check

theorem settle_checked (path : Path) (verdicts : List Verdict) {fault : Option Fault}
    (caught : fault ≠ some .uncaught) :
    ∃ result, settle (some path) verdicts fault = some result ∧ result.Checked path verdicts := by
  match fault with
  | none => exact ⟨_, rfl, .whole _ _⟩
  | some (.scan error) => exact ⟨_, rfl, .brokenOff _ (.inl rfl)⟩
  | some (.invariant text) => exact ⟨_, rfl, .brokenOff _ (.inr rfl)⟩
  | some .uncaught => exact absurd rfl caught

end Check

namespace FileTree

variable {tree : FileTree} {path : Path} {bytes : List UInt8}

theorem readText_eq (stored : tree.find path = .found (.file bytes)) :
    tree.readText path = (Utf8.decode bytes).map Text.unifyLineEnds := by
  simp only [readText, FileTree.bytes, stored, bind, Except.bind]
  cases Utf8.decode bytes <;> rfl

end FileTree

namespace Run

/-- A file comes to a result, whatever its bytes and the strategy are.  The result of bytes that are no
UTF-8 names the first one that begins no character.  The text of other bytes has no carriage return, and
every position that the parser records in it is on a line of the index, which gives an offset to it.  So
a run over any files comes to its report. -/
theorem checkFile_contained [Cst.Parser] (fails : Cst.Parser.FailsOnSyntax) (counts : Cst.Parser.CountsLines)
    (config : Config) {tree : FileTree} {path : Path} {bytes : List UInt8}
    (stored : tree.find path = .found (.file bytes)) :
    ((¬ ∃ text, bytes = Utf8.encode text) →
      ∃ before byte rest count reason, bytes = Utf8.encode before ++ byte :: rest ∧
        (∀ c, ¬ String.utf8EncodeChar c <+: byte :: rest) ∧
        let error := .undecodable byte (Utf8.encode before).length count reason
        (checkFile config tree path).result =
          some (.error ("Cannot read " ++ path.toString ++ ": " ++ error.message) (some path)
            (some (.read error)) "check_file" path.toString none)) ∧
    (∀ text, bytes = Utf8.encode text →
      let source := Text.unifyLineEnds text
      '\r' ∉ source ∧
      (∀ module, Cst.Parser.parse source = .ok module →
        ∀ node range, module.positions node = some range → ∀ position ∈ [range.start, range.stop],
          ∃ row start, position.line = row + 1 ∧ (LineIndex.ofText source).starts[row]? = some start ∧
            position.offset? (LineIndex.ofText source) = some (start + position.column : Int)) ∧
      let found := config.strategy.extract config.skipVariadicParams source
      ∃ result, (checkFile config tree path).result = some result ∧
        result.Checked path (found.signatures.map (Check.checkSignature config (some path)))) ∧
    ∀ files, ∃ done, checkFiles config tree files = .ok done ∧
      files.map (fun file => (checkFile config tree file).result) = done.report.results.map some := by
  have read := FileTree.readText_eq stored
  refine ⟨?_, ?_, ?_⟩
  · intro undecodable
    obtain ⟨before, byte, rest, count, reason, split, unbegun, decoded⟩ := Utf8.decode_error undecodable
    refine ⟨before, byte, rest, count, reason, split, unbegun, ?_⟩
    rw [checkFile, read, decoded]
    rfl
  · rintro text rfl source
    have clean : '\r' ∉ source := text.unifyLineEnds_clean
    refine ⟨clean, ?_, ?_⟩
    · intro module parsed node range recorded position member
      obtain ⟨first, last⟩ := counts source module parsed node range recorded position member
      exact Position.offset?_exists clean first last
    · rw [checkFile, read, Utf8.decode_eq_ok.mpr rfl]
      simp only [Except.map, Check.checkSource_result]
      exact Check.settle_checked path _
        (Strategy.extract_caught (fun _ => ⟨fails, counts⟩) config.skipVariadicParams clean)
  · intro files
    obtain ⟨done, ran⟩ := @checkFiles_exists _ config (fun _ => ⟨fails, counts⟩) tree files
    exact ⟨done, ran, (checkFiles_eq_ok ran).2.1⟩

/-- Read by trees: a byte that is no UTF-8, a file whose lines end with carriage returns and the pair of
both, and one that is no program.  The name in the second file is on its third line. -/
theorem checkFile_contained_files :
    let config := Config.default
    let text := "x = 1\r\n\rdef f(a: int): pass\r".toList
    let tree : FileTree := ⟨.folder [("a.py".toList, .file [0x64, 0xff]),
      ("b.py".toList, .file (Utf8.encode text)), ("c.py".toList, .file (Utf8.encode "def f(".toList))], []⟩
    let bad : Path := ⟨[], ["a.py".toList]⟩
    let old : Path := ⟨[], ["b.py".toList]⟩
    let torn : Path := ⟨[], ["c.py".toList]⟩
    config.strategy = .tree ∧ tree.find bad = .found (.file [0x64, 0xff]) ∧
      tree.find old = .found (.file (Utf8.encode text)) ∧ (¬ ∃ text, [0x64, 0xff] = Utf8.encode text) ∧
      (∃ result, (checkFile config tree bad).result = some result ∧ result.isError = true) ∧
      (∃ module node range row, ∃ start : Nat, Cst.Parser.parse (Text.unifyLineEnds text) = .ok module ∧
        module.positions node = some range ∧ range.start = ⟨3, 4⟩ ∧ range.start.line = row + 1 ∧
        (LineIndex.ofText (Text.unifyLineEnds text)).starts[row]? = some start ∧
        range.start.offset? (LineIndex.ofText (Text.unifyLineEnds text)) = some (start + 4 : Int)) ∧
      (∃ result, (checkFile config tree old).result = some result ∧ result.Checked old
        [⟨true, "docstring missing", some old, ['f'], 3⟩]) ∧
      (∃ result, (checkFile config tree torn).result = some result ∧ result.Checked torn []) ∧
      ∃ done, checkFiles config tree [bad, old, torn] = .ok done ∧ done.report.results.length = 3 := by
  intro config text tree bad old torn
  have undecodable : ¬ ∃ text, [0x64, 0xff] = Utf8.encode text := by
    rintro ⟨text, same⟩
    have decoded := Utf8.decode_eq_ok.mpr same
    contradiction
  have contained {path : Path} {bytes : List UInt8} (stored : tree.find path = .found (.file bytes)) :=
    checkFile_contained Syntax.parser_failsOnSyntax Syntax.parser_countsLines config stored
  obtain ⟨unread, _, runs⟩ := contained (rfl : tree.find bad = _)
  obtain ⟨_, read, _⟩ := contained (rfl : tree.find old = _)
  obtain ⟨_, broken, _⟩ := contained (rfl : tree.find torn = _)
  obtain ⟨_, _, _, _, _, _, _, failed⟩ := unread undecodable
  obtain ⟨_, located, checked⟩ := read text rfl
  obtain ⟨_, _, stopped⟩ := broken _ rfl
  have parses : (Cst.Parser.parse (Text.unifyLineEnds text)).isOk = true := by decide +kernel
  cases parsed : Cst.Parser.parse (Text.unifyLineEnds text) with
  | error failure => simp [parsed, Except.isOk, Except.toBool] at parses
  | ok module =>
      obtain ⟨trees, _, rfl⟩ := Syntax.parse_eq_ok parsed
      let node : Syntax.Node := ⟨"Name", ⟨11, 12⟩⟩
      have recorded : Walk.locateIn (Walk.withoutMark (Text.unifyLineEnds text)) node =
          some ⟨⟨3, 4⟩, ⟨3, 5⟩⟩ := by decide +kernel
      obtain ⟨row, start, line, found, offset⟩ := located _ parsed node _ recorded ⟨3, 4⟩ (by simp)
      obtain ⟨done, ran, each⟩ := runs [bad, old, torn]
      refine ⟨rfl, rfl, rfl, undecodable, ⟨_, failed, rfl⟩,
        ⟨_, node, _, row, start, rfl, recorded, rfl, line, found, offset⟩, ?_, ?_, done, ran, ?_⟩
      · have verdicts : (Strategy.tree.extract true (Text.unifyLineEnds text)).signatures.map
            (Check.checkSignature config (some old)) = [⟨true, "docstring missing", some old, ['f'], 3⟩] := by
          decide +kernel
        exact verdicts ▸ checked
      · have verdicts : (Strategy.tree.extract true (Text.unifyLineEnds "def f(".toList)).signatures.map
            (Check.checkSignature config (some torn)) = [] := by
          decide +kernel
        exact verdicts ▸ stopped
      · have count := congrArg List.length each
        rw [List.length_map, List.length_map] at count
        exact count.symm

/-- Carriage returns left in a text would put positions on lines that the index does not have. -/
example : (Position.ofOffset ['\r', 'x'] 1).offset? (LineIndex.ofText ['\r', 'x']) = none := by decide

end Run
end DocDrift
