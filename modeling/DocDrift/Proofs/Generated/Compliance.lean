import DocDrift.Proofs.Check.Comparison
import DocDrift.Proofs.Generated.Section
import DocDrift.Syntax.Parser

namespace DocDrift

/-! # Generated docstrings comply

A docstring that is written from a signature documents exactly what the forward scan reads from the
header, so no rule finds anything to object to.
-/

namespace Comparison

theorem compare_self (lenient : Bool) (params : List Parameter) :
    compare lenient params params = none := by
  rw [compare_eq_none, List.forall₂_same]
  intro parameter _
  exact ⟨rfl, by simp [typesAgree]⟩

end Comparison

namespace Generated

theorem find_agreement {config : Config} {signature : Signature} {items : List Entry}
    (style : config.style = .fixed .google ∨ config.style = .auto)
    (valid : ∀ entry ∈ items, entry.isValid = true)
    (params : signature.params = items.map Entry.parameter)
    (documented : signature.docstring = some (docstring items)) :
    Check.find config signature = .agreement := by
  have parsed : Docstring.parse config.style ⟨config.breakOnEmptyLine, config.skipVariadicParams⟩
      (docstring items) = some (items.map Entry.parameter) := by
    rcases style with style | style
    · rw [style]
      exact parseSection_docstring valid _
    · rw [style, Docstring.parse, parseSection_docstring valid]
      rfl
  simp only [Check.find, documented, parsed, params, Comparison.compare_self]

/-- A function whose docstring is written from its signature has one verdict, which reports no
disagreement. -/
theorem checkSource_compliant [Cst.Parser] {config : Config} (path : Option Path) {name : Text}
    {items : List Entry} (strategy : config.strategy = .lexer)
    (style : config.style = .fixed .google ∨ config.style = .auto)
    (identifier : isIdentifier name = true) (other : name ≠ "def".toList)
    (valid : ∀ entry ∈ items, entry.isValid = true) :
    (Check.checkSource config path (source name items)).result =
      some (.summary true "All 1 functions are compliant" path (some [⟨true, "", path, name, 1⟩])) := by
  obtain ⟨signature, found, named, line, params, documented⟩ :=
    extract_source identifier other valid config.skipVariadicParams
  have agrees := find_agreement style valid params documented
  have verdict : Check.checkSignature config path signature = ⟨true, "", path, name, 1⟩ := by
    simp only [Check.checkSignature, agrees, named, line]
    rfl
  have message : "All " ++ toString 1 ++ " functions are compliant" =
      "All 1 functions are compliant" := by decide +kernel
  simp only [Check.checkSource, strategy, Strategy.extract, found, Check.checkExtraction,
    List.map_cons, List.map_nil, verdict]
  exact congrArg (fun text => some (Result.summary true text path _)) message

theorem checkSource_compliant_nested :
    let config : Config := ⟨true, false, false, false, true, .auto, .lexer⟩
    let items : List Entry :=
      [⟨"data".toList, some "dict[str, list[tuple[int, (a | b)]]]".toList, none⟩,
        ⟨"flag".toList, none, some "\x7b1, 2\x7d".toList⟩,
        ⟨['_'], some "Callable[[int], x.y]".toList, some "f(1, [2, 3])".toList⟩]
    (∀ entry ∈ items, entry.isValid = true) ∧
      (Check.checkSource config none (source ['g'] items)).result =
        some (.summary true "All 1 functions are compliant" none
          (some [⟨true, "", none, ['g'], 1⟩])) := by
  have valid : ∀ entry ∈
      ([⟨"data".toList, some "dict[str, list[tuple[int, (a | b)]]]".toList, none⟩,
        ⟨"flag".toList, none, some "\x7b1, 2\x7d".toList⟩,
        ⟨['_'], some "Callable[[int], x.y]".toList, some "f(1, [2, 3])".toList⟩] : List Entry),
      entry.isValid = true := by
    decide +kernel
  exact ⟨valid, checkSource_compliant none rfl (.inr rfl) rfl (by decide) valid⟩

end Generated
end DocDrift
