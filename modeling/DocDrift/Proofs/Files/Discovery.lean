import Mathlib.Data.List.Sort
import DocDrift.Files.Discovery
import DocDrift.Proofs.Files.Path

namespace DocDrift

/-! # Discovered files as a set

A list in the order of paths is determined by its members.  So discovery comes to one list for one set
of files, and what it comes to for several paths is the union of what it comes to for each of them.
-/

/-- No entry at or below a node has a name with a slash. -/
inductive FileNode.IsNamed : FileNode → Prop where
  | file (bytes : List UInt8) : IsNamed (.file bytes)
  | folder {entries : List (Text × FileNode)} (names : ∀ entry ∈ entries, '/' ∉ entry.1)
      (inner : ∀ entry ∈ entries, IsNamed entry.2) : IsNamed (.folder entries)

theorem FileNode.mem_of_lookup {entries : List (Text × FileNode)} {name : Text} {node : FileNode}
    (found : lookup entries name = some node) : (name, node) ∈ entries := by
  obtain ⟨⟨other, inner⟩, first, rfl⟩ := Option.map_eq_some_iff.mp found
  have same : other = name := by simpa using List.find?_some first
  exact same ▸ List.mem_of_find?_eq_some first

namespace FileTree

theorem follow_parts {parents : List FileNode} {node target : FileNode} {parts : List Text}
    (named : node.IsNamed) (above : ∀ parent ∈ parents, parent.IsNamed)
    (reached : follow parents node parts = .found target) : ∀ part ∈ parts, '/' ∉ part := by
  induction parts generalizing parents node with
  | nil => simp
  | cons part rest ih =>
      cases named with
      | file bytes => simp [follow] at reached
      | folder names inner =>
          rename_i entries
          simp only [follow] at reached
          refine List.forall_mem_cons.mpr ?_
          -- Double dots lead to the parent, any other part to the entry of that name.
          by_cases up : part = ['.', '.']
          · rw [if_pos up] at reached
            refine ⟨by simp [up], ?_⟩
            cases parents with
            | nil => exact ih (.folder names inner) above reached
            | cons parent outer =>
                obtain ⟨ours, others⟩ := List.forall_mem_cons.mp above
                exact ih ours others reached
          · rw [if_neg up] at reached
            cases found : FileNode.lookup entries part with
            | none => simp [found] at reached
            | some next =>
                have entry := FileNode.mem_of_lookup found
                have deeper : ∀ parent ∈ .folder entries :: parents, parent.IsNamed :=
                  List.forall_mem_cons.mpr ⟨.folder names inner, above⟩
                rw [found] at reached
                exact ⟨names _ entry, ih (inner _ entry) deeper reached⟩

theorem isProper_of_isFile {tree : FileTree} {path : Path} (named : tree.root.IsNamed)
    (found : tree.isFile path = true) (root : path.root ≠ [] → '/' ∈ path.root) : path.IsProper := by
  refine ⟨root, ?_⟩
  obtain ⟨node, reached⟩ : ∃ node, tree.find path = .found node := by
    unfold isFile node? at found
    cases target : tree.find path <;> simp_all
  have clear := follow_parts named (by simp) reached
  split at clear
  · exact fun part member => clear part (List.mem_append_right _ member)
  · exact clear

end FileTree

theorem Path.append_nil (path : Path) : path.append [] = path := by
  simp [append]

theorem Path.append_append (path : Path) (first second : List Text) :
    (path.append first).append second = path.append (first ++ second) := by
  simp [append]

namespace Glob

variable {tree : FileTree} {component : Component} {rest components : List Component} {path file : Path}

theorem mem_select_cons (selected : file ∈ select tree (component :: rest) path) :
    file = path ∨ ∃ parts, file ∈ select tree rest (path.append parts) := by
  cases component with
  | itself => exact .inl (by simpa [select] using selected)
  | exactly name =>
      simp only [select, List.mem_ite_nil_right] at selected
      exact .inr ⟨[name], selected.2⟩
  | wildcard atoms =>
      obtain ⟨⟨name, node⟩, -, matched⟩ := List.mem_flatMap.mp selected
      exact .inr ⟨[name], (List.mem_ite_nil_right.mp matched).2⟩
  | anyFolders =>
      obtain ⟨parts, -, later⟩ := List.mem_flatMap.mp selected
      exact .inr ⟨parts, later⟩

theorem select_below (selected : file ∈ select tree components path) : ∃ parts, file = path.append parts := by
  induction components generalizing path with
  | nil => exact ⟨[], (List.mem_singleton.mp selected).trans path.append_nil.symm⟩
  | cons component rest ih =>
      rcases mem_select_cons selected with same | ⟨first, later⟩
      · exact ⟨[], same.trans path.append_nil.symm⟩
      · obtain ⟨parts, same⟩ := ih later
        exact ⟨first ++ parts, same.trans (path.append_append first parts)⟩

end Glob

namespace Discovery

variable {tree : FileTree} {pattern : Text} {components : List Glob.Component} {paths more files : List Path}
  {path file : Path}

/-- Each path comes before all that stand behind it. -/
def Increasing (paths : List Path) : Prop := paths.Pairwise fun a b => a.less b = true

theorem Increasing.eq_of_mem_iff {first second : List Path} (ordered : Increasing first)
    (alike : Increasing second) (same : ∀ path, path ∈ first ↔ path ∈ second) : first = second := by
  have irrefl : Std.Irrefl fun a b : Path => a.less b = true := ⟨Path.not_less_self⟩
  have antisymm : Std.Antisymm fun a b : Path => a.less b = true :=
    ⟨fun a _ before behind => absurd (Path.less_trans before behind) a.not_less_self⟩
  exact List.Pairwise.eq_of_mem_iff ordered alike same

theorem mem_insert : file ∈ insert path paths ↔ file = path ∨ file ∈ paths := by
  induction paths with
  | nil => simp [insert]
  | cons first rest ih =>
      rw [insert]
      split
      · simp
      · split
        · simp [ih, or_left_comm]
        · rename_i left right
          obtain rfl := Path.eq_of_not_less left right
          simp

theorem insert_increasing (path : Path) (ordered : Increasing paths) : Increasing (insert path paths) := by
  induction paths with
  | nil => exact List.pairwise_singleton _ _
  | cons first rest ih =>
      obtain ⟨ahead, behind⟩ := List.pairwise_cons.mp ordered
      rw [insert]
      split
      · rename_i before
        refine List.pairwise_cons.mpr ⟨List.forall_mem_cons.mpr ⟨before, ?_⟩, ordered⟩
        exact fun later member => Path.less_trans before (ahead later member)
      · split
        · rename_i before
          refine List.pairwise_cons.mpr ⟨fun later member => ?_, ih behind⟩
          rcases mem_insert.mp member with rfl | member
          · exact before
          · exact ahead later member
        · exact ordered

theorem mem_sorted : file ∈ sorted paths ↔ file ∈ paths := by
  induction paths with
  | nil => rfl
  | cons path rest ih =>
      rw [List.mem_cons, ← ih]
      exact mem_insert

theorem sorted_increasing (paths : List Path) : Increasing (sorted paths) := by
  induction paths with
  | nil => exact .nil
  | cons path rest ih => exact insert_increasing path ih

/-- The files that a path stands for, once the pattern is read. -/
def filesOf (tree : FileTree) (components : List Glob.Component) (path : Path) : List Path :=
  if tree.isFolder path then (Glob.select tree components path).filter tree.isFile else [path]

theorem discover_eq_sorted (accepted : Glob.parse pattern = .ok components) (paths : List Path) :
    discover tree pattern paths = .ok (sorted (paths.flatMap (filesOf tree components))) := by
  have expansion : expand tree pattern = fun path => pure (filesOf tree components path) := by
    funext path
    unfold expand filesOf
    split
    · rw [accepted]
      rfl
    · rfl
  rw [discover, expansion, List.mapM_pure]
  rfl

/-- A file that given paths stand for: one of them, unless it is a directory, or a regular file that
the pattern selects in a directory among them. -/
def Reaches (tree : FileTree) (components : List Glob.Component) (paths : List Path) (file : Path) : Prop :=
  file ∈ paths ∧ tree.isFolder file = false ∨
    ∃ folder ∈ paths, tree.isFolder folder = true ∧ file ∈ Glob.select tree components folder ∧
      tree.isFile file = true

theorem reaches_append : Reaches tree components (paths ++ more) file ↔
    Reaches tree components paths file ∨ Reaches tree components more file := by
  simp only [Reaches, List.mem_append, or_and_right, exists_or]
  exact or_or_or_comm

theorem reaches_congr {others : List Path} (same : ∀ path, path ∈ others ↔ path ∈ paths) :
    Reaches tree components others file ↔ Reaches tree components paths file := by
  simp only [Reaches, same]

theorem mem_filesOf :
    file ∈ paths.flatMap (filesOf tree components) ↔ Reaches tree components paths file := by
  rw [List.mem_flatMap]
  constructor
  · rintro ⟨path, member, found⟩
    rw [filesOf] at found
    split at found
    · rename_i folder
      exact .inr ⟨path, member, folder, List.mem_filter.mp found⟩
    · rename_i single
      obtain rfl := List.mem_singleton.mp found
      exact .inl ⟨member, by simpa using single⟩
  · rintro (⟨member, single⟩ | ⟨folder, member, isFolder, found⟩)
    · exact ⟨file, member, by simp [filesOf, single]⟩
    · refine ⟨folder, member, ?_⟩
      rw [filesOf, if_pos isFolder]
      exact List.mem_filter.mpr found

/-- Discovery comes to the one increasing list of the files that the given paths stand for. -/
theorem discover_eq_ok_iff (accepted : Glob.parse pattern = .ok components) :
    discover tree pattern paths = .ok files ↔
      Increasing files ∧ ∀ file, file ∈ files ↔ Reaches tree components paths file := by
  rw [discover_eq_sorted accepted, Except.ok.injEq]
  have ordered := sorted_increasing (paths.flatMap (filesOf tree components))
  have exact (file : Path) : file ∈ sorted (paths.flatMap (filesOf tree components)) ↔
      Reaches tree components paths file := mem_sorted.trans mem_filesOf
  constructor
  · rintro rfl
    exact ⟨ordered, exact⟩
  · rintro ⟨increasing, members⟩
    exact ordered.eq_of_mem_iff increasing fun file => (exact file).trans (members file).symm

theorem Reaches.isProper (named : tree.root.IsNamed)
    (read : ∀ path ∈ paths, ∃ text, Path.ofText text = path) (reached : Reaches tree components paths file) :
    file.IsProper := by
  rcases reached with ⟨member, -⟩ | ⟨folder, member, -, selected, found⟩
  · obtain ⟨text, rfl⟩ := read file member
    exact Path.ofText_isProper text
  · obtain ⟨text, rfl⟩ := read folder member
    obtain ⟨parts, rfl⟩ := Glob.select_below selected
    exact FileTree.isProper_of_isFile named found (Path.ofText_isProper text).root

/-- Discovery is a union of sets in the order of paths.  Its list has the given paths that are no
directories and the files that the pattern selects in the others, each of them once.  Where names hold
no slash and the paths are read from texts, the components alone decide the order.  Neither the order
nor the number of times in which paths are given matters, and more paths add their own files. -/
theorem discover_union (accepted : Glob.parse pattern = .ok components) (paths : List Path) :
    ∃ files, discover tree pattern paths = .ok files ∧ Increasing files ∧
      (tree.root.IsNamed → (∀ path ∈ paths, ∃ text, Path.ofText text = path) →
        files.Pairwise fun a b => a.key < b.key) ∧
      (∀ file, file ∈ files ↔ Reaches tree components paths file) ∧
      (∀ others, (∀ path, path ∈ others ↔ path ∈ paths) → discover tree pattern others = .ok files) ∧
      ∀ more, ∃ those both, discover tree pattern more = .ok those ∧
        discover tree pattern (paths ++ more) = .ok both ∧ ∀ file, file ∈ both ↔ file ∈ files ∨ file ∈ those := by
  have discovered (given : List Path) : ∃ files, discover tree pattern given = .ok files :=
    ⟨_, discover_eq_sorted accepted given⟩
  obtain ⟨files, found⟩ := discovered paths
  obtain ⟨increasing, members⟩ := (discover_eq_ok_iff accepted).mp found
  refine ⟨files, found, increasing, ?_, members, ?_, ?_⟩
  · intro named read
    -- Where no part holds a slash, paths with the same components have the same root.
    have proper (file : Path) (member : file ∈ files) : file.IsProper :=
      Reaches.isProper named read ((members file).mp member)
    exact increasing.imp_of_mem fun first second before =>
      ((proper _ first).less_iff (proper _ second)).mp before
  · intro others same
    exact (discover_eq_ok_iff accepted).mpr
      ⟨increasing, fun file => (members file).trans (reaches_congr same).symm⟩
  · intro more
    obtain ⟨those, foundMore⟩ := discovered more
    obtain ⟨both, foundBoth⟩ := discovered (paths ++ more)
    refine ⟨those, both, foundMore, foundBoth, fun file => ?_⟩
    rw [((discover_eq_ok_iff accepted).mp foundBoth).2, members,
      ((discover_eq_ok_iff accepted).mp foundMore).2, reaches_append]

/-- A directory given in two spellings, a file in it and one beside it whose name begins alike. -/
theorem discover_union_spellings :
    let path (text : String) := Path.ofText text.toList
    let entry (name : String) (node : FileNode) := (name.toList, node)
    let tree : FileTree :=
      ⟨.folder [entry "pkg" (.folder [entry "a.py" (.file [])]), entry "pkg-x.py" (.file [])], []⟩
    let paths := [path "pkg-x.py", path "pkg", path "./pkg//a.py", path "pkg/"]
    let files := [path "pkg/a.py", path "pkg-x.py"]
    Glob.parse defaultPattern = .ok [.anyFolders, .wildcard [.anyText, .char '.', .char 'p', .char 'y']] ∧
      discover tree defaultPattern paths = .ok files ∧ (files.Pairwise fun a b => a.key < b.key) ∧
      discover tree defaultPattern (paths ++ paths.reverse) = .ok files := by
  intro path entry tree paths files
  have accepted : Glob.parse defaultPattern =
      .ok [.anyFolders, .wildcard [.anyText, .char '.', .char 'p', .char 'y']] := by rfl
  have package : (FileNode.folder [entry "a.py" (.file [])]).IsNamed :=
    .folder (by decide) (by simpa [entry] using .file [])
  have named : tree.root.IsNamed :=
    .folder (by decide) (by simpa [entry] using ⟨package, .file []⟩)
  have read : ∀ given ∈ paths, ∃ text, Path.ofText text = given := by
    simp [paths, path]
  have found : discover tree defaultPattern paths = .ok files := by decide +kernel
  obtain ⟨same, again, -, ordered, -, alike, -⟩ := @discover_union tree _ _ accepted paths
  obtain rfl : files = same := Except.ok.inj (found.symm.trans again)
  exact ⟨accepted, found, ordered named read, alike _ (by simp)⟩

end Discovery
end DocDrift
