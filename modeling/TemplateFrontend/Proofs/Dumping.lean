import TemplateFrontend.CommandLine.Response
import TemplateFrontend.Proofs.Fault
import TemplateFrontend.Proofs.Tree.Rows

/-!
Contract: the dump of a tree tells the tree.

Owns:
- `written_inj`: lines without line feeds can be read off what is written of them;
- `Tree.DumpsAs`, one line for each node and token of a tree, and `exists_dump`, which says
  that a tree has such lines where its tokens are slices of the text;
- `dumps_apart`: trees whose dumps are written alike are equal.
-/

namespace TemplateFrontend

open CommandLine.Response (written)

/-! ## Written lines -/

theorem written_cons (line : Text) (later : List Text) :
    written (line :: later) = line ++ '\n' :: written later := by
  simp [written]

/-- Lines end where a line feed is written. -/
theorem written_inj {left right : List Text} (leftLines : ∀ line ∈ left, '\n' ∉ line)
    (rightLines : ∀ line ∈ right, '\n' ∉ line) (same : written left = written right) :
    left = right := by
  induction left generalizing right with
  | nil =>
      cases right with
      | nil => rfl
      | cons line later => simp [written] at same
  | cons line later inductionHypothesis =>
      cases right with
      | nil => simp [written] at same
      | cons other others =>
          have passes {line : Text} (plain : '\n' ∉ line) :
              ∀ char ∈ line, (char != '\n') = true := by
            intro char member
            rw [bne_iff_ne]
            rintro rfl
            exact plain member
          rw [written_cons, written_cons] at same
          obtain ⟨rfl, behind⟩ := Text.append_inj_of_stops
            (passes (leftLines line List.mem_cons_self)) (Text.stops_cons (by decide))
            (passes (rightLines other List.mem_cons_self)) (Text.stops_cons (by decide)) same
          rw [inductionHypothesis
              (fun line member => leftLines line (List.mem_cons_of_mem _ member))
            (fun line member => rightLines line (List.mem_cons_of_mem _ member))
            (List.cons.inj behind).2]

/-! ## Lines of a tree -/

namespace Tree

/-- The lines of a row of rows, one for each. -/
def ShownBy (text : Text) (rows : List Row) (lines : List Text) : Prop :=
  List.Forall₂ (fun row line => Row.line row text = .ok line) rows lines

/-- The dump of a tree: every node and token has one line, in preorder. -/
structure DumpsAs (tree : Tree) (text : Text) (lines : List Text) : Prop where
  dump_eq : tree.dump text = .ok lines
  shown : ShownBy text (tree.nestedRows 0) lines
  single : ∀ line ∈ lines, '\n' ∉ line

/-- Every token of the tree is a slice of the text. -/
def SlicedFrom (tree : Tree) (text : Text) : Prop :=
  ∀ token ∈ tree.frontier, ∃ spelling, text.slice token.span = .ok spelling

theorem SlicedFrom.exists_line {element : Tree} {text : Text} (sliced : element.SlicedFrom text) :
    ∃ shown, element.line text = .ok shown := by
  cases element with
  | node kind span children => exact ⟨_, rfl⟩
  | leaf token =>
      obtain ⟨spelling, sliceEq⟩ := sliced token (by simp [frontier])
      refine ⟨heading token.kind token.span ++ ' ' :: Text.Quoted.encode spelling, ?_⟩
      rw [line, Token.line, sliceEq]
      rfl

theorem SlicedFrom.exists_rowLine {tree : Tree} {text : Text} (sliced : tree.SlicedFrom text)
    {row : Row} (member : row ∈ tree.nestedRows 0) : ∃ line, row.line text = .ok line := by
  have rowSliced : row.element.SlicedFrom text := fun token inside =>
    sliced token (mem_frontier_of_row tree 0 row token member inside)
  obtain ⟨shown, shownEq⟩ := rowSliced.exists_line
  refine ⟨List.replicate (2 * row.level) ' ' ++ shown, ?_⟩
  rw [Row.line, shownEq]
  rfl

theorem ShownBy.lineFeed_notMem {text : Text} {rows : List Row} {lines : List Text}
    (shown : ShownBy text rows lines) : ∀ line ∈ lines, '\n' ∉ line := by
  induction shown with
  | nil => simp
  | cons first _ inductionHypothesis =>
      exact List.forall_mem_cons.mpr ⟨Row.lineFeed_notMem_line first, inductionHypothesis⟩

theorem exists_dump {tree : Tree} {text : Text} (sliced : tree.SlicedFrom text) :
    ∃ lines, tree.DumpsAs text lines := by
  have each : ∀ row ∈ tree.nestedRows 0,
      ∃ line, Row.line row text = .ok line ∧ Row.line row text = .ok line := by
    intro row member
    obtain ⟨line, lineEq⟩ := sliced.exists_rowLine member
    exact ⟨line, lineEq, lineEq⟩
  obtain ⟨lines, linesEq, shown⟩ := exists_mapM each
  have dumpEq : tree.dump text = .ok lines := by
    rw [dump, linesOf, rows_eq_nestedRows]
    exact linesEq
  exact ⟨lines, dumpEq, shown, ShownBy.lineFeed_notMem shown⟩

/-- Rows that are shown by the same lines differ at most below their elements. -/
theorem ShownBy.bare_eq {text : Text} {left right : List Row} {lines : List Text}
    (leftShown : ShownBy text left lines) (rightShown : ShownBy text right lines) :
    left.map Row.bare = right.map Row.bare := by
  induction leftShown generalizing right with
  | nil =>
      cases rightShown
      rfl
  | cons first _ inductionHypothesis =>
      cases rightShown with
      | cons other others =>
          rw [List.map_cons, List.map_cons, Row.bare_eq_of_line_eq first other,
            inductionHypothesis others]

/-- Two trees do not have the same lines. -/
theorem DumpsAs.tree_eq {left right : Tree} {text : Text} {lines : List Text}
    (leftDumps : left.DumpsAs text lines) (rightDumps : right.DumpsAs text lines) :
    left = right := by
  have sameRows := leftDumps.shown.bare_eq rightDumps.shown
  have nothing : RowsAbove 1 [] := by simp [RowsAbove]
  exact (nestedRows_append_inj left right 0 [] [] nothing nothing (by simpa using sameRows)).1

end Tree

/-- A tree whose tokens are slices of the text has a dump, with one line for each node and
each token in preorder; and where the dumps of two trees are written alike, the trees are
equal: kinds, spans, what is a node and what a token, and what lies below what. -/
theorem dumps_apart (text : Text) (left right : Tree) (leftSliced : left.SlicedFrom text)
    (rightSliced : right.SlicedFrom text) :
    ∃ leftLines rightLines, left.DumpsAs text leftLines ∧ right.DumpsAs text rightLines ∧
      (written leftLines = written rightLines → left = right) := by
  obtain ⟨leftLines, leftDumps⟩ := Tree.exists_dump leftSliced
  obtain ⟨rightLines, rightDumps⟩ := Tree.exists_dump rightSliced
  refine ⟨leftLines, rightLines, leftDumps, rightDumps, ?_⟩
  intro same
  obtain rfl := written_inj leftDumps.single rightDumps.single same
  exact leftDumps.tree_eq rightDumps

/-- A token and a node of the same kind and span, below nodes of the same span. -/
theorem dumps_apart_by_quotes :
    let token : Tree := .node .root ⟨2, 3⟩ [.leaf ⟨.identifier, ⟨2, 3⟩⟩]
    let node : Tree := .node .root ⟨2, 3⟩ [.node .identifier ⟨2, 3⟩ []]
    token.SlicedFrom "éx".toList ∧ node.SlicedFrom "éx".toList ∧
      ∃ tokenLines nodeLines, token.DumpsAs "éx".toList tokenLines ∧
        node.DumpsAs "éx".toList nodeLines ∧ written tokenLines ≠ written nodeLines := by
  intro token node
  have tokenSliced : token.SlicedFrom "éx".toList := by
    intro leaf member
    obtain rfl : leaf = ⟨.identifier, ⟨2, 3⟩⟩ := List.mem_singleton.mp member
    exact ⟨['x'], rfl⟩
  have nodeSliced : node.SlicedFrom "éx".toList := by
    intro leaf member
    cases member
  obtain ⟨tokenLines, nodeLines, tokenDumps, nodeDumps, apart⟩ :=
    dumps_apart "éx".toList token node tokenSliced nodeSliced
  refine ⟨tokenSliced, nodeSliced, tokenLines, nodeLines, tokenDumps, nodeDumps, ?_⟩
  intro same
  have different : token ≠ node := by decide
  exact different (apart same)

end TemplateFrontend
