import Flowchart.Proofs.Diagram.BodyLines
import Mathlib.Data.List.Forall2

/-! What a text describes: nodes in the order of their first mention, each as its last description
has it, and an edge for each edge line. -/
namespace Flowchart

open Diagram

theorem Statement.Says.of_malformedEnd {line : List Char} {s : Statement} (h : Says line s)
    {found : ArrowMatch} (hfound : ArrowMatch.find? line = some found)
    (hend : NodeRef.read? found.before = none ∨ NodeRef.read? found.after = none) :
    s.refs = [] ∧ s.edge? = none := by
  cases h with
  | node hfree => simp [hfree] at hfound
  | @edge other source target hother _ _ hs ht =>
    obtain rfl : other = found := Option.some.inj (hother.symm.trans hfound)
    simp [hs, ht] at hend
  | _ => exact ⟨rfl, rfl⟩

namespace Diagram

/-- What the lines of a text below its header say, one statement for each line. -/
def Tells (text : String) (statements : List Statement) : Prop :=
  List.Forall₂ (fun line s => Statement.Says line.content s) (bodyLines text) statements

theorem tells_iff {text : String} {statements : List Statement} :
    Tells text statements ↔ statements = bodyStatements text := by
  rw [Tells, bodyStatements, eq_comm, ← List.forall₂_eq_eq_eq, List.forall₂_map_left_iff]
  simp only [Statement.says_iff, eq_comm]

def mentionedIds (statements : List Statement) : List String :=
  (statements.flatMap Statement.refs).map (String.ofList ·.id)

def styledIds (statements : List Statement) : List String :=
  (statements.filterMap Statement.nodeStyle?).map (String.ofList ·.id)

/-- The shape and the label in the last description of an id, or else a rectangle with the id. -/
def lastFace (statements : List Statement) (id : String) : NodeShape × String :=
  match Draft.lastDescription
      ((statements.flatMap Statement.refs).filter (String.ofList ·.id = id)) with
  | some (shape, label) => (shape, String.ofList label)
  | none => (.rectangle, id)

end Diagram

/-- The nodes and edges are those that statements describe, with any styles and places. -/
structure Document.IsDescribedBy (d : Document) (statements : List Statement) : Prop where
  /-- Nodes come in the order in which references first name them, then those that only style lines
  name. -/
  ids : d.nodes.keys = (mentionedIds statements).eraseDups ++
    ((styledIds statements).filter (· ∉ mentionedIds statements)).eraseDups
  nodes : ∀ id ∈ d.nodes.keys, ∃ node, d.node? id = some node ∧ node.id = id ∧
    (node.shape, node.label) = lastFace statements id
  edges : d.edges.map (fun e => (e.source, e.arrow, e.label, e.target)) =
    (statements.filterMap Statement.edge?).map fun (source, arrow, target) =>
      (String.ofList source.id, arrow.kind, arrow.label.map String.ofList, String.ofList target.id)

namespace Diagram

variable {placed : Bool} {text : String} {reading : Reading}

theorem foldl_styled {α : Type} {f : Node → α}
    (hf : ∀ node style, f { node with style := style } = f node) (styles : List NodeStyleLine)
    (node : Node) :
    f (styles.foldl (fun node style => Draft.styled style node) node) = f node := by
  induction styles generalizing node with
  | nil => rfl
  | cons style styles ih => rw [List.foldl_cons, ih, Draft.styled, hf]

theorem face_of_node?_readWith (h : readWith placed text = .ok (.ok reading)) {id : String}
    {node : Node} (hn : reading.document.node? id = some node) :
    node.id = id ∧ (node.shape, node.label) = lastFace (bodyStatements text) id := by
  have hstyled := congrArg (fun n : Node => (n.id, n.shape, n.label)) (eq_of_node?_readWith h hn)
  dsimp only at hstyled
  have hface := hstyled.trans
    (foldl_styled (f := fun n : Node => (n.id, n.shape, n.label)) (fun _ _ => rfl) _ _)
  unfold lastFace
  cases hlast : Draft.lastDescription
      (((bodyStatements text).flatMap Statement.refs).filter (String.ofList ·.id = id)) with
  | none => simpa [hlast, Draft.describedAs, Node.stub] using hface
  | some description => simpa [hlast, Draft.describedAs, Node.stub] using hface

/-- The nodes and edges of whatever parses are those that its lines describe; a line with a malformed
end has no part in them. -/
theorem isDescribedBy_of_readWith (h : readWith placed text = .ok (.ok reading)) :
    ∃ statements, Tells text statements ∧ reading.document.IsDescribedBy statements ∧
      ∀ line ∈ bodyLines text, ∀ found, ArrowMatch.find? line.content = some found →
        NodeRef.read? found.before = none ∨ NodeRef.read? found.after = none →
          ∀ s, Statement.Says line.content s → s.refs = [] ∧ s.edge? = none := by
  refine ⟨bodyStatements text, tells_iff.mpr rfl, ⟨?_, fun id hid => ?_, ?_⟩,
    fun line _ found hfound hend s hs => hs.of_malformedEnd hfound hend⟩
  · obtain ⟨kind, direction, rfl⟩ := exists_finish_of_readWith h
    rw [keys_arrangedIf]
    exact Draft.keys_finish (bodyStatements_eq text) kind direction
  · obtain ⟨node, hn⟩ := Option.isSome_iff_exists.mp (Keyed.isSome_find?_iff.mpr hid)
    exact ⟨node, hn, face_of_node?_readWith h hn⟩
  · obtain ⟨kind, direction, rfl⟩ := exists_finish_of_readWith h
    rw [edges_arrangedIf]
    exact Draft.map_edges_finish (bodyStatements_eq text) kind direction (fun _ _ => rfl)
      (fun _ _ => rfl)

/-- A node that is first a target, then described twice, another one that only style lines name, and
an edge line whose target is not closed. -/
def sketchText : String :=
  "graph LR\nstyle C fill:red\nB -.-> A[One]\nD --> E[x\nA\nA((Two)) -->|go| B\nstyle A color:blue"

/-- The sketch has the nodes B, A and C; the last description of A counts, and D is no node. -/
theorem isDescribedBy_sketchText : ∃ reading, readWith true sketchText = .ok (.ok reading) ∧
    (∃ statements, Tells sketchText statements ∧ reading.document.IsDescribedBy statements) ∧
      reading.document.nodes.values.map (fun node => (node.id, node.shape, node.label)) =
        [("B", .rectangle, "B"), ("A", .circle, "Two"), ("C", .rectangle, "C")] := by
  have htest : testReading (readWith true sketchText) (fun reading =>
      reading.document.nodes.values.map (fun node => (node.id, node.shape, node.label)) =
        [("B", .rectangle, "B"), ("A", .circle, "Two"), ("C", .rectangle, "C")]) = true := by
    decide +kernel
  obtain ⟨reading, hread, hnodes⟩ := exists_of_testReading htest
  obtain ⟨statements, htells, hdescribed, -⟩ := isDescribedBy_of_readWith hread
  exact ⟨reading, hread, ⟨statements, htells, hdescribed⟩, of_decide_eq_true hnodes⟩

end Diagram
end Flowchart
