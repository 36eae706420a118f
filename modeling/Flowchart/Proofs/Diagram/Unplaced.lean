import Flowchart.Proofs.Diagram.RoundTrip
import Flowchart.Proofs.Diagram.WellFormed

/-! Places have no part in the text of a document, and the text of a flow diagram is never refused.
-/
namespace Flowchart

open Text Diagram
open NumberedLine (contentOf?)

def Document.unplaced (d : Document) : Document :=
  { d with nodes := d.nodes.mapValues fun _ => Node.unplaced }

namespace Diagram

variable {d d' : Document}

section Places

theorem node?_unplaced (d : Document) (id : String) :
    d.unplaced.node? id = (d.node? id).map Node.unplaced :=
  Keyed.find?_mapValues _ _ _

theorem values_unplaced (d : Document) :
    d.unplaced.nodes.values = d.nodes.values.map Node.unplaced := by
  simp [Document.unplaced, Keyed.values, Keyed.mapValues, Function.comp_def]

theorem unplaced_arranged (d : Document) (direction : Direction) :
    (d.arranged direction).unplaced = d.unplaced := by
  have hnodes : (d.arranged direction).unplaced.nodes = d.unplaced.nodes := by
    refine Keyed.ext_find? (by simp [Document.unplaced, Document.arranged]) fun k => ?_
    simp only [Document.unplaced, Document.arranged, Keyed.find?_mapValues, Option.map_map]
    rfl
  exact congrArg (fun nodes => { d with nodes := nodes }) hnodes

def Link.unplaced (link : Link) : Link :=
  ⟨link.edge, link.source.unplaced, link.target.unplaced⟩

theorem links_unplaced (d : Document) : links d.unplaced = (links d).map Link.unplaced := by
  unfold links
  rw [List.map_filterMap]
  refine List.filterMap_congr fun edge _ => ?_
  rw [node?_unplaced, node?_unplaced]
  cases d.node? edge.source <;> cases d.node? edge.target <;> rfl

theorem loneNodes_unplaced (d : Document) :
    loneNodes d.unplaced = (loneNodes d).map Node.unplaced := by
  unfold loneNodes
  rw [links_unplaced, values_unplaced, List.filter_map, List.flatMap_map]
  rfl

theorem styleLines_unplaced (d : Document) : styleLines d.unplaced = styleLines d := by
  unfold styleLines
  rw [values_unplaced, links_unplaced, List.zipIdx_map, List.filterMap_map, List.filterMap_map]
  rfl

theorem write_unplaced (d : Document) : write d.unplaced = write d := by
  have hlines : textLines d.unplaced = textLines d := by
    unfold textLines
    rw [links_unplaced, loneNodes_unplaced, styleLines_unplaced, List.map_map, List.map_map]
    rfl
  rw [write, write, writeChars, writeChars, hlines]

theorem write_eq_of_unplaced (h : d.unplaced = d'.unplaced) : write d = write d' := by
  rw [← write_unplaced d, h, write_unplaced]

end Places

section Header

theorem write_ne_empty (d : Document) : write d ≠ "" := by
  intro h
  have hchars := congrArg String.toList h
  rw [write, String.toList_ofList, writeChars] at hchars
  obtain ⟨below, hbelow⟩ : ∃ below, textLines d = headerText d :: below := ⟨_, rfl⟩
  rw [hbelow] at hchars
  cases below <;> simp [joinWith, headerText] at hchars

theorem exists_contents_writeChars (hflow : d.kind.isFlow = true) :
    ∃ rest, (lines (writeChars d)).filterMap contentOf? = headerText d :: rest := by
  obtain ⟨hcontent, hline, -, -⟩ := headerText_facts hflow
  obtain ⟨below, hbelow⟩ : ∃ below, textLines d = headerText d :: below := ⟨_, rfl⟩
  rw [writeChars, hbelow]
  cases below with
  | nil =>
    have hne : headerText d ≠ [] := by simp [headerText]
    refine ⟨[], ?_⟩
    rw [joinWith, lines_oneLine hline hne]
    simp [hcontent]
  | cons l ls =>
    refine ⟨(lines (joinWith ['\n'] (l :: ls))).filterMap contentOf?, ?_⟩
    have hjoin : joinWith ['\n'] (headerText d :: l :: ls) =
        headerText d ++ '\n' :: joinWith ['\n'] (l :: ls) := by
      rw [joinWith, List.append_assoc, List.singleton_append]
      simp
    rw [hjoin, lines_oneLine_append hline]
    simp [hcontent]

theorem exists_reading_of_write (hflow : d.kind.isFlow = true) {outcome : Outcome}
    (h : readArranged (write d) = .ok outcome) : ∃ reading, outcome = .ok reading := by
  obtain ⟨rest, hrest⟩ := exists_contents_writeChars hflow
  obtain ⟨-, -, hkind, -⟩ := headerText_facts hflow
  obtain ⟨below, -, hread⟩ := readChars_of_header hrest hkind hflow
  obtain ⟨bare, hbare, rfl⟩ := readArranged_eq_ok_iff.mp h
  rw [write, String.toList_ofList, hread] at hbare
  cases hbody : readBody d.kind (Header.direction (headerText d)) (body below) with
  | error e =>
    rw [hbody] at hbare
    cases hbare
  | ok reading =>
    rw [hbody] at hbare
    cases hbare
    exact ⟨reading.arranged, rfl⟩

/-- What is read from a text is a flow diagram with its nodes under their own ids. -/
theorem isFlow_of_readArranged {text : String} {reading : Reading}
    (h : readArranged text = .ok (.ok reading)) :
    reading.document.kind.isFlow = true ∧ reading.document.KeyedById := by
  obtain ⟨bare, hread, rfl⟩ := readArranged_eq_reading_iff.mp h
  obtain ⟨lines, kind, direction, hflow, -, hbare⟩ := exists_lines_of_readChars hread
  have hkeyed := (isWellFormed_of_readChars hread).keyed
  refine ⟨by rw [hbare]; exact hflow, ?_⟩
  rw [Document.KeyedById, ← Keyed.keyedBy_iff]
  intro key node hn
  simp only [Reading.arranged, Document.arranged, Keyed.find?_mapValues,
    Option.map_eq_some_iff] at hn
  obtain ⟨old, hold, rfl⟩ := hn
  exact hkeyed key old hold

end Header

end Diagram
end Flowchart
