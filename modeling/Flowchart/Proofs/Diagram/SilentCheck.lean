import Mathlib.Data.List.Basic
import Flowchart.Diagram.Check
import Flowchart.Proofs.Diagram.RoundTrip
import Flowchart.Proofs.Diagram.WellFormed

/-! What the silence of the check is worth: a document without warnings comes back from its text
exactly if some conditions hold that the check does not look at. -/
namespace Flowchart

open Text Diagram

namespace Document

/-- The check reports neither an error nor a warning. -/
def IsSilent (d : Document) : Prop :=
  ∀ issue ∈ d.issues, issue.severity = .info

/-- The text of the document is read without a report, and every node and every edge is given back.
-/
def RoundTrips (d : Document) : Prop :=
  ∃ reading, readArranged (write d) = .ok (.ok reading) ∧ reading.issues = [] ∧
    (∀ id, (reading.document.node? id).map Node.unplaced = (d.node? id).map Node.unplaced) ∧
    reading.document.edges.map Edge.unnamed = d.edges.map Edge.shown

/-- A flow diagram whose nodes stand under their own ids, whose sizes are whole numbers and whose
edges have positions with no more digits than are read. -/
structure IsRegular (d : Document) : Prop where
  flow : d.kind.isFlow = true
  keyed : d.KeyedById
  nodeStyles : ∀ node ∈ d.nodes.values, node.style.IsWhole
  edgeStyles : ∀ edge ∈ d.edges, edge.style.IsWhole
  size : d.edges.length ≤ 10 ^ OversizedNumeral.limit

/-- No edges without nodes, ids without line feeds, labels without line breaks, and style texts that
can be declared. -/
structure FitsLines (d : Document) : Prop where
  edges : d.nodes.values = [] → d.edges = []
  ids : ∀ node ∈ d.nodes.values, '\n' ∉ node.id.toList
  labels : ∀ node ∈ d.nodes.values, OneLine node.label.toList
  edgeLabels : ∀ edge ∈ d.edges, ∀ label ∈ edge.label, OneLine label.toList
  nodeStyles : ∀ node ∈ d.nodes.values, node.style.IsDeclarable
  edgeStyles : ∀ edge ∈ d.edges, edge.style.IsDeclarable

/-- The conditions on the text form that the check does not look at: everything fits on its line, no
label hides the arrow in front of it, and no style text ends in a semicolon. -/
structure IsTextSafe (d : Document) : Prop extends FitsLines d where
  arrows : ∀ link ∈ links d, link.ArrowStands
  nodeStyleEnds : ∀ node ∈ d.nodes.values, (nodeStyleText node.style).getLast? ≠ some ';'
  edgeStyleEnds : ∀ edge ∈ d.edges, (edgeStyleText edge.style).getLast? ≠ some ';'

namespace IsSilent

variable {d : Document} (h : d.IsSilent)
include h

private theorem issues_of_ne_nil (hne : d.nodes.values ≠ []) :
    (∀ node ∈ d.nodes.values, ∀ issue ∈ nodeIssues node, issue.severity = .info) ∧
      ∀ edge ∈ d.edges, ∀ issue ∈ edgeIssues d.nodes.keys edge, issue.severity = .info := by
  have hempty : d.nodes.values.isEmpty = false := by simpa using hne
  unfold IsSilent issues at h
  simp only [hempty, Bool.false_eq_true, if_false, List.mem_append, List.mem_flatMap] at h
  constructor
  · intro node hn issue hi
    exact h issue (.inl (.inl (.inr ⟨node, hn, hi⟩)))
  · intro edge he issue hi
    exact h issue (.inl (.inr ⟨edge, he, hi⟩))

/-- What silence says about a node. -/
theorem node {node : Node} (hn : node ∈ d.nodes.values) : hasPlainId node.id.toList = true ∧
    node.shape.keeps node.label.toList = true ∧ ArrowFree node.label.toList := by
  have hissues := (h.issues_of_ne_nil (List.ne_nil_of_mem hn)).1 node hn
  unfold nodeIssues at hissues
  refine ⟨?_, ?_, ?_⟩
  · by_contra hid
    have := hissues (.badIdentifier node.id) (by simp [hid])
    cases this
  · by_contra hkeeps
    by_cases hl : node.label.toList.isEmpty = true
    · have := hissues (.emptyLabel node.id) (by simp [hl])
      cases this
    · have := hissues (.lostLabel node.id node.shape) (by simp [hl, hkeeps])
      cases this
  · by_contra harrow
    have hsome : (ArrowMatch.find? node.label.toList).isSome := by
      rw [Option.isSome_iff_ne_none]
      exact fun hnone => harrow (ArrowMatch.find?_eq_none_iff.mp hnone)
    have hl : node.label.toList.isEmpty = false := by
      by_contra hl
      rw [Bool.not_eq_false, List.isEmpty_iff] at hl
      rw [hl] at harrow
      exact harrow (by decide)
    have := hissues (.arrowInLabel node.id) (by simp [hl, hsome])
    cases this

theorem edge (hne : d.nodes.values ≠ []) {edge : Edge} (he : edge ∈ d.edges) :
    edge.source ∈ d.nodes.keys ∧ edge.target ∈ d.nodes.keys ∧
      ∀ label ∈ edge.label, '|' ∉ label.toList := by
  have hissues := (h.issues_of_ne_nil hne).2 edge he
  unfold edgeIssues at hissues
  refine ⟨?_, ?_, ?_⟩
  · by_contra hs
    have := hissues (.missingEndpoint edge.id .source edge.source) (by simp [hs])
    cases this
  · by_contra ht
    have := hissues (.missingEndpoint edge.id .target edge.target) (by simp [ht])
    cases this
  · intro label hl hbar
    have hlost : isLostEdgeLabel edge.label = true := by
      rw [Option.mem_def] at hl
      simp [isLostEdgeLabel, hl, hbar]
    have := hissues (.lostEdgeLabel edge.id) (by simp [hlost])
    cases this

end IsSilent

theorem isIdentifier_of_hasPlainId {id : List Char} (h : hasPlainId id = true)
    (hn : '\n' ∉ id) : Identifier.isIdentifier id = true := by
  simp only [hasPlainId, Bool.or_eq_true, Bool.and_eq_true, beq_iff_eq] at h
  rcases h with h | ⟨h, -⟩
  · exact h
  · exact absurd (List.mem_of_getLast? h) hn

section Exact

variable {d : Document}

theorem FitsLines.isLegible (hfits : d.FitsLines) (hregular : d.IsRegular) (hsilent : d.IsSilent) :
    d.IsLegible where
  flow := hregular.flow
  keyed := hregular.keyed
  nodes := by
    intro node hn
    obtain ⟨hid, hkeeps, harrow⟩ := hsilent.node hn
    have hplain := isIdentifier_of_hasPlainId hid (hfits.ids node hn)
    exact ⟨⟨hplain, hkeeps, hfits.labels node hn⟩, harrow⟩
  edges := by
    intro edge he label hl
    have hne : d.nodes.values ≠ [] := fun hnil => List.ne_nil_of_mem he (hfits.edges hnil)
    exact ⟨hfits.edgeLabels edge he label hl, (hsilent.edge hne he).2.2 label hl⟩
  nodeStyles := fun node hn => ⟨hfits.nodeStyles node hn, hregular.nodeStyles node hn⟩
  edgeStyles := fun edge he => ⟨hfits.edgeStyles edge he, hregular.edgeStyles edge he⟩
  size := hregular.size

theorem IsSilent.ends (hsilent : d.IsSilent) (hempty : d.nodes.values = [] → d.edges = []) :
    ∀ edge ∈ d.edges, edge.source ∈ d.nodes.keys ∧ edge.target ∈ d.nodes.keys := by
  intro edge he
  have hne : d.nodes.values ≠ [] := fun hnil => List.ne_nil_of_mem he (hempty hnil)
  obtain ⟨hs, ht, -⟩ := hsilent.edge hne he
  exact ⟨hs, ht⟩

theorem IsTextSafe.roundTrips (hsafe : d.IsTextSafe) (hregular : d.IsRegular)
    (hsilent : d.IsSilent) : d.RoundTrips := by
  have hlegible := hsafe.toFitsLines.isLegible hregular hsilent
  have hnodeStyles : ∀ node ∈ d.nodes.values, readNodeStyle node.style = node.style := by
    intro node hn
    exact (readNodeStyle_eq_iff (hlegible.nodeStyles node hn).1).mpr (hsafe.nodeStyleEnds node hn)
  have hedgeStyles : ∀ edge ∈ d.edges, readEdgeStyle edge.style = edge.style := by
    intro edge he
    exact (readEdgeStyle_eq_iff (hlegible.edgeStyles edge he).1).mpr (hsafe.edgeStyleEnds edge he)
  obtain ⟨reading, hread, hissues, -, -, hnodes, hedges⟩ :=
    readArranged_written hlegible hsafe.arrows hnodeStyles hedgeStyles
  refine ⟨reading, hread, hissues, hnodes, ?_⟩
  have hends := hsilent.ends hsafe.edges
  calc reading.document.edges.map Edge.unnamed
    _ = ((links d).map Link.edge).map Edge.shown := by rw [hedges, List.map_map]; rfl
    _ = d.edges.map Edge.shown := by rw [map_edge_links_eq hends]

theorem RoundTrips.exists_reading (hround : d.RoundTrips) :
    ∃ reading, readChars (writeChars d) = .ok (.ok reading) ∧
      (∀ id, (reading.document.node? id).map Node.unplaced = (d.node? id).map Node.unplaced) ∧
      reading.document.edges.map Edge.unnamed = d.edges.map Edge.shown := by
  obtain ⟨placed, hread, -, hnodes, hedges⟩ := hround
  obtain ⟨reading, hchars, rfl⟩ := readArranged_eq_reading_iff.mp hread
  rw [write, String.toList_ofList] at hchars
  refine ⟨reading, hchars, fun id => ?_, hedges⟩
  rw [← hnodes, Reading.arranged, node?_arranged]

theorem RoundTrips.fitsLines (hround : d.RoundTrips) (hkeyed : d.KeyedById) : d.FitsLines := by
  obtain ⟨reading, hread, hnodes, hedges⟩ := hround.exists_reading
  have hwell := isWellFormed_of_readChars hread
  have hnode : ∀ node ∈ d.nodes.values, ∃ found ∈ reading.document.nodes.values,
      found.unplaced = node.unplaced := by
    intro node hn
    have hfound := hnodes node.id
    rw [(node?_eq_some_iff hkeyed).mpr ⟨hn, rfl⟩, Option.map_some, Option.map_eq_some_iff] at hfound
    obtain ⟨found, hfind, heq⟩ := hfound
    exact ⟨found, mem_values_of_node? hfind, heq⟩
  have hedge : ∀ edge ∈ d.edges, ∃ found ∈ reading.document.edges,
      found.unnamed = edge.shown := by
    intro edge he
    have hmem := List.mem_map_of_mem (f := Edge.shown) he
    rw [← hedges] at hmem
    exact List.mem_map.mp hmem
  constructor
  · intro hnil
    rw [List.eq_nil_iff_forall_not_mem]
    intro edge he
    obtain ⟨found, hfound, -⟩ := hedge edge he
    have hkey := Keyed.isSome_find?_iff.mpr (hwell.ends found hfound).1
    have hsome := congrArg Option.isSome (hnodes found.source)
    rw [Option.isSome_map, Option.isSome_map, Document.node?, hkey] at hsome
    obtain ⟨node, hn⟩ := Option.isSome_iff_exists.mp hsome.symm
    have hmem := mem_values_of_node? hn
    rw [hnil] at hmem
    cases hmem
  · intro node hn hbreak
    obtain ⟨found, hfound, heq⟩ := hnode node hn
    have hid : found.id = node.id := by
      simpa [Node.unplaced] using congrArg Node.id heq
    have hpart := Identifier.isPart_of_mem (hwell.ids found hfound) (hid ▸ hbreak)
    revert hpart
    decide
  · intro node hn
    obtain ⟨found, hfound, heq⟩ := hnode node hn
    have hlabel : found.label = node.label := by
      simpa [Node.unplaced] using congrArg Node.label heq
    rw [← hlabel]
    exact (hwell.labels found hfound).2
  · intro edge he label hl
    obtain ⟨found, hfound, heq⟩ := hedge edge he
    have hlabel : found.label = shownLabel edge := by
      simpa [Edge.unnamed, Edge.shown] using congrArg Edge.label heq
    by_cases hne : label = ""
    · subst hne
      decide
    · rw [shownLabel_eq_some.mpr ⟨hl, hne⟩] at hlabel
      exact (hwell.edgeLabels found hfound label hlabel).2.2
  · intro node hn
    obtain ⟨found, hfound, heq⟩ := hnode node hn
    have hstyle : found.style = node.style := by
      simpa [Node.unplaced] using congrArg Node.style heq
    rw [← hstyle]
    exact hwell.nodeStyles found hfound
  · intro edge he
    obtain ⟨found, hfound, heq⟩ := hedge edge he
    have hstyle : found.style = edge.style := by
      simpa [Edge.unnamed, Edge.shown] using congrArg Edge.style heq
    rw [← hstyle]
    exact hwell.edgeStyles found hfound

theorem arrows_of_reading (hlegible : d.IsLegible) (hlinks : (links d).map Link.edge = d.edges)
    {reading : Reading} (hread : readChars (writeChars d) = .ok (.ok reading))
    (hedges : reading.document.edges.map Edge.unnamed = d.edges.map Edge.shown) :
    ∀ link ∈ links d, link.ArrowStands := by
  have hwritable := hlegible.isWritable
  obtain ⟨lines, hlines, hwritten⟩ := readChars_writeChars hwritable
  rw [hread, Except.ok.injEq, Except.ok.injEq] at hwritten
  have hread : reading.document.edges.map Edge.arrow = (links d).filterMap fun link =>
      (Statement.ofLine (linkContent link)).edge?.map fun e => e.2.1.kind := by
    rw [hwritten, Draft.map_edges_finish hlines _ _ (fun _ _ => rfl) (fun _ _ => rfl),
      filterMap_edge?, List.map_filterMap]
  have hlinked : reading.document.edges.map Edge.arrow = (links d).map (·.edge.arrow) := by
    have harrows := congrArg (List.map Edge.arrow) hedges
    rw [List.map_map, List.map_map] at harrows
    have hedge : (links d).map (·.edge.arrow) = ((links d).map Link.edge).map Edge.arrow := by
      rw [List.map_map]
      rfl
    rw [hedge, hlinks]
    exact harrows
  rw [hread, List.filterMap_eq_map_iff_forall_eq_some] at hlinked
  intro link hl
  obtain ⟨⟨source, arrow, target⟩, he, hkind⟩ := Option.map_eq_some_iff.mp (hlinked link hl)
  have hline : Statement.ofLine (linkContent link) = .edge source arrow target := by
    cases hs : Statement.ofLine (linkContent link) <;> rw [hs] at he <;> cases he
    rfl
  by_contra hstands
  obtain ⟨hs, ht⟩ := isWritable_ends hwritable hl
  exact kind_ne_of_ofLine_linkContent hs ht hstands hline hkind

theorem RoundTrips.isTextSafe (hround : d.RoundTrips) (hregular : d.IsRegular)
    (hsilent : d.IsSilent) : d.IsTextSafe := by
  have hfits := hround.fitsLines hregular.keyed
  have hlegible := hfits.isLegible hregular hsilent
  obtain ⟨reading, hread, hnodes, hedges⟩ := hround.exists_reading
  have hlinks := map_edge_links_eq (hsilent.ends hfits.edges)
  have harrows := arrows_of_reading hlegible hlinks hread hedges
  obtain ⟨written, hwritten, -, -, -, hreadNodes, hreadEdges⟩ :=
    readChars_written hlegible.isWritable fun _ hl => hlegible.isCut hl (harrows _ hl)
  rw [hread, Except.ok.injEq, Except.ok.injEq] at hwritten
  subst hwritten
  refine { hfits with arrows := harrows, nodeStyleEnds := ?_, edgeStyleEnds := ?_ }
  · intro node hn
    have hfound := hnodes node.id
    rw [hreadNodes, (node?_eq_some_iff hregular.keyed).mpr ⟨hn, rfl⟩, Option.map_some,
      Option.map_some, Option.map_some, Option.some.injEq] at hfound
    have hstyle : readNodeStyle node.style = node.style := by
      simpa [Node.unplaced, readNode] using congrArg Node.style hfound
    exact (readNodeStyle_eq_iff (hlegible.nodeStyles node hn).1).mp hstyle
  · intro edge he
    rw [← hlinks] at he
    obtain ⟨link, hl, rfl⟩ := List.mem_map.mp he
    obtain ⟨i, hi⟩ := List.mem_iff_getElem?.mp hl
    have hstyles := congrArg (fun l => (l[i]?).map Edge.style) hedges
    simp only [hreadEdges, ← hlinks, List.getElem?_map, List.getElem?_mapIdx, hi, Option.map_some,
      Option.some.injEq] at hstyles
    have hstyle : readEdgeStyle link.edge.style = link.edge.style := by
      simpa [Edge.unnamed, readEdge, Edge.shown] using hstyles
    have hdeclarable := (hlegible.edgeStyles _ (mem_links_iff.mp hl).1).1
    exact (readEdgeStyle_eq_iff hdeclarable).mp hstyle

/-- A regular document without errors and warnings comes back from its text exactly if it is safe.
-/
theorem roundTrips_iff_isTextSafe (hregular : d.IsRegular) (hsilent : d.IsSilent) :
    d.RoundTrips ↔ d.IsTextSafe :=
  ⟨fun hround => hround.isTextSafe hregular hsilent, fun hsafe => hsafe.roundTrips hregular hsilent⟩

end Exact

/-- Two nodes and an edge whose label holds a carriage return. -/
def brokenLabel : Document where
  kind := .flowchart
  direction := .topDown
  nodes := .ofValues Node.id
    [⟨"A", "A", .rectangle, .standard, none⟩, ⟨"B", "B", .rectangle, .standard, none⟩]
  edges := [⟨"e", "A", "B", some "one\rtwo", .plain, .standard⟩]

theorem isRegular_brokenLabel : brokenLabel.IsRegular where
  flow := by decide
  keyed := by decide +kernel
  nodeStyles := by decide +kernel
  edgeStyles := by decide +kernel
  size := by decide +kernel

/-- A carriage return in a label is lost without a warning. -/
theorem not_roundTrips_brokenLabel :
    brokenLabel.IsRegular ∧ brokenLabel.IsSilent ∧ ¬brokenLabel.RoundTrips := by
  have hsilent : brokenLabel.IsSilent := by
    unfold IsSilent
    decide +kernel
  refine ⟨isRegular_brokenLabel, hsilent, fun hround => ?_⟩
  have hsafe := (roundTrips_iff_isTextSafe isRegular_brokenLabel hsilent).mp hround
  have hline := hsafe.edgeLabels _ (List.mem_singleton_self _) _ rfl
  revert hline
  decide +kernel

end Document
end Flowchart
