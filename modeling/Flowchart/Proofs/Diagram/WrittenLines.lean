import Flowchart.Proofs.Diagram.Contents
import Flowchart.Proofs.Diagram.StyleText
import Flowchart.Proofs.Grammar.StyleLine

/-! Every line that is written for a document is read as the statement it stands for, as long as its
ids, labels and style values fit on a line. -/
namespace Flowchart

open Text Diagram
open NumberedLine (contentOf? dropSemicolons contentOf?_blanks_append dropSemicolons_eq_self)

structure Node.IsWritable (node : Node) : Prop where
  id : Identifier.isIdentifier node.id.toList = true
  keeps : node.shape.keeps node.label.toList = true
  oneLine : OneLine node.label.toList

structure Node.IsLegible (node : Node) : Prop extends node.IsWritable where
  arrowFree : ArrowFree node.label.toList

def Edge.IsLegible (edge : Edge) : Prop :=
  ∀ label ∈ edge.label, OneLine label.toList ∧ '|' ∉ label.toList

namespace Diagram

def refOf (node : Node) : NodeRef :=
  ⟨node.id.toList, some (node.shape, node.label.toList)⟩

theorem exists_nodeText (node : Node) (rest : List Char) :
    ∃ c r, c ∈ NodeShape.openers ∧ nodeText node ++ rest = node.id.toList ++ c :: r := by
  obtain ⟨c, r, hw, hc⟩ := node.shape.exists_wrap node.label.toList
  exact ⟨c, r ++ rest, hc, by simp [nodeText, hw]⟩

theorem isBlank_of_mem_id {node : Node} (h : node.IsWritable) :
    ∀ c ∈ node.id.toList, isBlank c = false :=
  fun _ hc => Identifier.isBlank_of_isPart (Identifier.isPart_of_mem h.id hc)

theorem oneLine_nodeText {node : Node} (h : node.IsWritable) : OneLine (nodeText node) := by
  rw [nodeText, oneLine_append]
  exact ⟨Identifier.oneLine_of_isIdentifier h.id, NodeShape.oneLine_wrap h.oneLine⟩

theorem exists_cons_nodeText {node : Node} (h : node.IsWritable) (rest : List Char) :
    ∃ c r, nodeText node ++ rest = c :: r ∧ isBlank c = false ∧ c ≠ '%' := by
  obtain ⟨c, cs, hid, hc, -⟩ := Identifier.isIdentifier_iff.mp h.id
  have hpart := Identifier.isPart_of_isStart hc
  refine ⟨c, cs ++ node.shape.wrap node.label.toList ++ rest, by simp [nodeText, hid], ?_, ?_⟩
  · exact Identifier.isBlank_of_isPart hpart
  · exact Identifier.ne_of_isPart hpart (by decide)

theorem getLast?_nodeText {s : List Char} (node : Node) :
    ∀ c ∈ (s ++ nodeText node).getLast?, isBlank c = false ∧ c ≠ ';' := by
  intro c hc
  rw [nodeText, ← List.append_assoc] at hc
  have := node.shape.closing_chars c (NodeShape.getLast?_append_wrap hc)
  exact ⟨this.2.1, this.2.2.1⟩

theorem isBlank_of_mem_indent : ∀ c ∈ indent, isBlank c = true := by decide

section NodeLine

variable {node : Node}

theorem contentOf?_nodeText (h : node.IsWritable) :
    contentOf? (indent ++ nodeText node) = some (nodeText node) := by
  obtain ⟨c, r, hcons, hc, hp⟩ := exists_cons_nodeText h []
  rw [List.append_nil] at hcons
  have hlast := getLast?_nodeText (s := []) node
  rw [List.nil_append] at hlast
  rw [hcons] at hlast ⊢
  rw [contentOf?_blanks_append isBlank_of_mem_indent hc hp fun d hd => (hlast d hd).1,
    dropSemicolons_eq_self hlast]

theorem ofLine_nodeText (h : node.IsLegible) :
    Statement.ofLine (nodeText node) = .node (refOf node) := by
  have hfree : ArrowFree (nodeText node) := NodeRef.arrowFree_text h.id h.arrowFree
  obtain ⟨c, r, hc, hline⟩ := exists_nodeText node []
  rw [List.append_nil] at hline
  have hblank := isBlank_of_mem_id h.toIsWritable
  have hfind := ArrowMatch.find?_eq_none_iff.mpr hfree
  have hread : NodeRef.read? (nodeText node) = some (refOf node) := by
    have := NodeRef.read?_between (b := []) (e := []) (by simp) (by simp) h.id h.keeps
    simpa [nodeText, refOf] using this
  have hstructural : Keyword.isStructural (nodeText node) = false := by
    rw [hline, Keyword.isStructural_nodeText hblank hc]
  have hnode : NodeStyleLine.read? (nodeText node) = none := by
    rw [hline, Keyword.nodeStyleLine_nodeText hblank hc]
  have hedge : EdgeStyleLine.read? (nodeText node) = none := by
    rw [hline, Keyword.edgeStyleLine_nodeText hblank hc]
  have hstyle : Keyword.startsStyle (nodeText node) = false := by
    rw [hline, Keyword.startsStyle_nodeText hblank hc]
  simp [Statement.ofLine, Statement.ofPlainLine, hfind, hstructural, hnode, hedge, hstyle, hread]

end NodeLine

section LinkLine

def linkContent (link : Link) : List Char :=
  nodeText link.source ++ ' ' :: ((arrowOf link.edge).toText ++ ' ' :: nodeText link.target)

theorem linkText_eq (link : Link) : linkText link = indent ++ linkContent link := by
  simp [linkText, linkContent]

def shownLabel (edge : Edge) : Option String :=
  edge.label.filter (!·.isEmpty)

theorem shownLabel_eq_none {edge : Edge} :
    shownLabel edge = none ↔ ∀ label ∈ edge.label, label = "" := by
  simp [shownLabel]

theorem shownLabel_eq_some {edge : Edge} {label : String} :
    shownLabel edge = some label ↔ edge.label = some label ∧ label ≠ "" := by
  simp [shownLabel, Option.filter_eq_some_iff]

theorem toText_arrowOf (edge : Edge) :
    (arrowOf edge).toText = match shownLabel edge with
      | none => edge.arrow.token
      | some label => edge.arrow.token ++ '|' :: (label.toList ++ ['|']) := by
  cases hs : shownLabel edge with
  | none =>
    have hnone := shownLabel_eq_none.mp hs
    cases hl : edge.label with
    | none => simp [arrowOf, hl, Arrow.toText]
    | some label =>
      have := hnone label hl
      subst this
      simp [arrowOf, hl, Arrow.toText]
  | some label =>
    obtain ⟨hl, hne⟩ := shownLabel_eq_some.mp hs
    have hne' : label.toList ≠ [] := by simpa using hne
    obtain ⟨c, r, hc⟩ := List.exists_cons_of_ne_nil hne'
    simp [arrowOf, hl, hc, Arrow.toText]

/-- The label does not end in a token that is looked for before the token of the edge and that a bar
in the label of the target would complete. -/
def Link.ArrowStands (link : Link) : Prop :=
  ∀ label ∈ link.edge.label, ∀ kind ∈ link.edge.arrow.before, kind.token <:+ label.toList →
    '|' ∉ link.target.label.toList

variable {link : Link}

theorem contentOf?_linkText (hs : link.source.IsWritable) :
    contentOf? (linkText link) = some (linkContent link) := by
  obtain ⟨c, r, hcons, hc, hp⟩ := exists_cons_nodeText hs
    (' ' :: ((arrowOf link.edge).toText ++ ' ' :: nodeText link.target))
  have hlast := getLast?_nodeText
    (s := nodeText link.source ++ ' ' :: ((arrowOf link.edge).toText ++ [' '])) link.target
  have hline : nodeText link.source ++ ' ' :: ((arrowOf link.edge).toText ++ [' ']) ++
      nodeText link.target = linkContent link := by simp [linkContent]
  rw [hline] at hlast
  rw [linkText_eq]
  have hcons' : linkContent link = c :: r := hcons
  rw [hcons'] at hlast ⊢
  rw [contentOf?_blanks_append isBlank_of_mem_indent hc hp fun d hd => (hlast d hd).1,
    dropSemicolons_eq_self hlast]

theorem ofLine_of_find? (hs : link.source.IsWritable) {found : ArrowMatch}
    (hfind : ArrowMatch.find? (linkContent link) = some found) :
    Statement.ofLine (linkContent link) = Statement.ofArrow found := by
  obtain ⟨c, r, hc, hline⟩ := exists_nodeText link.source
    (' ' :: ((arrowOf link.edge).toText ++ ' ' :: nodeText link.target))
  have hblank := isBlank_of_mem_id hs
  have hnode : NodeStyleLine.read? (linkContent link) = none := by
    rw [linkContent, hline, Keyword.nodeStyleLine_nodeText hblank hc]
  have hedge : EdgeStyleLine.read? (linkContent link) = none := by
    rw [linkContent, hline, Keyword.edgeStyleLine_nodeText hblank hc]
  simp [Statement.ofLine, hfind, hnode, hedge]

theorem exists_find?_linkContent (link : Link) :
    ∃ found, ArrowMatch.find? (linkContent link) = some found := by
  cases hfind : ArrowMatch.find? (linkContent link) with
  | some found => exact ⟨found, rfl⟩
  | none =>
    have hfree := ArrowMatch.find?_eq_none_iff.mp hfind link.edge.arrow
    refine absurd ?_ hfree
    have htoken : link.edge.arrow.token <:+: (arrowOf link.edge).toText := by
      rw [toText_arrowOf]
      split
      · exact List.infix_rfl
      · exact (List.prefix_append _ _).isInfix
    refine htoken.trans ⟨nodeText link.source ++ [' '], ' ' :: nodeText link.target, ?_⟩
    simp [linkContent]

theorem ofArrow_cases (found : ArrowMatch) : (Statement.ofArrow found).error? = none ∧
    (Statement.ofArrow found).nodeStyle? = none ∧ (Statement.ofArrow found).edgeStyle? = none := by
  unfold Statement.ofArrow
  split
  · exact ⟨rfl, rfl, rfl⟩
  · exact ⟨rfl, rfl, rfl⟩

def shownArrow (edge : Edge) : Arrow :=
  ⟨edge.arrow, (shownLabel edge).map String.toList⟩

private theorem ofArrow_between {arrow : Arrow} {source target : Node} (hs : source.IsWritable)
    (ht : target.IsWritable) :
    Statement.ofArrow ⟨nodeText source ++ [' '], arrow, ' ' :: nodeText target⟩ =
      .edge (refOf source) arrow (refOf target) := by
  have hspace : ∀ c ∈ [' '], isBlank c = true := by decide
  have hsource := NodeRef.read?_between (b := []) (by simp) hspace hs.id hs.keeps
  have htarget := NodeRef.read?_between (e := []) hspace (by simp) ht.id ht.keeps
  rw [List.nil_append] at hsource
  rw [List.append_nil, List.singleton_append] at htarget
  rw [Statement.ofArrow, nodeText, nodeText, hsource, htarget]
  rfl

/-- The search for an arrow finds the one that is written between the ends of the link. -/
def Link.IsCut (link : Link) : Prop :=
  ArrowMatch.find? (linkContent link) =
    some ⟨nodeText link.source ++ [' '], shownArrow link.edge, ' ' :: nodeText link.target⟩

instance (link : Link) : Decidable link.IsCut :=
  inferInstanceAs (Decidable (_ = _))

/-- A link that is cut at its arrow is read back with its ends, its arrow and the label that is shown.
-/
theorem ofLine_linkContent (hs : link.source.IsWritable) (ht : link.target.IsWritable)
    (hc : link.IsCut) : Statement.ofLine (linkContent link) =
      .edge (refOf link.source) (shownArrow link.edge) (refOf link.target) := by
  rw [ofLine_of_find? hs hc, ofArrow_between hs ht]

/-- Between labels without arrows a link is cut at its arrow, as long as the arrow stands. -/
theorem isCut_of_arrowStands (hs : link.source.IsLegible) (ht : link.target.IsLegible)
    (hl : link.edge.IsLegible) (ha : link.ArrowStands) : link.IsCut := by
  have hsource : ArrowFree (nodeText link.source) := NodeRef.arrowFree_text hs.id hs.arrowFree
  have htarget : ArrowFree (nodeText link.target) := NodeRef.arrowFree_text ht.id ht.arrowFree
  rw [Link.IsCut, linkContent, toText_arrowOf, shownArrow]
  cases hshown : shownLabel link.edge with
  | none => exact ArrowMatch.find?_plain_between hsource htarget link.edge.arrow
  | some label =>
    obtain ⟨hlabel, hne⟩ := shownLabel_eq_some.mp hshown
    have hstands : ∀ k ∈ link.edge.arrow.before, k.token <:+ label.toList →
        '|' ∉ nodeText link.target := by
      intro k hk hend
      rw [nodeText, NodeRef.bar_mem_text ht.id]
      exact ha label hlabel k hk hend
    have := ArrowMatch.find?_labelled_between hsource htarget (by simpa using hne)
      (hl label hlabel).2 hstands
    simpa using this

/-- A link whose arrow does not stand is read with another arrow, if it is read at all. -/
theorem kind_ne_of_ofLine_linkContent (hs : link.source.IsWritable) (ht : link.target.IsWritable)
    (ha : ¬link.ArrowStands) {source target : NodeRef} {arrow : Arrow}
    (h : Statement.ofLine (linkContent link) = .edge source arrow target) :
    arrow.kind ≠ link.edge.arrow := by
  unfold Link.ArrowStands at ha
  push Not at ha
  obtain ⟨label, hlabel, k, hk, hend, hbar⟩ := ha
  have hne : label ≠ "" := by
    rintro rfl
    exact k.token_ne_nil (List.suffix_nil.mp hend)
  have hshown : shownLabel link.edge = some label := shownLabel_eq_some.mpr ⟨hlabel, hne⟩
  have hbar' : '|' ∈ nodeText link.target := by
    rw [nodeText, NodeRef.bar_mem_text ht.id]
    exact hbar
  obtain ⟨found, hfind, hkind⟩ := ArrowMatch.find?_hidden (s := nodeText link.source) hk hend hbar'
  have hline : linkContent link = nodeText link.source ++ ' ' :: (link.edge.arrow.token ++
      '|' :: (label.toList ++ '|' :: ' ' :: nodeText link.target)) := by
    rw [linkContent, toText_arrowOf, hshown]
    simp
  rw [← hline] at hfind
  rw [ofLine_of_find? hs hfind, Statement.ofArrow] at h
  split at h
  · cases h
    exact hkind
  · cases h

end LinkLine

section StyleLines

variable {node : Node} {link : Link}

def nodeStyleContent? (node : Node) : Option (List Char) :=
  match nodeStyleText node.style with
  | [] => none
  | text => some ("style ".toList ++ (node.id.toList ++ ' ' :: dropSemicolons text))

def edgeStyleContent? (position : Nat) (link : Link) : Option (List Char) :=
  match edgeStyleText link.edge.style with
  | [] => none
  | text => some ("linkStyle ".toList ++ (Nat.toDigits 10 position ++ ' ' :: dropSemicolons text))

theorem contentOf?_styleLine {c : Char} {s : List Char} {ds : List Declaration}
    (hc : isBlank c = false) (hp : c ≠ '%') (h : ∀ d ∈ ds, IsWritten d) (hne : ds ≠ []) :
    contentOf? (indent ++ c :: (s ++ ' ' :: styleText ds)) =
      some (c :: (s ++ ' ' :: dropSemicolons (styleText ds))) := by
  have hlast : ∀ d ∈ (c :: (s ++ ' ' :: styleText ds)).getLast?, isBlank d = false := by
    intro d hd
    have htext : styleText ds ≠ [] := fun hnil => hne ((styleText_eq_nil_iff h).mp hnil)
    have hline : c :: (s ++ ' ' :: styleText ds) = (c :: (s ++ [' '])) ++ styleText ds := by simp
    rw [hline, List.getLast?_append_of_ne_nil _ htext] at hd
    exact isBlank_getLast?_written h d hd
  rw [contentOf?_blanks_append isBlank_of_mem_indent hc hp hlast]
  have hline : ∀ t, c :: (s ++ ' ' :: t) = (c :: (s ++ [' '])) ++ t := by simp
  rw [hline, dropSemicolons_append_styleText _ hne, ← hline]

def nodeStyleStatement? (node : Node) : Option Statement :=
  match nodeStyleText node.style with
  | [] => none
  | text => some (.nodeStyle ⟨node.id.toList, Declaration.readAll (dropSemicolons text)⟩)

def edgeStyleStatement? (position : Nat) (link : Link) : Option Statement :=
  match edgeStyleText link.edge.style with
  | [] => none
  | text => some (.edgeStyle ⟨some [position], Declaration.readAll (dropSemicolons text)⟩)

theorem contentOf?_nodeStyleLine? (hs : node.style.IsDeclarable) :
    (nodeStyleLine? node).bind contentOf? = nodeStyleContent? node := by
  have hwritten := isWritten_of_mem_nodeDeclared hs
  rw [nodeStyleLine?, nodeStyleContent?, nodeStyleText_eq]
  by_cases hne : nodeDeclared node.style = []
  · rw [(styleText_eq_nil_iff hwritten).mpr hne]
    rfl
  · obtain ⟨c, r, htext, -⟩ := exists_written hwritten hne
    have hcontent := contentOf?_styleLine (c := 's') (s := "tyle ".toList ++ node.id.toList)
      (by decide) (by decide) hwritten hne
    rw [htext] at hcontent ⊢
    rw [Option.bind_some, List.append_assoc indent, List.append_assoc indent]
    exact hcontent.trans (by simp)

theorem contentOf?_edgeStyleLine? (position : Nat) (hs : link.edge.style.IsDeclarable) :
    (edgeStyleLine? position link).bind contentOf? = edgeStyleContent? position link := by
  have hwritten := isWritten_of_mem_edgeDeclared hs
  rw [edgeStyleLine?, edgeStyleContent?, edgeStyleText_eq]
  by_cases hne : edgeDeclared link.edge.style = []
  · rw [(styleText_eq_nil_iff hwritten).mpr hne]
    rfl
  · obtain ⟨c, r, htext, -⟩ := exists_written hwritten hne
    have hcontent := contentOf?_styleLine (c := 'l')
      (s := "inkStyle ".toList ++ Nat.toDigits 10 position) (by decide) (by decide) hwritten hne
    rw [htext] at hcontent ⊢
    rw [Option.bind_some, List.append_assoc indent, List.append_assoc indent]
    exact hcontent.trans (by simp)

theorem ofLine_nodeStyleContent? (hid : Identifier.isIdentifier node.id.toList = true)
    (hs : node.style.IsDeclarable) :
    (nodeStyleContent? node).map Statement.ofLine = nodeStyleStatement? node := by
  have hwritten := isWritten_of_mem_nodeDeclared hs
  rw [nodeStyleContent?, nodeStyleStatement?, nodeStyleText_eq]
  by_cases hne : nodeDeclared node.style = []
  · rw [(styleText_eq_nil_iff hwritten).mpr hne]
    rfl
  · obtain ⟨c, r, htext, -⟩ := exists_written hwritten hne
    obtain ⟨d, t, hdrop, hd, -⟩ := exists_dropSemicolons_written hwritten hne
    have hread := NodeStyleLine.read?_style hid ⟨d, t, hdrop, hd⟩
    have hstructural := Keyword.isStructural_style
      (node.id.toList ++ ' ' :: dropSemicolons (styleText (nodeDeclared node.style)))
    rw [htext] at hread hstructural ⊢
    simp only [Option.map_some, Statement.ofLine, hread, hstructural, Bool.and_false,
      Bool.false_eq_true, if_false]

theorem ofLine_edgeStyleContent? {position : Nat}
    (hp : position < 10 ^ OversizedNumeral.limit) (hs : link.edge.style.IsDeclarable) :
    (edgeStyleContent? position link).map Statement.ofLine = edgeStyleStatement? position link := by
  have hwritten := isWritten_of_mem_edgeDeclared hs
  rw [edgeStyleContent?, edgeStyleStatement?, edgeStyleText_eq]
  by_cases hne : edgeDeclared link.edge.style = []
  · rw [(styleText_eq_nil_iff hwritten).mpr hne]
    rfl
  · obtain ⟨c, r, htext, -⟩ := exists_written hwritten hne
    obtain ⟨d, t, hdrop, hd, hcomma⟩ := exists_dropSemicolons_written hwritten hne
    have hread := @EdgeStyleLine.read?_linkStyle position d t hp hd hcomma
    rw [← hdrop] at hread
    have hnode := NodeStyleLine.read?_linkStyle (Nat.toDigits 10 position ++
      ' ' :: dropSemicolons (styleText (edgeDeclared link.edge.style)))
    have hstructural := Keyword.isStructural_linkStyle (Nat.toDigits 10 position ++
      ' ' :: dropSemicolons (styleText (edgeDeclared link.edge.style)))
    rw [htext] at hread hnode hstructural ⊢
    simp only [Option.map_some, Statement.ofLine, hread, hnode, hstructural, Bool.and_false,
      Bool.false_eq_true, if_false]

end StyleLines

end Diagram
end Flowchart
