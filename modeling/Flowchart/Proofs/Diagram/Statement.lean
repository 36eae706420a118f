import Flowchart.Proofs.Diagram.Draft
import Flowchart.Proofs.Grammar.StyleLine

/-! What a line says is told by conditions on the line itself, whatever the order in which it is
tested: each line says one thing only. -/
namespace Flowchart

def EdgeStyleLine.accepted? (line : List Char) : Option EdgeStyleLine :=
  (read? line).bind Except.toOption

section StyleLines

variable {line : List Char}

theorem EdgeStyleLine.accepted?_eq_some_iff {style : EdgeStyleLine} :
    accepted? line = some style ↔ read? line = some (.ok style) := by
  unfold accepted?
  cases read? line with
  | none => simp
  | some result => cases result <;> simp [Except.toOption]

theorem NodeStyleLine.exists_drop?_of_read? {style : NodeStyleLine} (h : read? line = some style) :
    ∃ rest, Keyword.drop? "style" line = some rest ∧ (Keyword.afterBlanks? rest).isSome := by
  simp only [read?, Option.bind_eq_bind, Option.bind_eq_some_iff] at h
  obtain ⟨tail, ⟨rest, hdrop, htail⟩, -⟩ := h
  exact ⟨rest, hdrop, by simp [htail]⟩

theorem EdgeStyleLine.exists_drop?_of_read? {result : Except PositionError EdgeStyleLine}
    (h : read? line = some result) :
    ∃ rest, Keyword.drop? "linkStyle" line = some rest ∧ (Keyword.afterBlanks? rest).isSome := by
  simp only [read?, Option.bind_eq_bind, Option.bind_eq_some_iff] at h
  obtain ⟨tail, ⟨rest, hdrop, htail⟩, -⟩ := h
  exact ⟨rest, hdrop, by simp [htail]⟩

theorem Keyword.drop?_style_eq_none {rest : List Char} (h : drop? "linkStyle" line = some rest) :
    drop? "style" line = none := by
  obtain rfl := drop?_eq_some_iff.mp h
  rfl

theorem Keyword.startsStyle_iff : startsStyle line = true ↔ ∃ keyword ∈ ["style", "linkStyle"],
    ∃ c rest, drop? keyword line = some (c :: rest) ∧ Text.isBlank c = true := by
  have hany : ∀ rest : Option (List Char),
      rest.any (fun s => (s.head?.map Text.isBlank).getD false) = true ↔
        ∃ c t, rest = some (c :: t) ∧ Text.isBlank c = true := by
    rintro (- | - | ⟨c, t⟩) <;> simp
  unfold startsStyle
  rw [hany]
  simp only [List.mem_cons, List.not_mem_nil, or_false, exists_eq_or_imp, exists_eq_left]
  cases hlink : drop? "linkStyle" line with
  | none => simp
  | some rest => simp [drop?_style_eq_none hlink]

theorem Keyword.startsStyle_of_afterBlanks? {keyword : String} {rest : List Char}
    (hk : keyword ∈ ["style", "linkStyle"]) (h : drop? keyword line = some rest)
    (ha : (afterBlanks? rest).isSome) : startsStyle line = true := by
  cases rest with
  | nil => cases ha
  | cons c rest =>
    refine startsStyle_iff.mpr ⟨keyword, hk, c, rest, h, ?_⟩
    by_contra hc
    rw [afterBlanks?, if_neg hc] at ha
    cases ha

theorem Keyword.isStructural_of_startsStyle (h : startsStyle line = true) :
    isStructural line = false := by
  obtain ⟨keyword, hk, c, rest, hdrop, -⟩ := startsStyle_iff.mp h
  exact isStructural_of_drop? hk hdrop

theorem NodeStyleLine.startsStyle_of_read? {style : NodeStyleLine} (h : read? line = some style) :
    Keyword.startsStyle line = true := by
  obtain ⟨rest, hdrop, hafter⟩ := exists_drop?_of_read? h
  exact Keyword.startsStyle_of_afterBlanks? (by simp) hdrop hafter

theorem EdgeStyleLine.startsStyle_of_read? {result : Except PositionError EdgeStyleLine}
    (h : read? line = some result) : Keyword.startsStyle line = true := by
  obtain ⟨rest, hdrop, hafter⟩ := exists_drop?_of_read? h
  exact Keyword.startsStyle_of_afterBlanks? (by simp) hdrop hafter

theorem NodeStyleLine.read?_eq_none (h : Keyword.startsStyle line = false) : read? line = none := by
  rw [Option.eq_none_iff_forall_ne_some]
  intro style hstyle
  simp [startsStyle_of_read? hstyle] at h

theorem EdgeStyleLine.read?_eq_none (h : Keyword.startsStyle line = false) : read? line = none := by
  rw [Option.eq_none_iff_forall_ne_some]
  intro result hresult
  simp [startsStyle_of_read? hresult] at h

theorem NodeStyleLine.read?_eq_none_of_edgeStyle {result : Except PositionError EdgeStyleLine}
    (h : EdgeStyleLine.read? line = some result) : read? line = none := by
  obtain ⟨rest, hdrop, -⟩ := EdgeStyleLine.exists_drop?_of_read? h
  simp [read?, Keyword.drop?_style_eq_none hdrop]

end StyleLines

namespace Statement

variable {line : List Char} {s : Statement}

/-- What a line says, with what was found in it. -/
inductive Says (line : List Char) : Statement → Prop
  | structural (hfree : ArrowMatch.find? line = none) (h : Keyword.isStructural line = true) :
      Says line .structural
  | nodeStyle {style} (h : NodeStyleLine.read? line = some style) : Says line (.nodeStyle style)
  | edgeStyle {style} (h : EdgeStyleLine.read? line = some (.ok style)) :
      Says line (.edgeStyle style)
  | broken {e} (h : EdgeStyleLine.read? line = some (.error e)) : Says line (.broken e)
  | node {ref} (hfree : ArrowMatch.find? line = none) (hplain : Keyword.isStructural line = false)
      (hkeyword : Keyword.startsStyle line = false) (h : NodeRef.read? line = some ref) :
      Says line (.node ref)
  | edge {found source target} (h : ArrowMatch.find? line = some found)
      (hnode : NodeStyleLine.read? line = none) (hedge : EdgeStyleLine.read? line = none)
      (hs : NodeRef.read? found.before = some source)
      (ht : NodeRef.read? found.after = some target) : Says line (.edge source found.arrow target)
  | malformedStyle (hfree : ArrowMatch.find? line = none)
      (hkeyword : Keyword.startsStyle line = true) (hnode : NodeStyleLine.read? line = none)
      (hedge : EdgeStyleLine.read? line = none) : Says line (.skipped .malformedStyle)
  | notNodeOrEdge (hfree : ArrowMatch.find? line = none)
      (hplain : Keyword.isStructural line = false) (hkeyword : Keyword.startsStyle line = false)
      (h : NodeRef.read? line = none) : Says line (.skipped .notNodeOrEdge)
  | malformedEndpoint {found} (h : ArrowMatch.find? line = some found)
      (hnode : NodeStyleLine.read? line = none) (hedge : EdgeStyleLine.read? line = none)
      (hend : NodeRef.read? found.before = none ∨ NodeRef.read? found.after = none) :
      Says line (.skipped .malformedEndpoint)

theorem says_ofLine (line : List Char) : Says line (ofLine line) := by
  simp only [ofLine]
  split_ifs with hstructural
  · rw [Bool.and_eq_true, Option.isNone_iff_eq_none] at hstructural
    exact .structural hstructural.1 hstructural.2
  split
  · next h => exact .nodeStyle h
  next hnode =>
  split
  · next h => exact .edgeStyle h
  · next h => exact .broken h
  next hedge =>
  split
  · next hfree =>
    have hplain : Keyword.isStructural line = false := by simpa [hfree] using hstructural
    unfold ofPlainLine
    split_ifs with hkeyword
    · exact .malformedStyle hfree hkeyword hnode hedge
    rw [Bool.not_eq_true] at hkeyword
    split
    · next h => exact .node hfree hplain hkeyword h
    · next h => exact .notNodeOrEdge hfree hplain hkeyword h
  · next found h =>
    unfold ofArrow
    split
    · next hs ht => exact .edge h hnode hedge hs ht
    · next hne =>
      refine .malformedEndpoint h hnode hedge ?_
      by_contra hends
      rw [not_or, ← Ne, ← Ne, Option.ne_none_iff_exists', Option.ne_none_iff_exists'] at hends
      obtain ⟨⟨source, hs⟩, target, ht⟩ := hends
      exact hne source target hs ht

theorem Says.eq_ofLine (h : Says line s) : s = ofLine line := by
  cases h with
  | structural hfree h => simp [ofLine, hfree, h]
  | nodeStyle h =>
    have hplain := Keyword.isStructural_of_startsStyle (NodeStyleLine.startsStyle_of_read? h)
    simp [ofLine, hplain, h]
  | edgeStyle h =>
    have hplain := Keyword.isStructural_of_startsStyle (EdgeStyleLine.startsStyle_of_read? h)
    simp [ofLine, hplain, NodeStyleLine.read?_eq_none_of_edgeStyle h, h]
  | broken h =>
    have hplain := Keyword.isStructural_of_startsStyle (EdgeStyleLine.startsStyle_of_read? h)
    simp [ofLine, hplain, NodeStyleLine.read?_eq_none_of_edgeStyle h, h]
  | node hfree hplain hkeyword h =>
    simp [ofLine, hfree, hplain, NodeStyleLine.read?_eq_none hkeyword,
      EdgeStyleLine.read?_eq_none hkeyword, ofPlainLine, hkeyword, h]
  | edge h hnode hedge hs ht => simp [ofLine, h, hnode, hedge, ofArrow, hs, ht]
  | malformedStyle hfree hkeyword hnode hedge =>
    simp [ofLine, hfree, Keyword.isStructural_of_startsStyle hkeyword, hnode, hedge, ofPlainLine,
      hkeyword]
  | notNodeOrEdge hfree hplain hkeyword h =>
    simp [ofLine, hfree, hplain, NodeStyleLine.read?_eq_none hkeyword,
      EdgeStyleLine.read?_eq_none hkeyword, ofPlainLine, hkeyword, h]
  | @malformedEndpoint found h hnode hedge hend =>
    have harrow : ofArrow found = .skipped .malformedEndpoint := by
      unfold ofArrow
      split
      · next hs ht => simp [hs, ht] at hend
      · rfl
    simp [ofLine, h, hnode, hedge, harrow]

theorem says_iff : Says line s ↔ s = ofLine line :=
  ⟨Says.eq_ofLine, fun h => h ▸ says_ofLine line⟩

theorem nodeStyle?_ofLine (line : List Char) :
    (ofLine line).nodeStyle? = NodeStyleLine.read? line := by
  have hsays := says_ofLine line
  cases h : NodeStyleLine.read? line with
  | some style =>
    rw [← (Says.nodeStyle h).eq_ofLine]
    rfl
  | none =>
    cases hs : ofLine line with
    | nodeStyle style =>
      rw [hs] at hsays
      cases hsays with
      | nodeStyle hstyle => exact hstyle.symm.trans h
    | _ => rfl

theorem edgeStyle?_ofLine (line : List Char) :
    (ofLine line).edgeStyle? = EdgeStyleLine.accepted? line := by
  have hsays := says_ofLine line
  cases h : EdgeStyleLine.accepted? line with
  | some style =>
    rw [← (Says.edgeStyle (EdgeStyleLine.accepted?_eq_some_iff.mp h)).eq_ofLine]
    rfl
  | none =>
    cases hs : ofLine line with
    | edgeStyle style =>
      rw [hs] at hsays
      cases hsays with
      | edgeStyle hstyle => exact (EdgeStyleLine.accepted?_eq_some_iff.mpr hstyle).symm.trans h
    | _ => rfl

end Statement
end Flowchart
