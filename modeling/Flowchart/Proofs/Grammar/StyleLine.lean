import Flowchart.Grammar.StyleLine
import Flowchart.Proofs.Grammar.NodeRef
import Flowchart.Proofs.Number.Whole

/-! Keywords count only as whole words, so a line that begins with a node text is never taken for
one of them, and the style lines for nodes and edges are read back. -/
namespace Flowchart

open Text

namespace Keyword

variable {s front rest : List Char} {c : Char} {keyword : String}

def GoesOn (s : List Char) : Prop :=
  ∃ c rest, s = c :: rest ∧ isBlank c = false

theorem GoesOn.afterBlanks? (h : GoesOn s) : afterBlanks? s = none := by
  obtain ⟨c, rest, rfl, hc⟩ := h
  simp [Keyword.afterBlanks?, hc]

theorem afterBlanks?_cons (h : GoesOn s) : Keyword.afterBlanks? (' ' :: s) = some s := by
  obtain ⟨c, rest, rfl, hc⟩ := h
  have hb : isBlank ' ' = true := by decide
  simp [Keyword.afterBlanks?, hb, hc]

private theorem goesOn_drop {n : Nat} (hn : n ≤ front.length)
    (hf : ∀ c ∈ front, isBlank c = false) (hc : isBlank c = false) :
    GoesOn ((front ++ c :: rest).drop n) := by
  rw [List.drop_append_of_le_length hn]
  cases hd : front.drop n with
  | nil => exact ⟨c, rest, rfl, hc⟩
  | cons d ds =>
    have hmem : d ∈ front.drop n := by simp [hd]
    exact ⟨d, ds ++ c :: rest, rfl, hf d (List.mem_of_mem_drop hmem)⟩

private theorem mem_take {n : Nat} (hn : front.length < n) : c ∈ (front ++ c :: rest).take n := by
  obtain ⟨k, rfl⟩ : ∃ k, n = front.length + (k + 1) := ⟨n - front.length - 1, by omega⟩
  rw [List.take_length_add_append]
  simp

theorem goesOn_of_dropAnyCase? (hf : ∀ c ∈ front, isBlank c = false) (hb : isBlank c = false)
    (hc : foldChar c ∉ keyword.toList) (hs : dropAnyCase? keyword (front ++ c :: rest) = some s) :
    GoesOn s := by
  simp only [dropAnyCase?] at hs
  split_ifs at hs with heq
  cases hs
  refine goesOn_drop ?_ hf hb
  by_contra hn
  apply hc
  rw [← beq_iff_eq.mp heq]
  exact List.mem_map_of_mem (mem_take (by omega))

theorem goesOn_of_drop? (hf : ∀ c ∈ front, isBlank c = false) (hb : isBlank c = false)
    (hc : c ∉ keyword.toList) (hs : drop? keyword (front ++ c :: rest) = some s) : GoesOn s := by
  unfold drop? at hs
  split_ifs at hs with hpre
  cases hs
  refine goesOn_drop ?_ hf hb
  by_contra hn
  apply hc
  have htake := List.prefix_iff_eq_take.mp (List.isPrefixOf_iff_prefix.mp hpre)
  rw [String.length_toList] at htake
  rw [htake]
  exact mem_take (by omega)

def structuralKeywords : List String :=
  ["subgraph", "end", "direction", "classdef", "class", "click"]

theorem isStructural_eq_false_of_goesOn (h : ∀ keyword ∈ structuralKeywords, ∀ rest,
    dropAnyCase? keyword s = some rest → GoesOn rest) : isStructural s = false := by
  have hafter : ∀ keyword ∈ structuralKeywords,
      (dropAnyCase? keyword s).bind afterBlanks? = none := by
    intro keyword hk
    cases hs : dropAnyCase? keyword s with
    | none => rfl
    | some rest => exact (h keyword hk rest hs).afterBlanks?
  have hsub : isSubgraphLine s = false := by
    unfold isSubgraphLine
    cases hs : dropAnyCase? "subgraph" s with
    | none => rfl
    | some rest =>
      obtain ⟨d, t, rfl, hd⟩ := h "subgraph" (by decide) rest hs
      exact hd
  have hend : isEndLine s = false := by
    unfold isEndLine
    cases hs : dropAnyCase? "end" s with
    | none => rfl
    | some rest =>
      obtain ⟨d, t, rfl, -⟩ := h "end" (by decide) rest hs
      rfl
  have hdirection := hafter "direction" (by decide)
  have hclassdef := hafter "classdef" (by decide)
  have hclass := hafter "class" (by decide)
  have hclick := hafter "click" (by decide)
  simp [isStructural, hsub, hend, isDirectionLine, hasArgument, hdirection, hclassdef, hclass,
    hclick]

section NodeText

private theorem not_mem_structural : ∀ c ∈ NodeShape.openers, ∀ keyword ∈ structuralKeywords,
    foldChar c ∉ keyword.toList := by decide

private theorem not_mem_style : ∀ c ∈ NodeShape.openers, ∀ keyword ∈ ["style", "linkStyle"],
    c ∉ keyword.toList := by decide

variable (hf : ∀ c ∈ front, isBlank c = false) (hc : c ∈ NodeShape.openers)
include hf hc

theorem isStructural_nodeText : isStructural (front ++ c :: rest) = false := by
  exact isStructural_eq_false_of_goesOn fun keyword hk _ hs =>
    goesOn_of_dropAnyCase? hf (NodeShape.isBlank_of_mem_openers hc)
      (not_mem_structural c hc keyword hk) hs

private theorem goesOn_nodeText {keyword : String} (hk : keyword ∈ ["style", "linkStyle"])
    (hs : drop? keyword (front ++ c :: rest) = some s) : GoesOn s := by
  exact goesOn_of_drop? hf (NodeShape.isBlank_of_mem_openers hc) (not_mem_style c hc keyword hk) hs

theorem startsStyle_nodeText : startsStyle (front ++ c :: rest) = false := by
  have hgoes : ∀ r, (drop? "style" (front ++ c :: rest)).or
      (drop? "linkStyle" (front ++ c :: rest)) = some r → GoesOn r := by
    intro r hr
    rcases Option.or_eq_some_iff.mp hr with hr | ⟨-, hr⟩
    · exact goesOn_nodeText hf hc (by simp) hr
    · exact goesOn_nodeText hf hc (by simp) hr
  unfold startsStyle
  cases hr : (drop? "style" (front ++ c :: rest)).or
    (drop? "linkStyle" (front ++ c :: rest)) with
  | none => rfl
  | some r =>
    obtain ⟨d, t, rfl, hd⟩ := hgoes r hr
    simp [hd]

theorem nodeStyleLine_nodeText : NodeStyleLine.read? (front ++ c :: rest) = none := by
  have hnone : (drop? "style" (front ++ c :: rest)).bind afterBlanks? = none := by
    cases hs : drop? "style" (front ++ c :: rest) with
    | none => rfl
    | some s => exact (goesOn_nodeText hf hc (by simp) hs).afterBlanks?
  simp [NodeStyleLine.read?, hnone]

theorem edgeStyleLine_nodeText : EdgeStyleLine.read? (front ++ c :: rest) = none := by
  have hnone : (drop? "linkStyle" (front ++ c :: rest)).bind afterBlanks? = none := by
    cases hs : drop? "linkStyle" (front ++ c :: rest) with
    | none => rfl
    | some s => exact (goesOn_nodeText hf hc (by simp) hs).afterBlanks?
  simp [EdgeStyleLine.read?, hnone]

end NodeText

theorem drop?_append (keyword : String) (s : List Char) :
    drop? keyword (keyword.toList ++ s) = some s := by
  rw [drop?, if_pos (by simp), ← String.length_toList, List.drop_left]

theorem drop?_eq_some_iff : drop? keyword s = some rest ↔ s = keyword.toList ++ rest := by
  constructor
  · intro h
    unfold drop? at h
    split_ifs at h with hpre
    cases h
    obtain ⟨t, rfl⟩ := List.isPrefixOf_iff_prefix.mp hpre
    rw [← String.length_toList, List.drop_left]
  · rintro rfl
    exact drop?_append keyword rest

theorem isStructural_of_drop? (hk : keyword ∈ ["style", "linkStyle"])
    (h : drop? keyword s = some rest) : isStructural s = false := by
  obtain rfl := drop?_eq_some_iff.mp h
  apply isStructural_eq_false_of_goesOn
  intro structural hs tail htail
  have hnone : dropAnyCase? structural (keyword.toList ++ rest) = none := by
    simp only [structuralKeywords, List.mem_cons, List.not_mem_nil, or_false] at hs hk
    rcases hk with rfl | rfl <;> rcases hs with rfl | rfl | rfl | rfl | rfl | rfl <;> rfl
  rw [hnone] at htail
  cases htail

theorem isStructural_style (s : List Char) : isStructural ("style ".toList ++ s) = false :=
  isStructural_of_drop? (by simp) (drop?_append "style" (' ' :: s))

theorem isStructural_linkStyle (s : List Char) :
    isStructural ("linkStyle ".toList ++ s) = false :=
  isStructural_of_drop? (by simp) (drop?_append "linkStyle" (' ' :: s))

end Keyword

theorem NodeStyleLine.read?_style {id text : List Char} (hid : Identifier.isIdentifier id = true)
    (ht : Keyword.GoesOn text) :
    read? ("style ".toList ++ (id ++ ' ' :: text)) = some ⟨id, Declaration.readAll text⟩ := by
  obtain ⟨c, cs, rfl, hc, -⟩ := Identifier.isIdentifier_iff.mp hid
  have hgoes : Keyword.GoesOn (c :: cs ++ ' ' :: text) :=
    ⟨c, cs ++ ' ' :: text, rfl, Identifier.isBlank_of_isPart (Identifier.isPart_of_isStart hc)⟩
  have hdrop := Keyword.drop?_append "style" (' ' :: (c :: cs ++ ' ' :: text))
  have hstop : ∀ d ∈ (' ' :: text).head?, Identifier.isPart d = false := by
    intro d hd
    obtain rfl : ' ' = d := by simpa using hd
    decide
  have hline : "style ".toList ++ (c :: cs ++ ' ' :: text) =
      "style".toList ++ ' ' :: (c :: cs ++ ' ' :: text) := rfl
  simp only [read?, hline, hdrop, Option.bind_eq_bind, Option.bind_some,
    Keyword.afterBlanks?_cons hgoes, Identifier.take?_append hid hstop,
    Keyword.afterBlanks?_cons ht]

namespace EdgeStyleLine

theorem isDigit_of_isDigit {c : Char} (h : c.isDigit = true) : Text.isDigit c = true := by
  simp [Text.isDigit, digitValue?_of_isDigit h]

theorem takePositions?_toDigits (n budget : Nat) {c : Char} {rest : List Char}
    (hc : isBlank c = false) (hcomma : c ≠ ',') :
    takePositions? (budget + 1) [] (Nat.toDigits 10 n ++ ' ' :: c :: rest) =
      some ([⟨[], Nat.toDigits 10 n, []⟩], c :: rest) := by
  have hdigits : ∀ d ∈ Nat.toDigits 10 n, Text.isDigit d = true :=
    fun d hd => isDigit_of_isDigit (Nat.isDigit_of_mem_toDigits (by omega) (by omega) hd)
  have hspace : Text.isDigit ' ' = false := by decide
  have hb : isBlank ' ' = true := by decide
  have htake : (Nat.toDigits 10 n ++ ' ' :: c :: rest).takeWhile Text.isDigit =
      Nat.toDigits 10 n := by
    simp [List.takeWhile_append_of_pos hdigits, hspace]
  have hdrop : (Nat.toDigits 10 n ++ ' ' :: c :: rest).dropWhile Text.isDigit =
      ' ' :: c :: rest := by
    simp [List.dropWhile_append_of_pos hdigits, hspace]
  have hlonger : (' ' :: c :: rest).dropWhile isBlank = c :: rest := by simp [hb, hc]
  rw [takePositions?, htake, hdrop]
  simp only [List.isEmpty_iff, Nat.toDigits_ne_nil, if_false, hlonger]
  have hgoes : Keyword.GoesOn (c :: rest) := ⟨c, rest, rfl, hc⟩
  split
  · next h =>
    split at h
    · next hcons =>
      cases hcons
      exact absurd rfl hcomma
    · cases h
  · rw [Keyword.afterBlanks?_cons hgoes]
    rfl

theorem value_toDigits {n : Nat} (hn : n < 10 ^ OversizedNumeral.limit) :
    PositionText.value ⟨[], Nat.toDigits 10 n, []⟩ = .ok n := by
  have hvalues : (Nat.toDigits 10 n).filterMap digitValue? = (Nat.toDigits 10 n).map digitNat := by
    rw [List.filterMap_congr fun d hd => digitValue?_of_isDigit
      (Nat.isDigit_of_mem_toDigits (by omega) (by omega) hd)]
    exact congrFun List.filterMap_eq_map' _
  have hlength : ¬OversizedNumeral.limit < (Nat.toDigits 10 n).length := by
    rw [not_lt]
    exact (Nat.length_toDigits_le_iff (by omega) (by decide)).mpr hn
  simp [PositionText.value, hvalues, Decimal.wholeOfDigits, hlength, Decimal.natOfDigits_toDigits]

theorem read?_linkStyle {n : Nat} {c : Char} {rest : List Char}
    (hn : n < 10 ^ OversizedNumeral.limit) (hc : isBlank c = false) (hcomma : c ≠ ',') :
    read? ("linkStyle ".toList ++ (Nat.toDigits 10 n ++ ' ' :: c :: rest)) =
      some (.ok ⟨some [n], Declaration.readAll (c :: rest)⟩) := by
  obtain ⟨d, ds, hd⟩ := List.exists_cons_of_ne_nil (Nat.toDigits_ne_nil (n := n) (b := 10))
  have hdigit : d.isDigit = true :=
    Nat.isDigit_of_mem_toDigits (by omega) (by omega) (hd ▸ List.mem_cons_self)
  have hgoes : Keyword.GoesOn (Nat.toDigits 10 n ++ ' ' :: c :: rest) :=
    ⟨d, ds ++ ' ' :: c :: rest, by rw [hd]; rfl, isBlank_of_isDigit hdigit⟩
  have hdrop := Keyword.drop?_append "linkStyle" (' ' :: (Nat.toDigits 10 n ++ ' ' :: c :: rest))
  have hline : "linkStyle ".toList ++ (Nat.toDigits 10 n ++ ' ' :: c :: rest) =
      "linkStyle".toList ++ ' ' :: (Nat.toDigits 10 n ++ ' ' :: c :: rest) := rfl
  have hdefault : Keyword.drop? "default" (Nat.toDigits 10 n ++ ' ' :: c :: rest) = none := by
    have hne : 'd' ≠ d := by
      rintro rfl
      exact absurd hdigit (by decide)
    rw [hd, Keyword.drop?, if_neg]
    simp [hne]
  have hbudget : (Nat.toDigits 10 n ++ ' ' :: c :: rest).length =
      (ds ++ ' ' :: c :: rest).length + 1 := by rw [hd]; rfl
  simp only [read?, hline, hdrop, Option.bind_eq_bind, Option.bind_some, Option.bind_none,
    Keyword.afterBlanks?_cons hgoes, hdefault, hbudget,
    takePositions?_toDigits n _ hc hcomma, PositionText.values, value_toDigits hn]
  rfl

end EdgeStyleLine

theorem NodeStyleLine.read?_linkStyle (s : List Char) :
    read? ("linkStyle ".toList ++ s) = none := by
  rfl

end Flowchart
