import Flowchart.Graph.Json
import Flowchart.Proofs.Graph.Keyed
import Flowchart.Schema.Graph

/-! The JSON form of a document is read as the document. What is read of any JSON value has its nodes
under their own ids, and is its own JSON form from then on. -/
namespace Flowchart

theorem DiagramKind.ofName?_name (kind : DiagramKind) : ofName? kind.name = some kind := by
  cases kind <;> rfl

theorem Direction.ofName?_name (direction : Direction) :
    ofName? direction.name = some direction := by
  cases direction <;> rfl

theorem NodeShape.ofName?_name (shape : NodeShape) : ofName? shape.name = some shape := by
  cases shape <;> rfl

theorem ArrowKind.ofName?_name (kind : ArrowKind) : ofName? kind.name = some kind := by
  cases kind <;> rfl

theorem FontWeight.ofName?_name (weight : FontWeight) : ofName? weight.name = some weight := by
  cases weight <;> rfl

namespace Schema

namespace Checked

variable {α β : Type}

@[simp] theorem map_valid (f : α → β) (a : α) : f <$> valid a = valid (f a) := rfl

@[simp] theorem seq_valid (f : α → β) (a : α) : valid f <*> valid a = valid (f a) := rfl

theorem map_eq_valid_iff {f : α → β} {c : Checked α} {b : β} :
    f <$> c = valid b ↔ ∃ a, c = valid a ∧ f a = b := by
  cases c with
  | valid a => simp
  | invalid errors => exact iff_of_false nofun nofun

theorem seq_eq_valid_iff {f : Checked (α → β)} {c : Checked α} {b : β} :
    f <*> c = valid b ↔ ∃ g a, f = valid g ∧ c = valid a ∧ g a = b := by
  cases f with
  | valid g =>
    cases c with
    | valid a => simp
    | invalid errors => exact iff_of_false nofun nofun
  | invalid errors => cases c <;> exact iff_of_false nofun nofun

@[simp] theorem within_eq_valid_iff {step : PathStep} {c : Checked α} {a : α} :
    c.within step = valid a ↔ c = valid a := by
  cases c <;> simp [within]

end Checked

section Fields

variable {α : Type} {fields : List (String × Json)} {key : String} {rule : Rule α} {a : α}

theorem required_eq_valid_iff :
    required fields key rule = .valid a ↔
      ∃ value, Json.field? fields key = some value ∧ rule value = .valid a := by
  unfold required
  cases Json.field? fields key with
  | none => exact iff_of_false nofun nofun
  | some value => simp

theorem optional_of_field? {value standard} (hf : Json.field? fields key = some value)
    (hr : rule value = .valid a) : optional fields key standard rule = .valid a := by
  unfold optional
  rw [hf]
  exact Checked.within_eq_valid_iff.mpr hr

end Fields

namespace Rule

variable {α : Type} {rule : Rule α} {write : α → Json}

/-- The rule reads what is written, and as what it was. -/
def Reads (rule : Rule α) (write : α → Json) : Prop :=
  ∀ a, rule (write a) = .valid a

theorem text_eq_valid_iff {value : Json} {s : String} :
    text value = .valid s ↔ value = .string s := by
  cases value <;> simp [text, Checked.refuse]

theorem reads_text : text.Reads .string := fun _ => rfl

theorem reads_number [Coercion] [LawfulCoercion] : number.Reads .ofReal :=
  LawfulCoercion.number_ofReal

theorem reads_flag [Coercion] [LawfulCoercion] : flag.Reads .bool :=
  LawfulCoercion.flag_bool

theorem reads_named {ofName? : String → Option α} {name : α → String}
    (h : ∀ a, ofName? (name a) = some a) (cause : Cause) :
    (named ofName? cause).Reads fun a => .string (name a) := by
  intro a
  simp only [named, h]

theorem Reads.orNull (h : rule.Reads write) (hnull : ∀ a, write a ≠ .null) :
    (Rule.orNull rule).Reads (.ofOption write) := by
  rintro (_ | a)
  · rfl
  · have hwritten := h a
    have hsome := hnull a
    unfold Json.ofOption
    dsimp only
    generalize write a = value at hwritten hsome
    cases value with
    | null => exact absurd rfl hsome
    | _ => simp only [Rule.orNull, hwritten, Checked.map]

end Rule

theorem choose_name {α : Type} {ofName? : String → Option α} {name : α → String}
    (h : ∀ a, ofName? (name a) = some a) (enumeration : String) (a : α) :
    choose enumeration ofName? (.string (name a)) = .ok a := by
  simp only [choose, h]

namespace Rule

theorem reads_shape : shape.Reads fun s => .string s.name :=
  reads_named NodeShape.ofName?_name _

theorem reads_arrow : arrow.Reads fun a => .string a.name :=
  reads_named ArrowKind.ofName?_name _

theorem reads_weight : weight.Reads fun w => .string w.name :=
  reads_named FontWeight.ofName?_name _

theorem reads_text? : (orNull text).Reads .ofString? :=
  reads_text.orNull nofun

section Records

variable [Coercion] [LawfulCoercion]

theorem reads_nodeStyle : nodeStyle.Reads NodeStyle.toJson := by
  intro style
  change NodeStyle.ofFields .standard _ = _
  unfold NodeStyle.ofFields
  rw [optional_of_field? rfl (reads_text _), optional_of_field? rfl (reads_text _),
    optional_of_field? rfl (reads_number _), optional_of_field? rfl (reads_text _),
    optional_of_field? rfl (reads_number _), optional_of_field? rfl (reads_weight _)]
  rfl

theorem reads_edgeStyle : edgeStyle.Reads EdgeStyle.toJson := by
  intro style
  change EdgeStyle.ofFields .standard _ = _
  unfold EdgeStyle.ofFields
  rw [optional_of_field? rfl (reads_text _), optional_of_field? rfl (reads_number _),
    optional_of_field? rfl (reads_text? _), optional_of_field? rfl (reads_flag _)]
  rfl

theorem reads_position : position.Reads Position.toJson := by
  intro place
  change Position.ofFields _ = _
  unfold Position.ofFields
  rw [optional_of_field? rfl (reads_number _), optional_of_field? rfl (reads_number _)]
  rfl

theorem reads_position? : (orNull position).Reads (.ofOption Position.toJson) :=
  reads_position.orNull fun _ => Json.noConfusion

end Records

end Rule
end Schema

open Schema

section Ends

variable {fields : List (String × Json)} {second key : String}

theorem Json.field?_concat (value : Json) (k : String) :
    field? (fields ++ [(key, value)]) k =
      (field? fields k).or (if key = k then some value else none) := by
  rw [field?, List.find?_append, field?]
  split_ifs with hk <;> cases fields.find? (·.1 == k) <;> simp [hk]

theorem Schema.resolveAlias_of_isSome (h : (Json.field? fields key).isSome) :
    resolveAlias second key fields = fields := by
  obtain ⟨value, hvalue⟩ := Option.isSome_iff_exists.mp h
  unfold resolveAlias
  rw [hvalue]
  cases Json.field? fields second <;> rfl

theorem Schema.field?_resolveAlias (k : String) : Json.field? (resolveAlias second key fields) k =
    if k = key then (Json.field? fields key).or (Json.field? fields second)
    else Json.field? fields k := by
  cases hkey : Json.field? fields key with
  | some value =>
    rw [resolveAlias_of_isSome (Option.isSome_of_eq_some hkey)]
    split_ifs with hk
    · rw [hk, hkey, Option.some_or]
    · rfl
  | none =>
    unfold resolveAlias
    rw [hkey, Option.none_or]
    cases hsecond : Json.field? fields second with
    | none =>
      split_ifs with hk
      · rw [hk]
        exact hkey
      · rfl
    | some value =>
      change Json.field? (fields ++ [(key, value)]) k = _
      rw [Json.field?_concat]
      by_cases hk : k = key
      · rw [hk, hkey, if_pos rfl, Option.none_or]
      · rw [if_neg hk, if_neg (Ne.symm hk), Option.or_none]

theorem Schema.resolveEnds_of_isSome (hsource : (Json.field? fields "source").isSome)
    (htarget : (Json.field? fields "target").isSome) : resolveEnds fields = fields := by
  rw [resolveEnds, resolveAlias_of_isSome hsource, resolveAlias_of_isSome htarget]

theorem Schema.field?_resolveEnds :
    Json.field? (resolveEnds fields) "source" =
        (Json.field? fields "source").or (Json.field? fields "from") ∧
      Json.field? (resolveEnds fields) "target" =
        (Json.field? fields "target").or (Json.field? fields "to") := by
  simp [resolveEnds, field?_resolveAlias]

end Ends

def Node.IsReadFrom [Coercion] (value : Json) (node : Node) : Prop :=
  ∃ freshId fields, value = .object fields ∧ Node.ofFields freshId fields = .valid node

/-- An edge is read from an object, its ends from `source` and `target`, or else from `from` and `to`.
-/
def Edge.IsReadFrom [Coercion] (value : Json) (e : Edge) : Prop :=
  ∃ freshId fields, value = .object fields ∧ Edge.ofFields freshId fields = .valid e ∧
    (Json.field? fields "source").or (Json.field? fields "from") = some (.string e.source) ∧
    (Json.field? fields "target").or (Json.field? fields "to") = some (.string e.target)

theorem Edge.ends_of_ofFields [Coercion] {freshId : String} {fields : List (String × Json)} {e : Edge}
    (h : Edge.ofFields freshId fields = .valid e) :
    (Json.field? fields "source").or (Json.field? fields "from") = some (.string e.source) ∧
      (Json.field? fields "target").or (Json.field? fields "to") = some (.string e.target) := by
  unfold Edge.ofFields at h
  simp only [Checked.seq_eq_valid_iff, Checked.map_eq_valid_iff, required_eq_valid_iff,
    Rule.text_eq_valid_iff] at h
  obtain ⟨_, style, ⟨_, kind, ⟨_, label, ⟨_, target, ⟨_, source, ⟨id, -, rfl⟩, ⟨_, hsource, rfl⟩, rfl⟩,
    ⟨_, htarget, rfl⟩, rfl⟩, -, rfl⟩, -, rfl⟩, -, rfl⟩ := h
  exact ⟨field?_resolveEnds.1.symm.trans hsource, field?_resolveEnds.2.symm.trans htarget⟩

section Elements

variable {α : Type}

/-- An element that is written has an id, and is read as it was whatever ids there are to draw. -/
def Document.ReadsElements (ofFields : IdSupply → List (String × Json) → Checked α)
    (write : α → Json) : Prop :=
  ∀ a, ∃ fields, write a = .object fields ∧ (Json.field? fields "id").isSome ∧
    ∀ supply, ofFields supply fields = .valid a

theorem Node.reads_toJson [Coercion] [LawfulCoercion] :
    Document.ReadsElements (fun supply => Node.ofFields supply.nodeId) Node.toJson := by
  intro node
  refine ⟨_, rfl, rfl, fun supply => ?_⟩
  dsimp only
  unfold Node.ofFields
  rw [optional_of_field? rfl (Rule.reads_text _), optional_of_field? rfl (Rule.reads_text _),
    optional_of_field? rfl (Rule.reads_shape _), optional_of_field? rfl (Rule.reads_nodeStyle _),
    optional_of_field? rfl (Rule.reads_position? _)]
  rfl

theorem Edge.reads_toJson [Coercion] [LawfulCoercion] :
    Document.ReadsElements (fun supply => Edge.ofFields supply.edgeId) Edge.toJson := by
  intro e
  refine ⟨_, rfl, rfl, fun supply => ?_⟩
  dsimp only
  unfold Edge.ofFields
  dsimp only
  rw [resolveEnds_of_isSome rfl rfl, optional_of_field? rfl (Rule.reads_text _),
    required_eq_valid_iff.mpr ⟨_, rfl, Rule.reads_text _⟩,
    required_eq_valid_iff.mpr ⟨_, rfl, Rule.reads_text _⟩,
    optional_of_field? rfl (Rule.reads_text? _), optional_of_field? rfl (Rule.reads_arrow _),
    optional_of_field? rfl (Rule.reads_edgeStyle _)]
  rfl

namespace Document

variable {ofFields : IdSupply → List (String × Json) → Checked α} {write : α → Json}

theorem readElements_map (h : ReadsElements ofFields write) (supply : IdSupply) (l : List α) :
    readElements ofFields supply (l.map write) = .ok (l, supply) := by
  induction l with
  | nil => rfl
  | cons a l ih =>
    obtain ⟨fields, hwrite, hid, hread⟩ := h a
    have hafter : supply.after fields = supply := if_pos hid
    rw [List.map_cons, hwrite]
    simp only [readElements, hread, hafter, ih]
    rfl

theorem forall₂_of_readElements {supply supply' : IdSupply} {values : List Json} {l : List α}
    (h : readElements ofFields supply values = .ok (l, supply')) :
    List.Forall₂ (fun value a => ∃ supply fields, value = .object fields ∧
      ofFields supply fields = .valid a) values l := by
  induction values generalizing supply l with
  | nil =>
    cases h
    exact .nil
  | cons value values ih =>
    cases value with
    | object fields =>
      simp only [readElements] at h
      cases hread : ofFields supply fields with
      | invalid errors =>
        rw [hread] at h
        cases h
      | valid a =>
        rw [hread] at h
        cases hrest : readElements ofFields (supply.after fields) values with
        | error e =>
          rw [hrest] at h
          cases h
        | ok rest =>
          rw [hrest] at h
          cases h
          exact .cons ⟨supply, fields, rfl, hread⟩ (ih hrest)
    | _ => cases h

end Document

end Elements

namespace Document

variable {d : Document}

/-- A document is read from its JSON form as it was, its nodes and edges in their order. -/
theorem ofJson_toJson [Coercion] [LawfulCoercion] (h : d.KeyedById) (supply : IdSupply) :
    ofJson supply d.toJson = .ok (d, supply) := by
  have hnodes : Keyed.ofValues Node.id d.nodes.values = d.nodes :=
    Keyed.KeyedBy.ofValues_values (Keyed.keyedBy_iff.mpr h)
  have hkind := choose_name DiagramKind.ofName?_name "DiagramType" d.kind
  have hdirection := choose_name Direction.ofName?_name "Direction" d.direction
  simp only [toJson, ofJson, ofFields, Json.field?]
  simp [nodeElements, elements, readElements_map Node.reads_toJson,
    readElements_map Edge.reads_toJson, DiagramKind.choose, Direction.choose, hkind, hdirection,
    hnodes, Except.mapError, bind, Except.bind]

/-- The document is made of the nodes and edges that are read from the values of fields. Of nodes with
the same id the last one stands where the first one does. -/
structure IsReadFrom [Coercion] (fields : List (String × Json)) (nodes : List Node) (d : Document) :
    Prop where
  nodeValues : ∃ values, nodeElements ((Json.field? fields "nodes").getD (.array [])) = .ok values ∧
    List.Forall₂ Node.IsReadFrom values nodes
  keys : d.nodes.keys = (nodes.map Node.id).eraseDups
  node? : ∀ id, d.node? id = nodes.reverse.find? (·.id = id)
  edgeValues : ∃ values, elements ((Json.field? fields "edges").getD (.array [])) = .ok values ∧
    List.Forall₂ Edge.IsReadFrom values d.edges

private theorem bind_eq_ok_iff {ε α β : Type} {x : Except ε α} {f : α → Except ε β} {b : β} :
    x >>= f = .ok b ↔ ∃ a, x = .ok a ∧ f a = .ok b := by
  cases x <;> simp [bind, Except.bind]

theorem exists_isReadFrom_of_ofFields [Coercion] {supply supply' : IdSupply} {fields : List (String × Json)}
    (h : ofFields supply fields = .ok (d, supply')) :
    ∃ nodes, IsReadFrom fields nodes d ∧ d.nodes = .ofValues Node.id nodes := by
  unfold ofFields at h
  simp only [bind_eq_ok_iff, Prod.exists] at h
  obtain ⟨nodeValues, hnodeValues, nodes, supply₁, hnodes, edgeValues, hedgeValues, edges, supply₂,
    hedges, kind, -, direction, -, hd⟩ := h
  cases hd
  refine ⟨nodes, ⟨⟨nodeValues, hnodeValues, ?_⟩, ?_, ?_, ⟨edgeValues, hedgeValues, ?_⟩⟩, rfl⟩
  · refine (forall₂_of_readElements hnodes).imp ?_
    rintro value node ⟨s, fields, hvalue, hread⟩
    exact ⟨s.nodeId, fields, hvalue, hread⟩
  · exact (Keyed.keys_ofValues Node.id nodes).trans (Keyed.foldl_addKey_nil _)
  · exact fun id => Keyed.find?_ofValues nodes id
  · refine (forall₂_of_readElements hedges).imp ?_
    rintro value e ⟨s, fields, hvalue, hread⟩
    exact ⟨s.edgeId, fields, hvalue, hread, Edge.ends_of_ofFields hread⟩

theorem exists_isReadFrom_of_ofJson [Coercion] {supply supply' : IdSupply} {value : Json}
    (h : ofJson supply value = .ok (d, supply')) :
    d.KeyedById ∧ ∃ fields nodes, value = .object fields ∧ IsReadFrom fields nodes d := by
  cases value with
  | object fields =>
    obtain ⟨nodes, hread, hnodes⟩ := exists_isReadFrom_of_ofFields h
    refine ⟨?_, fields, nodes, rfl, hread⟩
    rw [KeyedById, ← Keyed.keyedBy_iff, hnodes]
    exact fun id node hnode => (Keyed.mem_of_find?_ofValues hnode).2
  | _ => cases h

/-- Documents and their JSON forms go back and forth: a document with its nodes under their own ids is
read from its JSON form as it was, and what is read of any JSON value is such a document, made of the
nodes and edges of the value, whose JSON form is read as what gives that form again. -/
theorem json_roundTrip [Coercion] [LawfulCoercion] :
    (∀ d : Document, d.KeyedById → ∀ supply, ofJson supply d.toJson = .ok (d, supply)) ∧
    ∀ value supply d supply', ofJson supply value = .ok (d, supply') →
      d.KeyedById ∧ (∃ fields nodes, value = .object fields ∧ IsReadFrom fields nodes d) ∧
        ∀ supply, (ofJson supply d.toJson).map (·.1.toJson) = .ok d.toJson := by
  refine ⟨fun d h supply => ofJson_toJson h supply, fun value supply d supply' h => ?_⟩
  obtain ⟨hkeyed, hread⟩ := exists_isReadFrom_of_ofJson h
  refine ⟨hkeyed, hread, fun supply => ?_⟩
  rw [ofJson_toJson hkeyed]
  rfl

/-- Nodes under keys that are not their ids, one id given twice and one not at all, and an edge whose
second end dangles. -/
def looseJson : Json :=
  .object
    [("nodes", .object
      [("first", .object [("id", .string "A")]),
       ("second", .object [("label", .string "B"), ("position", .object [])]),
       ("third", .object [("id", .string "A"), ("label", .string "New")])]),
     ("edges", .array [.object [("from", .string "A"), ("to", .string "X"), ("label", .null)]])]

theorem json_roundTrip_looseJson : ∃ d supply, ofJson .first looseJson = .ok (d, supply) ∧
    d.nodes.keys = ["A", "n00000001"] ∧ (d.node? "A").map Node.label = some "New" ∧
    d.edges.map (fun e => (e.id, e.source, e.target)) = [("e00000002", "A", "X")] ∧
    ofJson supply d.toJson = .ok (d, supply) := by
  refine ⟨_, _, rfl, ?_, ?_, ?_, ?_⟩
  · decide +kernel
  · decide +kernel
  · decide +kernel
  · obtain ⟨hkeyed, -⟩ := json_roundTrip.2 looseJson .first _ _ rfl
    exact json_roundTrip.1 _ hkeyed _

end Document
end Flowchart
