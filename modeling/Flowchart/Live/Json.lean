import Flowchart.Graph.Json
import Flowchart.Live.Sync

/-!
The JSON form of the state of a store and of a coordinator.
-/
namespace Flowchart.Live

def strings (ids : List String) : Json :=
  .array (ids.map .string)

def Store.toJson (s : Store) : Json :=
  .object
    [("document", s.document.toJson),
     ("selected_node_ids", strings s.selectedNodes),
     ("selected_edge_ids", strings s.selectedEdges),
     ("editing_node_id", .ofString? s.focus)]

def Coordinator.toJson (c : Coordinator) : Json :=
  .object
    [("state", .string c.phase.name),
     ("pending", .bool c.pending.isSome),
     ("serialize_count", .ofNat c.writes),
     ("suppressed_changes", .ofNat c.suppressed),
     ("error", .ofOption Diagram.ReadError.toJson c.error)]

def StoreError.message? : StoreError → Option String
  | badChoice bad => some bad.message
  | invalidStyle _ => none
  | unspecifiedEnd => some "Both source and target nodes must be specified"
  | sourceNotFound id => some ("Source node not found: " ++ id)
  | targetNotFound id => some ("Target node not found: " ++ id)

end Flowchart.Live
