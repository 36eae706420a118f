import Flowchart.Http.Basic

/-!
The requests of a client to the service. What a request says is given in JSON; null stands for a part
that is not given.
-/
namespace Flowchart.Client.Call

def givenFields (parts : List (String × Json)) : List (String × Json) :=
  parts.filter fun
    | (_, .null) => false
    | _ => true

def styleField (parts : List (String × Json)) : List (String × Json) :=
  match givenFields parts with
  | [] => []
  | fields => [("style", .object fields)]

def nodePath (id : String) : String := "/nodes/" ++ id

def edgePath (id : String) : String := "/edges/" ++ id

def readText : Http.Request := ⟨.get, "/text", none⟩

def writeText (text : Json) : Http.Request := ⟨.put, "/text", some (.object [("text", text)])⟩

def flush : Http.Request := ⟨.post, "/sync/flush", none⟩

def readGraph : Http.Request := ⟨.get, "/graph", none⟩

/-- A new node is placed only if both coordinates are given. -/
def addNode (label shape x y : Json) : Http.Request :=
  let place :=
    match givenFields [("x", x), ("y", y)] with
    | [x, y] => [x, y]
    | _ => []
  ⟨.post, "/nodes", some (.object ([("label", label), ("shape", shape)] ++ place))⟩

def updateNode (id : String) (parts style : List (String × Json)) : Http.Request :=
  ⟨.patch, nodePath id, some (.object (givenFields parts ++ styleField style))⟩

def deleteNode (id : String) : Http.Request := ⟨.delete, nodePath id, none⟩

def addEdge (source target label arrow : Json) : Http.Request :=
  ⟨.post, "/edges", some (.object
    [("source", source), ("target", target), ("label", label), ("arrow_type", arrow)])⟩

def updateEdge (id : String) (parts style : List (String × Json)) : Http.Request :=
  ⟨.patch, edgePath id, some (.object (givenFields parts ++ styleField style))⟩

def deleteEdge (id : String) : Http.Request := ⟨.delete, edgePath id, none⟩

def setDirection (direction : Json) : Http.Request :=
  ⟨.put, "/direction", some (.object [("direction", direction)])⟩

def validate : Http.Request := ⟨.get, "/validate", none⟩

def exportText (format : Json) : Http.Request :=
  ⟨.post, "/export", some (.object [("format", format)])⟩

end Flowchart.Client.Call
