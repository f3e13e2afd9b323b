import TemplateTypes.Files.Uri
import TemplateTypes.Hover.Contents
import TemplateTypes.Hover.Query
import TemplateTypes.Json.Access

namespace TemplateTypes.Message

open Text

def version : String × Json := ("jsonrpc", .text "2.0")

def request (id : Nat) (method : Text) (params : Json) : Json :=
  .object [version, ("id", .int id), ("method", .str method), ("params", params)]

def notification (method : Text) (params : Json) : Json :=
  .object [version, ("method", .str method), ("params", params)]

def reply (id : Json) : Json := .object [version, ("id", id), ("result", .null)]

def initializeParams (processId : Nat) (root : Path) : Json :=
  let uri : Json := .str (Uri.ofPath root)
  let formats : Json := .arr [.text "markdown", .text "plaintext"]
  .object [("processId", .int processId), ("rootPath", .str root.toText), ("rootUri", uri),
    ("workspaceFolders", .arr [.object [("uri", uri), ("name", .str root.name)]]),
    ("capabilities",
      .object [("textDocument", .object [("hover", .object [("contentFormat", formats)])])])]

def documentParams (uri : Text) : Json := .object [("textDocument", .object [("uri", .str uri)])]

def openParams (uri language content : Text) : Json :=
  .object [("textDocument", .object [("uri", .str uri), ("languageId", .str language),
    ("version", .int 1), ("text", .str content)])]

def hoverParams (q : Question) : Json :=
  .object [("textDocument", .object [("uri", .str q.uri)]),
    ("position",
      .object [("line", .int q.position.line), ("character", .int q.position.column)])]

def initializeMethod : Text := "initialize".toList

def hoverMethod : Text := "textDocument/hover".toList

def openMethod : Text := "textDocument/didOpen".toList

def closeMethod : Text := "textDocument/didClose".toList

def noMembers (value : Json) : Fault :=
  ⟨"AttributeError".toList,
    singleQuote :: value.kindName ++ "' object has no attribute 'get'".toList, none⟩

def hoverCandidates (result : Json) : Except Fault Json :=
  if !result.holds then .ok (.arr [])
  else match result with
    | .obj members =>
      .ok (.arr (Hover.candidates ((members.lookup "contents".toList).getD .null)))
    | other => .error (noMembers other)

def responseFault (error : Json) : Except Fault Fault :=
  if !error.holds then .ok (.queryFailure "Language server error".toList)
  else match error with
    | .obj members =>
      .ok (.queryFailure (match members.lookup "message".toList with
        | some message => message.display
        | none => "Language server error".toList))
    | other => .error (noMembers other)

def responseOutcome (error : Option Json) (result : Json) : Except Fault (Except Fault Json) :=
  match error with
  | some e => (responseFault e).map .error
  | none => .ok (.ok result)

/-- The number of the request that an id names; ids of other kinds than numbers name none. -/
def requestId? (id : Json) : Except Fault (Option Int) :=
  match id with
  | .int n => .ok (some n)
  | .float x => .ok x.toInt?
  | .bool b => .ok (some (if b then 1 else 0))
  | .str _ | .null => .ok none
  | other => .error (.wrongKind ("unhashable type: '".toList ++ other.kindName ++ [singleQuote]))

inductive Meaning
  | nothing
  -- A request of the server.
  | question (id : Json)
  -- The answer to the client's request of a number, with the error and the result in it.
  | response (id : Option Int) (error : Option Json) (result : Json)

/-- Whether a name occurs in a value: as a member's name, an item or a part of a text. -/
def mentions (value : Json) (name : String) : Except Fault Bool :=
  match value with
  | .obj members => .ok (members.any (·.1 == name.toList))
  | .arr items => .ok (items.any (· == .text name))
  | .str t => .ok (includes t name.toList)
  | other => .error (.wrongKind
      ("argument of type '".toList ++ other.kindName ++ "' is not iterable".toList))

def noNames (value : Json) : Fault :=
  .wrongKind (match value with
    | .arr _ => "list indices must be integers or slices, not str".toList
    | _ => "string indices must be integers, not 'str'".toList)

def meaningOfMembers (members : List (Text × Json)) (id : Json) : Except Fault Meaning :=
  if members.any (·.1 == "method".toList) then .ok (.question id)
  else do
    let id ← requestId? id
    return .response id (members.lookup "error".toList)
      ((members.lookup "result".toList).getD .null)

def meaning (payload : Json) : Except Fault Meaning := do
  if !(← mentions payload "id") then return .nothing
  match payload with
  | .obj members => meaningOfMembers members ((members.lookup "id".toList).getD .null)
  | other => throw (noNames other)

end TemplateTypes.Message
