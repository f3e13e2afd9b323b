import TemplateTypes.Server.Frame

namespace TemplateTypes.Frame

/-- Reads one message. As long as more bytes are needed the next chunk is waited for, and the stream
    ends behind the last one. The chunks that have not been waited for are given back. -/
def readMessage (nesting : Nat) (received : Bytes) : (coming : List Bytes) → Outcome × List Bytes
  | [] => (next nesting received true, [])
  | chunk :: coming =>
    match next nesting received false with
    | .wait => readMessage nesting (received ++ chunk) coming
    | outcome => (outcome, chunk :: coming)

end TemplateTypes.Frame
