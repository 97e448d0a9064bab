import StyleCompanion.Failure

/-
  Messages of the remote call protocol.

  A message is an object.  With an id and no method it is a
  reply, with both it is a request, and with a method alone it
  is a notification.

  Key definitions include:
    * `response`
    * `errorResponse`
    * `isResponse`
    * `isRequest`
-/

namespace StyleCompanion

namespace Rpc

/- No handler is registered for the method. -/
def methodNotFound : Int := -32601

/- The handler refused the parameters. -/
def invalidParams : Int := -32602

/- The handler failed. -/
def internalError : Int := -32603

/- The backend does not run. -/
def serverNotInitialized : Int := -32002

/- The field that every message starts with. -/
def versionField : String × Json :=
  ("jsonrpc", .str "2.0")

/- An error with its code and text. -/
def errorValue
    (code : Int)
    (text : String) : Json :=
  .obj [("code", .int code), ("message", .str text)]

/- A reply with a result. -/
def response
    (id result : Json) : Json :=
  .obj [versionField, ("id", id), ("result", result)]

/- A reply with an error. -/
def errorResponse
    (id : Json)
    (code : Int)
    (text : String) : Json :=
  .obj [versionField, ("id", id),
    ("error", errorValue code text)]

/- A reply with an error, its parts given as any values. -/
def errorResponseOf
    (id code text : Json) : Outcome Json :=
  match code.integer with
  | .ok n => .ok (errorResponse id n text.text)
  | .error e => .error e

/- A request. -/
def request
    (id : Nat)
    (method : String)
    (params : Json) : Json :=
  .obj [versionField, ("id", .int id),
    ("method", .str method), ("params", params)]

/- A notification. -/
def notification
    (method : String)
    (params : Json) : Json :=
  .obj [versionField, ("method", .str method),
    ("params", params)]

/- Whether a message is a reply. -/
def isResponse
    (fs : Table String Json) : Bool :=
  Table.contains fs "id" && !Table.contains fs "method"

/- Whether a message is a request. -/
def isRequest
    (fs : Table String Json) : Bool :=
  Table.contains fs "id" && Table.contains fs "method"

end Rpc

end StyleCompanion
