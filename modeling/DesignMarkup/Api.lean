import DesignMarkup.Lookup

/-!
# `Api` — requests for file data

A client asks for a file or for nodes of a file and takes the answers in order. What was asked and what
is still unanswered make up the exchange.

## Contents

* `Request`, `Response`, `Exchange`: the traffic;
* `ApiError`: why a request fails;
* `Client.getFile`, `Client.getNodes`: the requests.
-/

namespace DesignMarkup

/-- The body of a response: JSON, or some text that may be JSON. -/
inductive Body where
  | json (v : Json)
  | text (s : String)

/-- The value of a body. -/
def Body.read : Body → Except Json.ReadError Json
  | .json v => .ok v
  | .text s => Json.read s

/-- A response. -/
structure Response where
  status : Int
  body : Body

/-- A request as it was sent: its address, the time to wait for the answer, and its headers. -/
structure Request where
  url : String
  params : List (String × String)
  timeout : Json
  token : Json
  contentType : String

/-- The content type that requests carry. -/
def contentType : String :=
  "application/json"

/-- The requests sent so far and the responses to come. -/
structure Exchange where
  sent : List Request
  pending : List Response

/-- Why a request fails. -/
inductive ApiError where
  /-- The service refused the request; the status is any value it gave. -/
  | refused (message : String) (status : Json)
  /-- A response that should be JSON is not. -/
  | notJson (error : Json.ReadError)
  /-- The ids to ask for are not a list of texts. -/
  | badIds (value : Json)
  /-- No response came. -/
  | noResponse

/-- Who asks: the token and the time to wait for an answer. -/
structure Client where
  token : Json
  timeout : Json := .number (.int 30)

namespace Client

open Json (fieldOrNull)

/-- The message of a response that is not a success: what it gives as error or message, or else its
status. -/
def refusal (r : Response) : String :=
  let plain := "HTTP " ++ toString r.status
  match r.body.read with
  | .ok (.object fields) =>
    (((fieldOrNull fields "err").orElse (fieldOrNull fields "message")).orElse (.string plain)).text
  | _ => plain

/-- The value of a response. A response with status 200 is refused too if it gives an error. -/
def accept (r : Response) : Except ApiError Json :=
  if r.status ≠ 200 then .error (.refused (refusal r) (.number (.int r.status)))
  else
    match r.body.read with
    | .error e => .error (.notJson e)
    | .ok (.object fields) =>
      let err := fieldOrNull fields "err"
      if err.isTruthy then .error (.refused err.text (fieldOrNull fields "status"))
      else .ok (.object fields)
    | .ok v => .ok v

/-- A computation on the traffic, which outlives a failure. -/
abbrev Asking := ExceptT ApiError (StateM Exchange)

/-- Sends a request and takes the next response. -/
def send (c : Client) (url : String) (params : List (String × String)) : Asking Json :=
  fun x =>
    let sent := x.sent ++ [⟨url, params, c.timeout, c.token, contentType⟩]
    match x.pending with
    | [] => (.error .noResponse, { x with sent })
    | r :: rest => (accept r, ⟨sent, rest⟩)

/-- The address of the service. -/
def baseUrl : String :=
  "https://api.figma.com/v1"

/-- The address of a file. -/
def fileUrl (fileKey : Json) : String :=
  baseUrl ++ "/files/" ++ fileKey.text

/-- Asks for a file. -/
def getFile (c : Client) (fileKey : Json) : Asking Json :=
  c.send (fileUrl fileKey) []

/-- A value that must be a text. -/
def requireText (ids : Json) : Json → Except ApiError String
  | .string s => .ok s
  | _ => .error (.badIds ids)

/-- The ids as one text with commas. -/
def joinIds (ids : Json) : Except ApiError String :=
  match Lookup.elementsOf ids with
  | .error _ => .error (.badIds ids)
  | .ok elements => do
    let texts ← elements.mapM (requireText ids)
    return ",".intercalate texts

/-- Asks for nodes of a file. -/
def getNodes (c : Client) (fileKey ids : Json) : Asking Json := do
  let joined ← (joinIds ids : Except ApiError String)
  c.send (fileUrl fileKey ++ "/nodes") [("ids", joined)]

end Client

end DesignMarkup
