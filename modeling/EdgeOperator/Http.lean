import EdgeOperator.Text.Utf8

set_option autoImplicit false

/-! # HTTP

As much of HTTP as calls to an API server need: requests to a target of the server, and what may
come back, if anything does. -/

namespace EdgeOperator

namespace Http

/-- What a request does to its target. -/
inductive Method where
  | get
  | post
  | put
  | delete
deriving DecidableEq, Repr

/-- The name of a method on the wire. -/
def Method.name : Method → String
  | .get => "GET"
  | .post => "POST"
  | .put => "PUT"
  | .delete => "DELETE"

/-- What a request is about: a path on the server, and perhaps a query. -/
structure Target where
  path : String
  query? : Option String
deriving DecidableEq, Repr

namespace Target

/-- Why a text names no target. -/
inductive Fault where
  /-- It is too long. -/
  | length
  /-- It holds a character that may not stand there. -/
  | character
deriving DecidableEq, Repr

/-- A fault in words. -/
def Fault.message : Fault → String
  | .length => "uri too long"
  | .character => "invalid uri character"

/-- The most bytes that a text which names a target may have. -/
def maxLength : Nat := 65534

/-- The target in one text. -/
def toText (target : Target) : String :=
  match target.query? with
  | some query => target.path ++ "?" ++ query
  | none => target.path

/-- Whether a character may stand in a path. -/
def isPathChar (c : Char) : Bool :=
  '!' ≤ c && c ≤ '~' && c ≠ '<' && c ≠ '>' && c ≠ '\x60'

/-- Whether a character may stand in a query. -/
def isQueryChar (c : Char) : Bool :=
  '!' ≤ c && c ≤ '~' && c ≠ '<' && c ≠ '>' && c ≠ '"'

/-- The target that a text names. What follows a hash is no part of it. Blanks, control characters
and characters beyond ASCII may not stand in it as they are. -/
def ofText (text : String) : Except Fault Target :=
  let named := text.toList.takeWhile (· ≠ '#')
  let path := named.takeWhile (· ≠ '?')
  let query? := (named.dropWhile (· ≠ '?')).tail?
  if maxLength < text.utf8ByteSize then .error .length
  else if path.all isPathChar && (query?.getD []).all isQueryChar then
    .ok ⟨String.ofList path, query?.map String.ofList⟩
  else .error .character

end Target

/-- A request. -/
structure Request where
  method : Method
  target : Target
  body? : Option String
deriving DecidableEq, Repr

/-- The content of a response: a text, or bytes that need not be one. -/
inductive Payload where
  | text (content : String)
  | bytes (content : List Nat)
deriving DecidableEq, Repr

/-- The content as text. -/
def Payload.toText : Payload → Except Text.Utf8Fault String
  | .text content => .ok content
  | .bytes content => Text.Utf8.decode content

/-- What comes back for a request. -/
inductive Reply where
  /-- Nothing, ever. -/
  | silence
  /-- The request was not carried. -/
  | refusal (text : String)
  /-- The connection broke in the middle of the response. -/
  | broken
  /-- A response. -/
  | response (status : Nat) (payload : Payload)
deriving DecidableEq, Repr

/-- The phrase that belongs to a status code. -/
def phrase? : Nat → Option String
  | 400 => some "Bad Request"
  | 401 => some "Unauthorized"
  | 402 => some "Payment Required"
  | 403 => some "Forbidden"
  | 404 => some "Not Found"
  | 405 => some "Method Not Allowed"
  | 406 => some "Not Acceptable"
  | 407 => some "Proxy Authentication Required"
  | 408 => some "Request Timeout"
  | 409 => some "Conflict"
  | 410 => some "Gone"
  | 411 => some "Length Required"
  | 412 => some "Precondition Failed"
  | 413 => some "Payload Too Large"
  | 414 => some "URI Too Long"
  | 415 => some "Unsupported Media Type"
  | 416 => some "Range Not Satisfiable"
  | 417 => some "Expectation Failed"
  | 418 => some "I'm a teapot"
  | 421 => some "Misdirected Request"
  | 422 => some "Unprocessable Entity"
  | 423 => some "Locked"
  | 424 => some "Failed Dependency"
  | 426 => some "Upgrade Required"
  | 428 => some "Precondition Required"
  | 429 => some "Too Many Requests"
  | 431 => some "Request Header Fields Too Large"
  | 451 => some "Unavailable For Legal Reasons"
  | 500 => some "Internal Server Error"
  | 501 => some "Not Implemented"
  | 502 => some "Bad Gateway"
  | 503 => some "Service Unavailable"
  | 504 => some "Gateway Timeout"
  | 505 => some "HTTP Version Not Supported"
  | 506 => some "Variant Also Negotiates"
  | 507 => some "Insufficient Storage"
  | 508 => some "Loop Detected"
  | 510 => some "Not Extended"
  | 511 => some "Network Authentication Required"
  | _ => none

/-- A status code with its phrase; codes that have none are called unknown. -/
def statusText (status : Nat) : String :=
  toString status ++ " " ++ (phrase? status).getD "<unknown status code>"

/-- Whether a status code says that a request failed. -/
def isFailure (status : Nat) : Bool :=
  400 ≤ status && status < 600

end Http

end EdgeOperator
