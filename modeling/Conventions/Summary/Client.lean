import Conventions.Failure
import Conventions.Json.Value
import Conventions.Settings.Environment
import Conventions.Summary.Prompt

/-!
# Asking a model for the summary

The client posts one request with the prompt and takes the text of the first part
of the first candidate from the reply. Everything else, from a time-out to a reply
of another shape, is a failure with a reason.

Requests are sent by a client of the network that is taken from outside. Of what it
may do three things are foreseen: it answers, it gives up waiting, or the transport
breaks. Anything else that it raises is not caught here.
-/

namespace Conventions.Summary

structure Client where
  apiKey : String
  model : String := "gemini-3-flash-preview"
  /-- How many seconds the client of the network waits. -/
  timeout : Int := 120
  language : String := "English"
  baseUrl : String := "https://generativelanguage.googleapis.com/v1beta"
  deriving DecidableEq, Repr

/-- What is posted. -/
structure Request where
  url : String
  document : Json
  headers : List (String × String)
  deriving Repr

/-- A response, as the client of the network shows it: its body as a text, and as a document or the
reason why it is none. Documents are spoken of whose texts are Unicode texts. -/
structure Response where
  status : Int
  isSuccess : Bool
  text : String
  document : Except String Json

/-- An exception that nobody here foresees. -/
structure Raised where
  kind : String
  message : String
  deriving DecidableEq, Repr

/-- What comes of posting a request. -/
inductive Delivery where
  | answered (r : Response)
  | timedOut (message : String)
  /-- The transport failed in another way. -/
  | broken (message : String)
  /-- No answer, and no failure that the client of the network calls one of the transport. -/
  | raised (e : Raised)

/-- A client of the network, by the number of seconds that it waits. -/
abbrev Network := Int → Request → Delivery

/-- The environment variable with the key. -/
def keyVariable : String := "GEMINI_API_KEY"

def dropSlashes (url : String) : String :=
  String.ofList (Text.trimEndBy (· == '/') url.toList)

namespace Client

/-- A client needs a key. -/
def make (c : Client) : Except Failure Client :=
  if c.apiKey = "" then
    .error (.summary (keyVariable ++ " environment variable not set") none)
  else .ok { c with baseUrl := dropSlashes c.baseUrl }

def ofSettings (s : Settings) (env : Environment) : Except Failure Client :=
  make {
    apiKey := (env.get? keyVariable).getD ""
    model := s.model
    timeout := s.timeout
    language := s.language }

/-- The header that holds the key. -/
def keyHeader : String := "x-goog-api-key"

/-- Where requests go. -/
def address (c : Client) : String :=
  c.baseUrl ++ "/models/" ++ c.model ++ ":generateContent"

/-- The request for a profile. -/
def request (c : Client) (p : Profile) : Request where
  url := c.address
  document := .obj [("contents", .arr [.obj [("parts",
    .arr [.obj [("text", .str (prompt c.language p))]])]])]
  headers := [(keyHeader, c.apiKey)]

end Client

/-- The reason when a reply is no JSON document. -/
def invalidReply (reason : String) : String := "invalid JSON response: " ++ reason

/-- The reason when a reply has no text in the expected place. -/
def missingText : String := "Failed to get response text from Gemini"

/-- How much of an error reply is shown. -/
def shownErrorLength : Nat := 200

/-- What is shown of an error reply. -/
def shownError (text : String) : String :=
  String.ofList (text.toList.take shownErrorLength)

/-- The text of the first part of the first candidate. -/
def candidateText? (reply : Json) : Option String := do
  let candidates ← reply.member? "candidates"
  let candidate ← candidates.first?
  let content ← candidate.member? "content"
  let parts ← content.member? "parts"
  let part ← parts.first?
  let text ← part.member? "text"
  text.text?

/-- Why there is no summary. -/
inductive SummaryFault where
  /-- A failure that callers have to expect. -/
  | failure (f : Failure)
  | raised (e : Raised)
  deriving Repr

/-- The summary that a response gives. -/
def Response.summary (r : Response) : Except Failure String :=
  if r.isSuccess then
    match r.document with
    | .error reason => .error (.summary (invalidReply reason) none)
    | .ok reply =>
      match candidateText? reply with
      | some text => .ok text
      | none => .error (.summary missingText none)
  else
    .error (.summary ("Gemini API error: " ++ shownError r.text) (some r.status))

/-- The summary that comes of posting a request. -/
def Delivery.summary : Delivery → Except SummaryFault String
  | answered r =>
    match r.summary with
    | .ok text => .ok text
    | .error f => .error (.failure f)
  | timedOut message => .error (.failure (.summary ("request timed out: " ++ message) none))
  | broken message => .error (.failure (.summary ("request failed: " ++ message) none))
  | raised e => .error (.raised e)

/-- The summary of a profile. -/
def Client.summarize (c : Client) (network : Network) (p : Profile) :
    Except SummaryFault String :=
  (network c.timeout (c.request p)).summary

end Conventions.Summary
