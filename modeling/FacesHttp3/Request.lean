import Mathlib.Algebra.Group.Nat.Defs
import FacesHttp3.Lib.PMap
import FacesHttp3.Lib.SplitOnce

/-! # Requests as they are read from an HTTP/3 stream

Header lists, the fields the server reads from them, and the request path with
its query string. -/

namespace FacesHttp3.Request
open FacesHttp3.Lib

abbrev Bytes := List UInt8

/-- Trace id of a connection. -/
abbrev ConnId := String
/-- Connection and stream of a request: the key of every shared table. -/
abbrev ReqId := ConnId × Nat

structure Header where
  name : Bytes
  value : Bytes
  deriving DecidableEq, Repr

/-- A byte string literal of the source. -/
def ascii (s : String) : Bytes := s.toList.map fun c => UInt8.ofNat c.toNat

inductive H3Method
  | GET
  | POST
  | PUT
  | DELETE
  deriving DecidableEq, Repr

/-- The source decodes lossily first: a replacement character equals none of the
four names, so comparing the bytes is the same test. -/
def H3Method.parse (input : Bytes) : Option H3Method :=
  if input = ascii "GET" then some .GET
  else if input = ascii "POST" then some .POST
  else if input = ascii "PUT" then some .PUT
  else if input = ascii "DELETE" then some .DELETE
  else none

def fromUtf8 (bytes : Bytes) : Option String := String.fromUTF8? ⟨bytes.toArray⟩

def isAsciiDigit (b : UInt8) : Bool := decide (48 ≤ b) && decide (b ≤ 57)

/-- `parse::<usize>` on ASCII digits: overflow of the 64-bit value is an error. -/
def parseUsize (digits : Bytes) : Option Nat :=
  let n := digits.foldl (fun n b => 10 * n + (b.toNat - 48)) 0
  if n < 2 ^ 64 then some n else none

/-- The three accumulators of the header scan. -/
structure Routing where
  method : Option Bytes := none
  path : Option String := none
  contentLength : Option Nat := none

def readHeader (seen : Routing) (header : Header) : Option Routing :=
  if header.name = ascii ":method" then
    if seen.method.isSome || (H3Method.parse header.value).isNone then none
    else some { seen with method := some header.value }
  else if header.name = ascii ":path" then
    if seen.path.isSome then none
    else do
      let value ← fromUtf8 header.value
      if header.value.isEmpty || header.value.any (fun b => b ≤ 32 || b == 127) then none
      else some { seen with path := some value }
  else if header.name = ascii "content-length" then
    if seen.contentLength.isSome || header.value.isEmpty || !header.value.all isAsciiDigit then none
    else do
      let length ← parseUsize header.value
      some { seen with contentLength := some length }
  else some seen

/-- Validate once before admitting a request to the middleware and response
queues: duplicate or malformed routing headers reject the whole section. -/
def parseRequestHeaders (headers : List Header) : Option (Bytes × String × Option Nat) := do
  let seen ← headers.foldlM readHeader {}
  let method ← seen.method
  let path ← seen.path
  some (method, path, seen.contentLength)

def extractPathFromHdr (headers : List Header) : Option String :=
  (parseRequestHeaders headers).map fun parsed => parsed.2.1

/-! ## Query strings -/

/-- Parameter and value of every pair of the query string; the last pair wins. -/
abbrev ReqArgs := PMap String String

def ReqArgs.buildQueryString (query : String) : ReqArgs :=
  (query.toList.splitOn '&').foldl (fun args pair =>
    match SplitOnce.splitOnce '=' pair with
    | some (param, value) => args.insert (String.ofList param) (String.ofList value)
    | none => args) PMap.empty

def ReqArgs.get (args : ReqArgs) (name : String) : Option String := args name

/-- Split the query string off a request path. -/
def ReqArgs.parseArgs (path : String) : String × Option ReqArgs :=
  match SplitOnce.splitOnce '?' path.toList with
  | some (before, query) =>
    (String.ofList before, some (ReqArgs.buildQueryString (String.ofList query)))
  | none => (path, none)

/-- The path carries a query string. -/
def HasQuery (path : String) : Prop := '?' ∈ path.toList

instance (path : String) : Decidable (HasQuery path) := by unfold HasQuery; infer_instance

theorem parseArgs_of_not_hasQuery {path : String} (h : ¬ HasQuery path) :
    ReqArgs.parseArgs path = (path, none) := by
  simp [ReqArgs.parseArgs, (SplitOnce.splitOnce_eq_none_iff '?' path.toList).mpr h]

theorem parseArgs_append {path : String} (query : String) (h : ¬ HasQuery path) :
    ReqArgs.parseArgs (path ++ "?" ++ query) = (path, some (ReqArgs.buildQueryString query)) := by
  have hlist : (path ++ "?" ++ query).toList = path.toList ++ '?' :: query.toList := by
    simp [String.toList_append]
  rw [ReqArgs.parseArgs, hlist, SplitOnce.splitOnce_append query.toList h]
  simp only [String.ofList_toList]

theorem parseArgs_of_hasQuery {path : String} (h : HasQuery path) :
    ∃ args, (ReqArgs.parseArgs path).2 = some args ∧ ¬ HasQuery (ReqArgs.parseArgs path).1 := by
  cases hs : SplitOnce.splitOnce '?' path.toList with
  | none => exact absurd h ((SplitOnce.splitOnce_eq_none_iff '?' path.toList).mp hs)
  | some parts =>
    refine ⟨ReqArgs.buildQueryString (String.ofList parts.2), ?_, ?_⟩
    · simp [ReqArgs.parseArgs, hs]
    · simpa [ReqArgs.parseArgs, hs, HasQuery] using (SplitOnce.splitOnce_eq_some_iff.mp hs).2

/-- The path part never carries a query string. -/
theorem not_hasQuery_parseArgs (path : String) : ¬ HasQuery (ReqArgs.parseArgs path).1 := by
  by_cases h : HasQuery path
  · obtain ⟨_, _, hq⟩ := parseArgs_of_hasQuery h
    exact hq
  · rwa [parseArgs_of_not_hasQuery h]

theorem parseArgs_path_ne {path : String} (h : HasQuery path) :
    (ReqArgs.parseArgs path).1 ≠ path := by
  intro he
  have hq := not_hasQuery_parseArgs path
  rw [he] at hq
  exact hq h

example : (ReqArgs.parseArgs "/a?b=c").1 = "/a" := by decide

end FacesHttp3.Request
