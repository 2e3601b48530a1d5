import ComponentsNetwork.Lib.Buffers
/-!
# HTTP messages and packets

`httptypes.hpp` and `httptypes.cpp`: methods, packets, body types and error
packets. With them the part of a Boost.Beast message that the component reads
and writes: the start line, the header fields it names and the body.

Boost.Beast is not part of the repository. What the component relies on is
stated where it is used: `Fields.set` replaces a field, `Request.readInto`
replaces the start line and the fields of the message it reads into and
appends to its body, and the reason phrases (`obsolete_reason`) are a
parameter.
-/

namespace ComponentsNetwork.HTTP

open Buffers

/-! ## Packets -/

/-- `enum MethodType : int`. A variable of it can hold any `int`. -/
inductive MethodType
  | Get
  | Put
  | Post
  | Delete
  | Other (value : Int) (unnamed : value < 0 ∨ 3 < value)
deriving DecidableEq, Repr

/-- The method an `int` stands for. -/
def MethodType.ofInt (v : Int) : MethodType :=
  if v = 0 then .Get
  else if v = 1 then .Put
  else if v = 2 then .Post
  else if v = 3 then .Delete
  else if h : v < 0 ∨ 3 < v then .Other v h
  else .Get -- not reached: the four values above are all of 0..3

namespace Packet

/-- `Packet::BodyType`. -/
inductive BodyType
  | Undefined
  | Json
  | Html
  | Bytes
deriving DecidableEq, Repr

/-- `Packet::toString`. -/
def toString : BodyType → String
  | .Undefined => "text/plain"
  | .Json => "application/json"
  | .Html => "text/html"
  | .Bytes => "application/octet-stream"

/-- `Packet::fromString`. -/
def fromString (btype : String) : BodyType :=
  if btype = "application/json" then .Json
  else if btype = "text/html" then .Html
  else if btype = "application/octet-stream" then .Bytes
  else .Undefined

/-- Reading back a body type's text gives the body type. -/
theorem fromString_toString (b : BodyType) : fromString (toString b) = b := by
  cases b <;> decide

end Packet

structure Packet where
  target : String := "/"
  isFile : Bool := false
  fileSavepath : String := ""
  bodyType : Packet.BodyType := .Undefined
  acceptableType : Packet.BodyType := .Undefined
  body : Bytes := []
  statusCode : Nat := 0
deriving DecidableEq, Repr

/-- `createErrorPacket`, given Beast's reason phrases. -/
def createErrorPacket (obsolete_reason : Nat → String) (status : Nat) : Packet :=
  { bodyType := .Undefined, body := octets (obsolete_reason status), statusCode := status }

/-! ## Messages -/

/-- `http::verb`: the four the component names, and every other. -/
inductive Verb
  | get
  | put
  | post
  | delete_
  | other (name : String)
deriving DecidableEq, Repr

/-- The header fields the component reads or writes. -/
inductive Field
  | content_type
  | content_length
  | server
  | user_agent
  | host
  | accept
deriving DecidableEq, Repr

/-- Header fields, in order. -/
abbrev Fields := List (Field × String)

namespace Fields

/-- `basic_fields::set`: the field's only value. -/
def set (fs : Fields) (f : Field) (v : String) : Fields := fs.filter (fun x => x.1 ≠ f) ++ [(f, v)]

/-- `basic_fields::at` and `count`: the first value of a field, if it has one. -/
def value (fs : Fields) (f : Field) : Option String := (fs.find? (fun x => x.1 = f)).map Prod.snd

theorem value_set (fs : Fields) (f g : Field) (v : String) :
    (fs.set f v).value g = if g = f then some v else fs.value g := by
  have hfind : (fs.filter (fun x => x.1 ≠ f)).find? (fun x => x.1 = g) =
      if g = f then none else fs.find? (fun x => x.1 = g) := by
    rw [List.find?_filter]
    split
    · next h => exact List.find?_eq_none.2 fun x _ => by simp [h]
    · next h =>
      congr 1
      funext x
      by_cases hx : x.1 = g <;> simp [hx, h]
  unfold set value
  rw [List.find?_append, hfind]
  by_cases h : g = f
  · simp [h]
  · simp [h, Ne.symm h]

end Fields

/-- `http::request<http::dynamic_body>`. -/
structure Request where
  method : Verb := .other ""
  target : String := ""
  fields : Fields := []
  body : Bytes := []
deriving DecidableEq, Repr

/-- `http::async_read` of `incoming` into the message `msg`. -/
def Request.readInto (msg incoming : Request) : Request :=
  { incoming with body := msg.body ++ incoming.body }

/-- The body type a message's Content-Type names, `Undefined` without one. -/
def Fields.bodyType (fs : Fields) : Packet.BodyType :=
  match fs.value .content_type with
  | some v => Packet.fromString v
  | none => .Undefined

/-- `prepare_payload` of a request: Content-Length is the body's size, and is
left out of a request without a body that need not have one. -/
def Request.preparePayload (r : Request) : Request :=
  if r.body ≠ [] ∨ r.method = .put ∨ r.method = .post then
    { r with fields := r.fields.set .content_length r.body.length.repr }
  else r

theorem Request.preparePayload_value (r : Request) {f : Field} (hf : f ≠ .content_length) :
    r.preparePayload.fields.value f = r.fields.value f := by
  unfold Request.preparePayload
  split
  · rw [Fields.value_set, if_neg hf]
  · rfl

/-- A response's body: `dynamic_body`, or `file_body` with the file's content
once it is open. -/
inductive ResponseBody
  | dynamic (b : Bytes)
  | file (content : Option Bytes)
deriving DecidableEq, Repr

/-- `http::response`; freshly constructed it is an empty 200. -/
structure Response where
  version : Nat := 11
  result : Nat := 200
  fields : Fields := []
  body : ResponseBody := .dynamic []
deriving DecidableEq, Repr

/-- The octets of a body; a file that is not open has none. -/
def ResponseBody.octets : ResponseBody → Bytes
  | .dynamic b => b
  | .file content => content.getD []

/-- `prepare_payload` of a 200 response: Content-Length is the body's size. -/
def Response.preparePayload (r : Response) : Response :=
  { r with fields := r.fields.set .content_length r.body.octets.length.repr }

end ComponentsNetwork.HTTP
