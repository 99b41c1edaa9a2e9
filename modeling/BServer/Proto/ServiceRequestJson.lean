import BServer.Base.Bytes

/-!
# `Proto.ServiceRequestJson` — the JSON body of a push

`service_request_json_data` parses a body and answers three string members. Its constructor ignores whether
parsing succeeded, so the accessors read whatever the reader left in `value_`. Each of them first asks for
`size()`, which is also positive for a non-empty array, and then for a member, which an array does not have:
`JsonCpp` asserts there, and nothing is answered (`none`).
-/

namespace BServer

open Bytes

/-- `Json::Value`. -/
inductive Json where
  | null
  | int (i : Int)
  | real (bits : BitVec 64)
  | string (s : Bytes)
  | boolean (b : Bool)
  | array (vs : List Json)
  | object (ms : List (Bytes × Json))

namespace Json

/-- `Json::Value::size`. -/
def size : Json → Nat
  | array vs  => vs.length
  | object ms => ms.length
  | _         => 0

/-- The string a member holds. The empty string also answers for no such member, and for a member that is no
    string; `none` is a failed assertion. -/
def stringMember (v : Json) (key : Bytes) : Option Bytes :=
  if v.size > 0 then
    match v with
    | object ms =>
        match ms.lookup key with
        | some (string s) => some s
        | _ => some []
    | _ => none
  else some []

end Json

/-- `service_request_json_data`: what the reader left in `value_`. -/
structure ServiceRequestJsonData where
  value : Json

namespace ServiceRequestJsonData

def cid (d : ServiceRequestJsonData) : Option Bytes := d.value.stringMember (ascii "cid")

def serviceId (d : ServiceRequestJsonData) : Option Bytes := d.value.stringMember (ascii "service_id")

def data (d : ServiceRequestJsonData) : Option Bytes := d.value.stringMember (ascii "data")

end ServiceRequestJsonData

end BServer
