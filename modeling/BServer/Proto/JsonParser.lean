import BServer.Proto.ServiceRequestJson
import Mathlib.Algebra.Group.Int.Defs

/-!
# `Proto.JsonParser` — JSON values, and the class that reads and writes them

`json_parser` holds a reader, a writer and the value that was read last. The library behind it, `JsonCpp`, comes
as a parameter: what it writes and reads, and how it converts. `JsonCpp.Faithful` is what a caller relies on, for
values made of objects, strings and integers of 32 bits (`Plain`).

What selects and creates members is modelled here, since the classes above it look at their values through
`operator[]`, which changes them. In a `Json::Value` an integer is held as an `Int` if it fits into one, and as a
`UInt` otherwise.
-/

namespace BServer

open Bytes

namespace Json

/-- `isInt`. -/
def isInt : Json → Bool
  | int i => -2 ^ 31 ≤ i ∧ i < 2 ^ 31
  | _     => false

/-- `isString`. -/
def isString : Json → Bool
  | string _ => true
  | _        => false

/-- `isNull`. -/
def isNull : Json → Bool
  | null => true
  | _    => false

/-- `isArray`. A null counts as an empty one. -/
def isArray : Json → Bool
  | null    => true
  | array _ => true
  | _       => false

/-- `isObject`. A null counts as an empty one. -/
def isObject : Json → Bool
  | null     => true
  | object _ => true
  | _        => false

/-- What an array holds. -/
def elements : Json → List Json
  | array vs => vs
  | _        => []

/-- Members are kept in key order. -/
def insertMember (key : Bytes) (v : Json) : List (Bytes × Json) → List (Bytes × Json)
  | []           => [(key, v)]
  | (k, w) :: ms =>
      if key = k then (k, v) :: ms
      else if key < k then (key, v) :: (k, w) :: ms
      else (k, w) :: insertMember key v ms

/-- `operator[]`: the member, and what becomes of the value. A member that is missing is created as null;
    `none` is a failed assertion. -/
def index (v : Json) (key : Bytes) : Option (Json × Json) :=
  match v with
  | null      => some (null, object [(key, null)])
  | object ms =>
      match ms.lookup key with
      | some m => some (m, object ms)
      | none   => some (null, object (insertMember key null ms))
  | _         => none

/-- An assignment to `operator[]`. -/
def assign (v : Json) (key : Bytes) (m : Json) : Option Json :=
  match v with
  | null      => some (object [(key, m)])
  | object ms => some (object (insertMember key m ms))
  | _         => none

/-- `get`. -/
def get (v : Json) (key : Bytes) (default : Json) : Option Json :=
  match v with
  | null      => some default
  | object ms => some ((ms.lookup key).getD default)
  | _         => none

/-- Made of objects, strings without a zero byte, and integers that an `Int` or a `UInt` holds. -/
inductive Plain : Json → Prop where
  | int {i : Int} (h : -2 ^ 31 ≤ i ∧ i < 2 ^ 32) : Plain (.int i)
  | string {s : Bytes} (h : 0 ∉ s) : Plain (.string s)
  | object {ms : List (Bytes × Json)} (horder : (ms.map Prod.fst).Pairwise (· < ·))
      (hkeys : ∀ k ∈ ms.map Prod.fst, 0 ∉ k) (hms : ∀ m ∈ ms, Plain m.2) : Plain (.object ms)

end Json

/-- The library. `none` is an exception. -/
structure JsonCpp where
  /-- `StyledWriter::write` -/
  write    : Json → Option Bytes
  /-- `Reader::parse`: what it returns, and the value it leaves -/
  parse    : Bytes → Option (Bool × Json)
  asString : Json → Option Bytes
  asInt    : Json → Option Int
  asUInt   : Json → Option (BitVec 32)

/-- Plain values are read as they were written, and answer what they hold. -/
structure JsonCpp.Faithful (lib : JsonCpp) : Prop where
  parse_write     : ∀ v, v.Plain → ∃ t, lib.write v = some t ∧ lib.parse t = some (true, v)
  asString_string : ∀ s, 0 ∉ s → lib.asString (.string s) = some s
  asInt_int       : ∀ i, -2 ^ 31 ≤ i → i < 2 ^ 31 → lib.asInt (.int i) = some i
  asUInt_int      : ∀ w : BitVec 32, lib.asUInt (.int w.toNat) = some w

namespace JsonParser

variable (lib : JsonCpp)

/-- `json_parser::decode`: what `value_` holds when it returns `0`; nobody reads it otherwise. -/
def decode (jsonStr : Bytes) : Option Json :=
  match lib.parse jsonStr with
  | some (true, value) => if value.isNull || !value.isObject then none else some value
  | _ => none

/-- `json_parser::encode`. -/
def encode (value : Json) : Bytes := (lib.write value).getD []

variable {lib}

/-- A plain object survives encoding and decoding. -/
theorem decode_encode (h : lib.Faithful) {ms : List (Bytes × Json)} (hv : (Json.object ms).Plain) :
    decode lib (encode lib (.object ms)) = some (.object ms) := by
  obtain ⟨t, hwrite, hparse⟩ := h.parse_write _ hv
  rw [decode, encode, hwrite, Option.getD_some, hparse]
  rfl

end JsonParser

end BServer
