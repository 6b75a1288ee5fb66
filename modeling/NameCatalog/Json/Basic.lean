import NameCatalog.Decimal.Shortest
import NameCatalog.Value

/-!
# JSON values

Objects keep their members in order, repeated keys included; whole numbers and others are told
apart.
-/

namespace NameCatalog

open Decimal

inductive Json where
  | null
  | bool (b : Bool)
  | int (n : Int)
  | real (x : Binary64)
  | text (s : Text)
  | array (items : List Json)
  | object (members : List (Text × Json))
deriving Repr, Inhabited

namespace Json

mutual

/-- The value that a JSON value stands for; of repeated keys the last counts. -/
def toValue : Json → Value
  | null => .null
  | bool b => .bool b
  | int n => .int n
  | real x => .real x
  | text s => .text s
  | array items => .list (toValues items)
  | object members => .mapping (Value.putAll [] (toEntries members))

def toValues : List Json → List Value
  | [] => []
  | v :: vs => toValue v :: toValues vs

def toEntries : List (Text × Json) → List (Value × Value)
  | [] => []
  | (k, v) :: rest => (.text k, toValue v) :: toEntries rest

end

mutual

/-- A value as JSON; what JSON cannot hold is given by its literal. -/
def ofValue : Value → Json
  | .null => null
  | .bool b => bool b
  | .int n => int n
  | .real x => real x
  | .text s => text s
  | .list items => array (ofValues items)
  | .tuple items => array (ofValues items)
  | .set items => array (ofValues items)
  | .mapping entries => object (ofEntries entries)
  | v => text v.literal

def ofValues : List Value → List Json
  | [] => []
  | v :: vs => ofValue v :: ofValues vs

def ofEntries : List (Value × Value) → List (Text × Json)
  | [] => []
  | (k, v) :: rest => (k.shown, ofValue v) :: ofEntries rest

end

/-- A member keeps the place where its key first came, and takes the later value. -/
def putMember (members : List (Text × Json)) (key : Text) (value : Json) :
    List (Text × Json) :=
  match members with
  | [] => [(key, value)]
  | (k, v) :: rest => if k = key then (k, value) :: rest else (k, v) :: putMember rest key value

def members : Json → List (Text × Json)
  | object ms => ms.foldl (fun acc m => putMember acc m.1 m.2) []
  | _ => []

/-- The member under a key; of several the last. -/
def get? (v : Json) (key : Text) : Option Json :=
  match v with
  | object members => (members.reverse.lookup key)
  | _ => none

def text? : Json → Option Text
  | text s => some s
  | _ => none

def items : Json → List Json
  | array items => items
  | _ => []

def texts (ss : List Text) : Json := array (ss.map text)

end Json

end NameCatalog
