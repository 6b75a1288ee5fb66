import NameCatalog.Calendar
import NameCatalog.Decimal.Numeral
import NameCatalog.Decimal.Shortest
import NameCatalog.Files.Path
import NameCatalog.Text.Quoted

/-!
# Values

What a document or a caller may hand over where a dotted name or a list of segments is wanted: any
value at all. A value has a type name and a literal, its text in messages.
-/

namespace NameCatalog

open Calendar Decimal

inductive Shape where
  | list
  | tuple
  | set
  | mapping
deriving DecidableEq, Repr

namespace Shape

def typeName : Shape → Text
  | list => "list"
  | tuple => "tuple"
  | set => "set"
  | mapping => "dict"

/-- A collection whose elements are not spelled out. -/
def outline : Shape → Text
  | list => "[...]"
  | tuple => "(...)"
  | set => "set(...)"
  | mapping => "\x7b...\x7d"

end Shape

/-- A mapping lists its entries in the order in which their keys first came, a set its elements in
the order in which they are gone through. `again` stands for a collection that contains itself, at
the place where it comes round. -/
inductive Value where
  | null
  | bool (b : Bool)
  | int (n : Int)
  | real (x : Binary64)
  | text (s : Text)
  | bytes (bs : List UInt8)
  | date (d : Date)
  | moment (t : Moment)
  | path (p : Path)
  | list (items : List Value)
  | tuple (items : List Value)
  | set (items : List Value)
  | mapping (entries : List (Value × Value))
  | again (shape : Shape)
deriving Repr, Inhabited

namespace Value

def typeName : Value → Text
  | null => "NoneType"
  | bool _ => "bool"
  | int _ => "int"
  | real _ => "float"
  | text _ => "str"
  | bytes _ => "bytes"
  | date _ => "date"
  | moment _ => "datetime"
  | path _ => "PosixPath"
  | list _ => Shape.list.typeName
  | tuple _ => Shape.tuple.typeName
  | set _ => Shape.set.typeName
  | mapping _ => Shape.mapping.typeName
  | again shape => shape.typeName

def bracketed (opening closing : Text) (parts : List Text) : Text :=
  opening ++ Text.join ", " parts ++ closing

/-- A tuple of one element keeps its comma. -/
def tupleText : List Text → Text
  | [part] => "(" ++ part ++ ",)"
  | parts => bracketed "(" ")" parts

mutual

def literal : Value → Text
  | null => "None"
  | bool b => if b then "True" else "False"
  | int n => toString n
  | real x => x.text
  | text s => Text.quoted s
  | bytes bs => Text.quotedBytes bs
  | date d => d.literal
  | moment t => t.literal
  | path p => "PosixPath(" ++ Text.quoted p.toString ++ ")"
  | list items => bracketed "[" "]" (literals items)
  | tuple items => tupleText (literals items)
  | set [] => "set()"
  | set items => bracketed "\x7b" "\x7d" (literals items)
  | mapping entries => bracketed "\x7b" "\x7d" (entryLiterals entries)
  | again shape => shape.outline

def literals : List Value → List Text
  | [] => []
  | v :: vs => literal v :: literals vs

def entryLiterals : List (Value × Value) → List Text
  | [] => []
  | (k, v) :: rest => (literal k ++ ": " ++ literal v) :: entryLiterals rest

end

mutual

/-- Whether no whole number in a value is too long to be written in decimal digits. -/
def isWritable : Value → Bool
  | int n => decide (n.natAbs < Nat.pow 10 Numeral.maxDigits)
  | list items => areWritable items
  | tuple items => areWritable items
  | set items => areWritable items
  | mapping entries => areEntriesWritable entries
  | _ => true

def areWritable : List Value → Bool
  | [] => true
  | v :: vs => isWritable v && areWritable vs

def areEntriesWritable : List (Value × Value) → Bool
  | [] => true
  | (k, v) :: rest => isWritable k && isWritable v && areEntriesWritable rest

end

/-- What is said of a value with a whole number in it that is too long to be written. -/
def unwritableText : Text :=
  "Exceeds the limit (" ++ toString Numeral.maxDigits ++
    " digits) for integer string conversion; " ++
    "use sys.set_int_max_str_digits() to increase the limit"

theorem literals_eq_map (vs : List Value) : literals vs = vs.map literal := by
  induction vs with
  | nil => rfl
  | cons v vs ih => simp [literals, ih]

def text? : Value → Option Text
  | text s => some s
  | _ => none

/-- The text of a value where texts are shown as they are. -/
def shown : Value → Text
  | text s => s
  | v => v.literal

/-- The elements of a value that can be gone through one by one; a mapping gives its keys. -/
def elements? : Value → Option (List Value)
  | list items => some items
  | tuple items => some items
  | set items => some items
  | mapping entries => some (entries.map Prod.fst)
  | bytes bs => some (bs.map fun b => int b.toNat)
  | _ => none

/-- Collections that can change cannot be keys. -/
def isKey : Value → Bool
  | list _ => false
  | set _ => false
  | mapping _ => false
  | again _ => false
  | _ => true

/-- The whole number that a truth value or number stands for among keys. -/
def asInt? : Value → Option Int
  | bool b => some (if b then 1 else 0)
  | int n => some n
  | _ => none

mutual

/-- The same value with the elements of its sets in the order that is given to them. -/
def arranged (order : List Value → List Value) : Value → Value
  | list items => list (arrangedAll order items)
  | tuple items => tuple (arrangedAll order items)
  | set items => set (order (arrangedAll order items))
  | mapping entries => mapping (arrangedEntries order entries)
  | v => v

def arrangedAll (order : List Value → List Value) : List Value → List Value
  | [] => []
  | v :: vs => arranged order v :: arrangedAll order vs

def arrangedEntries (order : List Value → List Value) :
    List (Value × Value) → List (Value × Value)
  | [] => []
  | (k, v) :: rest => (arranged order k, arranged order v) :: arrangedEntries order rest

end

theorem arrangedAll_eq_map (order : List Value → List Value) (vs : List Value) :
    arrangedAll order vs = vs.map (arranged order) := by
  induction vs with
  | nil => rfl
  | cons v vs ih => rw [arrangedAll, ih, List.map_cons]

/-- Whether two keys name the same entry: numbers by their value, whatever their type. -/
def sameKey : Value → Value → Bool
  | null, null => true
  | text s, text t => s == t
  | bytes bs, bytes cs => bs == cs
  | date d, date e => d == e
  | moment s, moment t => s.coincides t
  | path p, path q => p == q
  | real x, real y => x.equal y
  | real x, v => (v.asInt?.map x.isInt).getD false
  | v, real x => (v.asInt?.map x.isInt).getD false
  | v, w =>
    match v.asInt?, w.asInt? with
    | some n, some m => n == m
    | _, _ => false

mutual

/-- Whether two values are equal: like keys, or part by part; the order of the entries of mappings
and sets does not count. There is one not-a-number. -/
def equal : Value → Value → Bool
  | real .nan, real .nan => true
  | list vs, list ws => equalItems vs ws
  | tuple vs, tuple ws => equalItems vs ws
  | set vs, set ws => vs.length == ws.length && vs.all fun v => ws.any (sameKey v)
  | mapping es, mapping fs => es.length == fs.length && equalEntries es fs
  | v, w => sameKey v w

def equalItems : List Value → List Value → Bool
  | [], [] => true
  | v :: vs, w :: ws => equal v w && equalItems vs ws
  | _, _ => false

def equalEntries : List (Value × Value) → List (Value × Value) → Bool
  | [], _ => true
  | (k, v) :: rest, fs =>
    (match fs.find? fun f => sameKey k f.1 with
      | some f => equal v f.2
      | none => false) && equalEntries rest fs

end

/-- A later entry of the same key replaces the value and keeps the place and key of the first. -/
def putEntry (entries : List (Value × Value)) (key value : Value) : List (Value × Value) :=
  match entries with
  | [] => [(key, value)]
  | (k, v) :: rest =>
    if k.sameKey key then (k, value) :: rest else (k, v) :: putEntry rest key value

def putAll (entries added : List (Value × Value)) : List (Value × Value) :=
  added.foldl (fun acc entry => putEntry acc entry.1 entry.2) entries

def lookup (key : Text) : List (Value × Value) → Option Value
  | [] => none
  | (.text k, v) :: rest => if k = key then some v else lookup key rest
  | _ :: rest => lookup key rest

@[simp] theorem lookup_nil (key : Text) : lookup key [] = none := rfl

@[simp] theorem lookup_cons_self (key : Text) (v : Value) (rest : List (Value × Value)) :
    lookup key ((.text key, v) :: rest) = some v := by
  simp [lookup]

end Value

end NameCatalog
