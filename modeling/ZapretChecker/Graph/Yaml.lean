import Mathlib.Data.Rat.Defs
import ZapretChecker.Lib.Text

/-!
# YAML values

`serde_yaml::Value` and the accessors `src/graph.rs` uses. Every accessor looks through tags.

A number outside the range of `i64` is only ever read as an `f64`, so it is a `float` here. A
`float` carries the text that `f64::to_string` gives for it.
-/

namespace ZapretChecker.Graph

inductive Value
  | null
  | bool (b : Bool)
  | int (n : Int)
  | float (value : Rat) (text : String)
  | string (s : String)
  | sequence (items : List Value)
  | mapping (entries : List (Value × Value))
  | tagged (tag : String) (value : Value)
  deriving Inhabited

namespace Value

/-- `untag_ref` -/
def untag : Value → Value
  | .tagged _ value => value.untag
  | value => value

def asStr (v : Value) : Option String :=
  match v.untag with
  | .string s => some s
  | _ => none

def asBool (v : Value) : Option Bool :=
  match v.untag with
  | .bool b => some b
  | _ => none

def asF64 (v : Value) : Option Rat :=
  match v.untag with
  | .int n => some n
  | .float value _ => some value
  | _ => none

def asSequence (v : Value) : Option (List Value) :=
  match v.untag with
  | .sequence items => some items
  | _ => none

def asMapping (v : Value) : Option (List (Value × Value)) :=
  match v.untag with
  | .mapping entries => some entries
  | _ => none

/-- The value is the string `key`; a tagged string is another key. -/
def isKey (key : String) : Value → Bool
  | .string s => s == key
  | _ => false

/-- `Mapping::get` with a string key -/
def lookup (entries : List (Value × Value)) (key : String) : Option Value :=
  (entries.find? fun e => isKey key e.1).map (·.2)

/-- `Value::get` -/
def get (v : Value) (key : String) : Option Value :=
  v.asMapping.bind fun entries => lookup entries key

end Value

/-! ## Helpers of the source -/

def valueSeq (value : Value) (key : String) : Option (List Value) :=
  (value.get key).bind Value.asSequence

def stringList (value : Option Value) : List String :=
  ((value.bind Value.asSequence).map fun seq => seq.filterMap Value.asStr).getD []

def valueToString (value : Value) : Option String :=
  match value.untag with
  | .string s => some s
  | .int n => some (toString n)
  | .float _ text => some text
  | .bool b => some (toString b)
  | _ => none

def valuesFromYaml (value : Value) : List String :=
  match value.asSequence with
  | some seq => seq.filterMap valueToString
  | none => (valueToString value).toList

def resolveRef (root : Value) (path : String) : Option Value :=
  (Text.split path '.').foldlM Value.get root

example : resolveRef (.mapping [(.string "a", .mapping [(.string "b", .int 3)])]) "a.b" =
    some (.int 3) := rfl

end ZapretChecker.Graph
