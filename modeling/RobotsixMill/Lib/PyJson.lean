import Mathlib.Data.List.Basic

/-!
# `Lib.PyJson` — a parsed JSON text, handled the way Python does

What `json()` gives, and the operations that code applies to it without checking its shape. An operation
that raises gives `none`.
-/

namespace RobotsixMill
namespace Lib

inductive Json
  | null
  | bool (b : Bool)
  | num (n : Int)
  | str (s : String)
  | arr (items : List Json)
  | obj (fields : List (String × Json))

namespace Json

/-- `bool(j)`. -/
def truthy : Json → Bool
  | .null => false
  | .bool b => b
  | .num n => decide (n ≠ 0)
  | .str s => decide (s ≠ "")
  | .arr items => !items.isEmpty
  | .obj fields => !fields.isEmpty

/-- `for item in j`: a text goes by its characters, an object by its keys. -/
def iterate : Json → Option (List Json)
  | .arr items => some items
  | .str s => some (s.toList.map fun c => .str c.toString)
  | .obj fields => some (fields.map fun field => .str field.1)
  | _ => none

/-- `j[0]`. -/
def first : Json → Option Json
  | .arr items => items.head?
  | .str s => s.toList.head?.map fun c => .str c.toString
  | _ => none

/-- `j[key]`. Of two fields with one name the last counts. -/
def getItem (j : Json) (key : String) : Option Json :=
  match j with
  | .obj fields => fields.reverse.lookup key
  | _ => none

/-- `j.get(key, default)`. -/
def get (j : Json) (key : String) (default : Json) : Option Json :=
  match j with
  | .obj fields => some ((fields.reverse.lookup key).getD default)
  | _ => none

end Json
end Lib
end RobotsixMill
