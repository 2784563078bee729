/-
JSON values.

* `Value` is a value; its integers and its floating-point numbers are told apart,
  because they are written differently;
* `Fields` are the members of an object in the order of their names, and
  `Fields.insert` keeps that order and replaces a member of the same name.
-/
namespace KeyLayout.Json

/-- A JSON value. The members of an object are written in the order in which they stand. -/
inductive Value where
  | null
  | bool (b : Bool)
  | int (n : Int)
  | float (x : Float)
  | text (s : String)
  | list (items : List Value)
  | record (members : List (String × Value))

/-- Named values, ascending by name. -/
abbrev Fields := List (String × Value)

/-- Puts a member at its place; a member of the same name is replaced. -/
def Fields.insert (name : String) (value : Value) : Fields → Fields
  | [] => [(name, value)]
  | (other, held) :: rest =>
    if name = other then (name, value) :: rest
    else if name < other then (name, value) :: (other, held) :: rest
    else (other, held) :: Fields.insert name value rest

/-- The members that are present. -/
def Value.ofMembers (members : List (Option (String × Value))) : Value :=
  .record (members.filterMap id)

/-- A member that is left out when there is no value. -/
def optionalMember (name : String) (value : Option Value) : Option (String × Value) :=
  value.map fun v => (name, v)

end KeyLayout.Json
