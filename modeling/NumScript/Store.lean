/-
  The store: the variables of a program and their values.

  There is one store for the whole program, blocks included.  A name that has been given a value
  keeps its place when it is given another, so that a store lists its names in the order in which
  they were first assigned; what a name's value is does not depend on that order (`get?_set`).
-/

namespace NumScript

/-- The variables that have values. -/
structure Store where
  /-- Names and values, no name twice. -/
  entries : List (String × Float)

namespace Store

/-- The store in which no variable has a value. -/
def empty : Store where
  entries := []

/-- The first value listed for a name. -/
def find? (name : String) : List (String × Float) → Option Float
  | [] => none
  | (other, value) :: rest => if other = name then some value else find? name rest

/-- The value listed for a name is replaced, or listed last if there was none. -/
def replace (name : String) (value : Float) : List (String × Float) → List (String × Float)
  | [] => [(name, value)]
  | (other, old) :: rest =>
    if other = name then (name, value) :: rest else (other, old) :: replace name value rest

/-- The value of a variable, if it has one. -/
def get? (store : Store) (name : String) : Option Float :=
  find? name store.entries

/-- The store after a variable was given a value. -/
def set (store : Store) (name : String) (value : Float) : Store where
  entries := replace name value store.entries

theorem find?_replace (name other : String) (value : Float) (entries : List (String × Float)) :
    find? other (replace name value entries) =
      if name = other then some value else find? other entries := by
  induction entries with
  | nil => rfl
  | cons entry rest ih => grind [find?, replace]

/-- Setting a variable changes it and no other. -/
theorem get?_set (store : Store) (name other : String) (value : Float) :
    (store.set name value).get? other = if name = other then some value else store.get? other :=
  find?_replace ..

end Store

end NumScript
