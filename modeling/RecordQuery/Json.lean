import RecordQuery.Number

set_option autoImplicit false

/-!
# JSON trees

A JSON value as a tree.  The fields of an object are kept in the order of their keys, each key once,
so that two objects with the same fields are the same list whatever order they were written in.
-/

namespace RecordQuery

/-- A JSON value. -/
inductive Json where
  | null
  | boolean (value : Bool)
  | number (value : Number)
  | text (value : String)
  | array (items : List Json)
  /-- fields in ascending order of their keys -/
  | object (fields : List (String × Json))

namespace Json

instance : Inhabited Json := ⟨null⟩

/-- Sets a field in a list ordered by key; a field of that key is replaced. -/
def setField (key : String) (value : Json) : List (String × Json) → List (String × Json)
  | [] => [(key, value)]
  | (k, v) :: rest =>
    if key < k then (key, value) :: (k, v) :: rest
    else if key = k then (key, value) :: rest
    else (k, v) :: setField key value rest

/-- The object of fields in the order of writing; of two fields with one key the later counts. -/
def ofFields (fields : List (String × Json)) : Json :=
  object (fields.foldl (fun sorted field => setField field.1 field.2 sorted) [])

mutual

/-- Equality of trees; numbers are compared as numbers, so the two float zeros are equal. -/
def same : Json → Json → Bool
  | null, null => true
  | boolean a, boolean b => a == b
  | number a, number b => a.same b
  | text a, text b => a == b
  | array a, array b => sameItems a b
  | object a, object b => sameFields a b
  | _, _ => false

/-- Equality of arrays, item by item. -/
def sameItems : List Json → List Json → Bool
  | [], [] => true
  | a :: as, b :: bs => same a b && sameItems as bs
  | _, _ => false

/-- Equality of objects, field by field. -/
def sameFields : List (String × Json) → List (String × Json) → Bool
  | [], [] => true
  | (j, a) :: as, (k, b) :: bs => j == k && same a b && sameFields as bs
  | _, _ => false

end

end Json

end RecordQuery
