/-!
JSON values as they are written: object fields keep their order and may repeat, and numbers keep
apart the integers and the literals with a fraction or an exponent. Half of a surrogate pair can be
written in a JSON string but is no text. A string that holds one, and an object with such a string
for a name, are values that no reader accepts.
-/

namespace ArenaPeak

inductive Json where
  | null
  | bool (b : Bool)
  | int (n : Int)
  /-- A number with a fraction or an exponent, or a negative zero, as it is written. -/
  | float (literal : String)
  | str (s : String)
  /-- A string that is no text, or an object with a name that is none. -/
  | broken
  | arr (items : List Json)
  | obj (fields : List (String × Json))

end ArenaPeak
