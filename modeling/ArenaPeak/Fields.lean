/-!
Records given as named fields. The declared fields are put into slots in their order, a slot staying
empty where the field is missing. Fields that are not declared are passed over; a declared one may
not repeat.
-/

namespace ArenaPeak.Fields

/-- Whether no declared name occurs twice among the fields. -/
def noRepeats {α : Type} (names : List String) (fields : List (String × α)) : Bool :=
  names.all fun name => fields.countP (·.1 == name) ≤ 1

def slots {α : Type} (names : List String) (fields : List (String × α)) :
    Option (List (Option α)) :=
  if noRepeats names fields then some (names.map fun name => fields.lookup name) else none

end ArenaPeak.Fields
