import TaskRelay.Text.Order

/-!
# Members by name

Lists of named entries in the order of their names, each name at most once; the entry set last for
a name is the one that counts.
-/

namespace TaskRelay.Json

variable {α : Type}

/-- Sets the entry named `k`, in its place in the order of names. -/
def insertMember (k : String) (v : α) : List (String × α) → List (String × α)
  | [] => [(k, v)]
  | (k', v') :: rest =>
    if k = k' then (k, v) :: rest
    else if Text.before k k' then (k, v) :: (k', v') :: rest
    else (k', v') :: insertMember k v rest

def member? (k : String) : List (String × α) → Option α
  | [] => none
  | (k', v) :: rest => if k = k' then some v else member? k rest

/-- Sets all the pairs, one after the other. -/
def membersOf (pairs : List (String × α)) : List (String × α) :=
  pairs.foldl (fun m p => insertMember p.1 p.2 m) []

end TaskRelay.Json
