/-
Maps that list their entries in the order of their keys, each key once. Of two different keys one comes before the other; keys of
which neither does are the same.
-/
namespace NativeBridge.Ordered

variable {K α : Type}

/-- the entries with a value put under a key; what stands under the same key is replaced -/
def put (before : K → K → Bool) (key : K) (value : α) : List (K × α) → List (K × α)
  | [] => [(key, value)]
  | entry :: rest =>
    if before key entry.1 then (key, value) :: entry :: rest
    else if before entry.1 key then entry :: put before key value rest
    else (key, value) :: rest

/-- the entries with further ones put among them, one after the other -/
def putAll (before : K → K → Bool) (entries more : List (K × α)) : List (K × α) :=
  more.foldl (fun made entry => put before entry.1 entry.2 made) entries

end NativeBridge.Ordered
