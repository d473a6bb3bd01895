import Tracing.Text.LowerCase

/-!
# Carriers

The headers of a message, in one of two forms. A map holds one value under each name; names are written and looked
up in lower case, but a map filled by other means holds names as they came. A list holds headers in order, in
which a name may repeat; names are written in lower case and compared without regard to the case of the seven-bit
code. Values are looked up by name, one or all of them.
-/

namespace Tracing

open Text

/-- A name and a value. -/
abbrev Header := String × String

/-- The name in the lower case of the whole Unicode repertoire. -/
def lowerName (name : String) : String := String.ofList (lowerCase name.toList)

/-- The names are the same but for the case of letters of the seven-bit code. -/
def sameName (a b : String) : Bool := foldAscii a.toList == foldAscii b.toList

/-- Headers under distinct names, in ascending order of the names. -/
structure HeaderMap where
  headers : List Header := []
deriving DecidableEq, Repr, Inhabited

namespace HeaderMap

/-- Puts a value under a name, in place of an earlier one. -/
def put (name value : String) : List Header → List Header
  | [] => [(name, value)]
  | (n, v) :: rest =>
    if name = n then (name, value) :: rest
    else if name < n then (name, value) :: (n, v) :: rest
    else (n, v) :: put name value rest

/-- The map of headers that come as they are; of equal names the last counts. -/
def ofHeaders (hs : List Header) : HeaderMap := ⟨hs.foldl (fun m (n, v) => put n v m) []⟩

/-- Writes a header. -/
def set (m : HeaderMap) (name value : String) : HeaderMap := ⟨put (lowerName name) value m.headers⟩

/-- The value under a name. -/
def get? (m : HeaderMap) (name : String) : Option String := m.headers.lookup (lowerName name)

end HeaderMap

/-- Headers in the order of the message. -/
structure HeaderList where
  headers : List Header := []
deriving DecidableEq, Repr, Inhabited

namespace HeaderList

/-- Writes a header at the end, in place of all of its name. -/
def set (l : HeaderList) (name value : String) : HeaderList :=
  ⟨l.headers.filter (fun h => !sameName h.1 name) ++ [(lowerName name, value)]⟩

/-- All values under a name, in order. -/
def values (l : HeaderList) (name : String) : List String :=
  (l.headers.filter fun h => sameName h.1 name).map Prod.snd

/-- The first value under a name. -/
def get? (l : HeaderList) (name : String) : Option String := (l.values name).head?

end HeaderList

/-- The headers of a message. -/
inductive Carrier where
  | map (m : HeaderMap)
  | list (l : HeaderList)
deriving DecidableEq, Repr, Inhabited

namespace Carrier

/-- The headers: of a map in ascending order of the names, of a list as they stand. -/
def headers : Carrier → List Header
  | map m => m.headers
  | list l => l.headers

/-- The names of the headers. -/
def keys (c : Carrier) : List String := c.headers.map Prod.fst

/-- Writes a header. -/
def set : Carrier → String → String → Carrier
  | map m, name, value => map (m.set name value)
  | list l, name, value => list (l.set name value)

/-- The value under a name, the first if there are several. -/
def get? : Carrier → String → Option String
  | map m, name => m.get? name
  | list l, name => l.get? name

/-- All values under a name, if there is one. -/
def getAll? : Carrier → String → Option (List String)
  | map m, name => (m.get? name).map fun v => [v]
  | list l, name => let vs := l.values name; if vs = [] then none else some vs

end Carrier

end Tracing
