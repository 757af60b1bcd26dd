/-!
A location is written as names between slashes. In its normal form there is no empty name and no `.`, apart from the `.`
that stands for the working directory itself; two slashes at the beginning are kept, more count as one.
-/
namespace CpuLoad.Location

/-- The slashes that a location begins with, in normal form. -/
def rootOf (cs : List Char) : List Char :=
  match (cs.takeWhile (· = '/')).length with
  | 0 => []
  | 2 => ['/', '/']
  | _ => ['/']

/-- The names between the slashes, with empty ones. -/
def split : List Char → List (List Char)
  | [] => [[]]
  | c :: rest =>
    match c, split rest with
    | '/', names => [] :: names
    | c, [] => [[c]]
    | c, name :: names => (c :: name) :: names

/-- The names of a location, without empty ones and without `.`. -/
def namesOf (path : String) : List String :=
  ((split path.toList).filter fun name => name ≠ [] && name ≠ ['.']).map String.ofList

def normal (path : String) : String :=
  let text := String.ofList (rootOf path.toList) ++ "/".intercalate (namesOf path)
  if text = "" then "." else text

def join (directory name : String) : String :=
  let text := normal directory
  if text = "." then name else if text.endsWith "/" then text ++ name else text ++ "/" ++ name

end CpuLoad.Location
