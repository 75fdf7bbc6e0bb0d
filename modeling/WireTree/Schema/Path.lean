import WireTree.Schema.Basic

/-!
# Method paths

A method is asked for by the full name of its service and its own name, with a point or a slash between them and slashes
in front if one likes. The last point divides the two, so a method name with a point in it is never found.
-/

namespace WireTree

namespace MethodPath

/-- The path without leading slashes, and with points for the other slashes. -/
def normalize (path : List Char) : List Char :=
  (path.dropWhile (· == '/')).map fun char => if char = '/' then '.' else char

/-- What stands before and behind the last point. -/
def split? (path : List Char) : Option (List Char × List Char) :=
  let (last, rest) := path.reverse.span (· != '.')
  match rest with
  | [] => none
  | _ :: front => some (front.reverse, last.reverse)

end MethodPath

namespace Service

def methodNamed? (service : Service) (name : String) : Option Method :=
  service.methods.find? (·.name == name)

end Service

namespace Schema

/-- The method of a path, with its service. -/
def methodAt? (schema : Schema) (path : String) : Option (Service × Method) := do
  let (front, last) ← MethodPath.split? (MethodPath.normalize path.toList)
  let service ← schema.serviceNamed? (String.ofList front)
  let method ← service.methodNamed? (String.ofList last)
  return (service, method)

end Schema

end WireTree
