/-! What a request knows. Mappers pass it on to the links providers and do not look at it. -/

namespace JsonMapping

structure RequestContext where
  baseUrl : String := ""
deriving DecidableEq

namespace RequestContext

private def dropTrailingSlashes (cs : List Char) : List Char :=
  (cs.reverse.dropWhile (· == '/')).reverse

/-- The address of a path under the base, with one slash between them. -/
def urlFor (c : RequestContext) (path : String) : String :=
  String.ofList <| dropTrailingSlashes c.baseUrl.toList ++
    '/' :: path.toList.dropWhile (· == '/')

end RequestContext

end JsonMapping
