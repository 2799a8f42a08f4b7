/-!
# Well-known namespaces

The namespaces of XML Schema, of the function library and of error codes, and the prefixes that are
bound to them from the start.
-/

namespace XQuery.Namespace

def xml : String := "http://www.w3.org/XML/1998/namespace"
def xs : String := "http://www.w3.org/2001/XMLSchema"
def xsi : String := "http://www.w3.org/2001/XMLSchema-instance"
/-- The namespace of the function library. -/
def functions : String := "http://www.w3.org/2005/xpath-functions"
def math : String := "http://www.w3.org/2005/xpath-functions/math"
def map : String := "http://www.w3.org/2005/xpath-functions/map"
def array : String := "http://www.w3.org/2005/xpath-functions/array"
/-- The namespace of functions that a query declares for itself. -/
def localFunctions : String := "http://www.w3.org/2005/xquery-local-functions"
/-- The namespace of error codes. -/
def errors : String := "http://www.w3.org/2005/xqt-errors"

/-- The prefixes that every static context binds. -/
def predefined : List (String × String) :=
  [("xml", xml), ("xs", xs), ("xsi", xsi), ("fn", functions), ("local", localFunctions),
   ("math", math), ("map", map), ("array", array), ("err", errors)]

end XQuery.Namespace
