import DblService.Environment

/-!
# HTTP responses

The headers of a response as `util::http::parse_headers` reads them, and the date
that `Response::get_last_modified` takes from them.
-/

namespace DblService

namespace Http

/-- `std::isspace` in the classic locale. -/
def isSpace (c : Char) : Bool := c = ' ' || (9 ≤ c.toNat && c.toNat ≤ 13)

def trimCopy (s : List Char) : List Char :=
  ((s.dropWhile isSpace).reverse.dropWhile isSpace).reverse

def parseLine (line : List Char) : Option (String × String) :=
  match line.span (· ≠ ':') with
  | (_, []) => none
  | (name, _ :: value) => some (String.ofList (trimCopy name), String.ofList (trimCopy value))

/-- Of two headers with one name the map keeps the first. -/
def parseHeaders (raw : String) : List (String × String) :=
  (raw.toList.splitOn '\r').filterMap parseLine

end Http

structure Response where
  statusCode : Int := 200
  rawHeaders : String := ""
  body : String
  deriving DecidableEq, Repr

namespace Response

def getHeader (r : Response) (name : String) : String :=
  (((Http.parseHeaders r.rawHeaders).find? fun h => h.1 = name).map Prod.snd).getD ""

/-- Zero when there is no such header or the date does not parse. -/
def getLastModified (env : Env) (r : Response) : Int :=
  let lm := r.getHeader "Last-Modified"
  if lm = "" then 0 else (env.parseDate lm).getD 0

end Response

end DblService
