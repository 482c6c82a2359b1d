import DblService.Db.Statements
import Mathlib.Data.Rat.Floor

/-!
# What the program takes from elsewhere

Exceptions, `Json::Value` with the conversions the code uses, and the parts that
come from other libraries: name resolution, the JSON reader, the digest and the
date parser.
-/

namespace DblService

inductive Exc
  | sql (e : SqlError)
  | runtime (what : String)
  | service (what : String) (errors : List String)  -- `ServiceOperationError` with its details
  | std (what : String)  -- a `std::exception` that is not a `std::runtime_error`
  | nullDereference  -- a null pointer is dereferenced: nothing catches it
  deriving DecidableEq, Repr

def Exc.isRuntimeError : Exc → Bool
  | .sql _ | .runtime _ | .service _ _ => true
  | .std _ | .nullDereference => false

def Exc.isException : Exc → Bool
  | .nullDereference => false
  | _ => true

/-- `Json::Value`, with the documented behaviour of the accessors: null reads as the default of
each type, and a conversion that is not defined raises the error of `JSON_ASSERT_MESSAGE`.  A
real number comes with the digits `valueToString` prints for it. -/
inductive Json
  | null
  | bool (b : Bool)
  | int (n : Int)
  | real (value : Rat) (text : String)
  | string (s : String)
  | array (items : List Json)
  | object (members : List (String × Json))

namespace Json

def isArray : Json → Bool
  | .array _ => true
  | _ => false

def isObject : Json → Bool
  | .object _ => true
  | _ => false

/-- `Json::Value::empty`: a string or a number is never empty. -/
def empty : Json → Bool
  | .null => true
  | .array items => items.isEmpty
  | .object members => members.isEmpty
  | _ => false

/-- `begin()` to `end()`: nothing for a scalar, the member values for an object. -/
def items : Json → List Json
  | .array items => items
  | .object members => members.map Prod.snd
  | _ => []

/-- `operator[](const char*) const`; a missing member reads as null. -/
def get (j : Json) (key : String) : Except String Json :=
  match j with
  | .null => .ok .null
  | .object members =>
    .ok (((members.find? fun m => m.1 = key).map Prod.snd).getD .null)
  | _ => .error "in Json::Value::operator[](char const*)const: requires objectValue"

/-- `Json::Value::asString`: every scalar has a text, null the empty one. -/
def asString : Json → Except String String
  | .null => .ok ""
  | .string s => .ok s
  | .bool b => .ok (if b then "true" else "false")
  | .int n => .ok (toString n)
  | .real _ text => .ok text
  | .array _ | .object _ => .error "Type is not convertible to string"

def isInt (n : Int) : Bool := decide (-2147483648 ≤ n ∧ n ≤ 2147483647)

/-- The range is checked on the number itself; a real number that passes loses its fraction. -/
def asInt : Json → Except String Int
  | .null => .ok 0
  | .bool b => .ok (if b then 1 else 0)
  | .int n => if isInt n then .ok n else .error "LargestInt out of Int range"
  | .real value _ =>
    if -2147483648 ≤ value ∧ value ≤ 2147483647 then
      .ok (if 0 ≤ value then value.floor else value.ceil)
    else .error "double out of Int range"
  | .string _ | .array _ | .object _ => .error "Value is not convertible to Int."

/-- `Json::Value::asBool`: a number is true unless it is zero, a text has no truth. -/
def asBool : Json → Except String Bool
  | .null => .ok false
  | .bool b => .ok b
  | .int n => .ok (n ≠ 0)
  | .real value _ => .ok (value ≠ 0)
  | .string _ | .array _ | .object _ => .error "Value is not convertible to bool."

/-- `root[key] = value` on an object; the members are kept in the order they are set. -/
def set (j : Json) (key : String) (value : Json) : Json :=
  match j with
  | .object members => .object (members.filter (fun m => m.1 ≠ key) ++ [(key, value)])
  | _ => .object [(key, value)]

end Json

/-- The configuration values that the modelled code reads, with their defaults. -/
structure Config where
  isDebug : Bool := false
  networkIp4Address : String := "127.0.0.1"
  networkIp6Address : String := "::1"
  networkNoIp4 : Bool := false
  networkNoIp6 : Bool := false
  disableListUpdate : Bool := false
  listIds : List String := ["CUSTOM"]

structure Env where
  isValid : String → Bool  -- `validator::domain::is_valid`: `getaddrinfo` resolves the name
  parseJson : String → Option Json  -- `Json::Reader::parse`
  parseErrors : String → String  -- `getFormattedErrorMessages` of a reader that failed
  styled : Json → String  -- `Json::Value::toStyledString`
  sqlWhat : SqlError → String  -- `soci_error::what`
  -- whether jsoncpp reports an access of the wrong type by a `std::runtime_error`
  jsonRuntime : Bool
  digest : String → List UInt8  -- the sixteen bytes of `MD5_Final`
  digest_length : ∀ s, (digest s).length = 16
  parseDate : String → Option Int  -- `strptime` with the format of `Last-Modified`, then `mktime`

namespace Env

variable (env : Env)

def jsonError (what : String) : Exc := if env.jsonRuntime then .runtime what else .std what

def lift {α : Type} (r : Except String α) : Except Exc α := r.mapError env.jsonError

def get (j : Json) (key : String) : Except Exc Json := env.lift (j.get key)

def asString (j : Json) : Except Exc String := env.lift j.asString

def asInt (j : Json) : Except Exc Int := env.lift j.asInt

def asBool (j : Json) : Except Exc Bool := env.lift j.asBool

end Env

/-- What ends with a value or with a `std::exception`. -/
def Standard {α : Type} (r : Except Exc α) : Prop := ∀ e, r = .error e → e.isException = true

namespace Standard

variable {α β : Type}

theorem ok (a : α) : Standard (.ok a) := nofun

theorem error {e : Exc} (h : e.isException = true) : Standard (.error e : Except Exc α) := by
  intro e' he
  cases he
  exact h

theorem bind {r : Except Exc α} {f : α → Except Exc β} (hr : Standard r)
    (hf : ∀ a, Standard (f a)) : Standard (r >>= f) := by
  cases r with
  | error e => exact error (hr e rfl)
  | ok a => exact hf a

theorem mapM {f : α → Except Exc β} (hf : ∀ a, Standard (f a)) (xs : List α) :
    Standard (xs.mapM f) := by
  induction xs with
  | nil => exact ok []
  | cons x xs ih =>
    rw [List.mapM_cons]
    exact (hf x).bind fun _ => ih.bind fun _ => ok _

end Standard

namespace Env

variable (env : Env)

/-- jsoncpp reports an access of the wrong type by a `std::exception`. -/
theorem standard_lift {α : Type} (r : Except String α) : Standard (env.lift r) := by
  cases r with
  | ok a => exact .ok a
  | error what =>
    refine .error ?_
    unfold jsonError
    cases env.jsonRuntime <;> rfl

/-- Surroundings in which every name resolves and only the given texts are JSON. -/
def ofTexts (texts : List (String × Json)) : Env where
  isValid name := name ≠ ""
  parseJson text := (texts.find? fun t => t.1 = text).map Prod.snd
  parseErrors _ := "* Line 1, Column 1"
  styled _ := ""
  sqlWhat _ := ""
  jsonRuntime := false
  digest s :=
    List.replicate 14 0 ++
      [UInt8.ofNat (s.toList.foldl (fun h c => 31 * h + c.toNat) 7 / 256),
        UInt8.ofNat (s.toList.foldl (fun h c => 31 * h + c.toNat) 7)]
  digest_length _ := rfl
  parseDate _ := none

end Env

end DblService
