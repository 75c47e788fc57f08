import Mathlib.Data.Nat.Notation

/-!
# JSON values

What `boost::json` gives the gateway: values as it holds them, and the accessors
that throw on a value of another kind. The parser itself and the texts of the
exceptions are the library's (`CertOS.JsonLibrary`).
-/

namespace CertOS

/-- If two computations one after the other throw no exception, neither of them does. -/
theorem exists_of_bind_eq_ok {ε α β : Type} {x : Except ε α} {f : α → Except ε β} {b : β}
    (h : x >>= f = .ok b) : ∃ a, x = .ok a ∧ f a = .ok b := by
  cases x with
  | error what => cases h
  | ok a => exact ⟨a, rfl, h⟩

/-- A JSON value. An integer is held as `int64` if it fits, else as `uint64` if it fits, and
else as a `double`, like every other number; the gateway reads no `double`. -/
inductive JsonValue where
  | null
  | bool (b : Bool)
  | int64 (n : Int64)
  | uint64 (n : UInt64)
  | double
  | string (s : String)
  | array (values : List JsonValue)
  | object (members : List (String × JsonValue))

/-- The members of a JSON object, in the order in which they were added. -/
abbrev JsonObject := List (String × JsonValue)

/-- `boost::json`, as far as the gateway sees it. -/
structure JsonLibrary where
  /-- `boost::json::parse`: the value of a text, or the text of an exception. -/
  parse : String → Except String JsonValue
  /-- The exception of `as_object` on a value of another kind. -/
  notObject : String
  /-- The exception of `as_string`. -/
  notString : String
  /-- The exception of `as_int64`. -/
  notInt64 : String
  /-- The exception of `as_bool`. -/
  notBool : String

namespace JsonValue

variable (L : JsonLibrary)

/-- `as_object`. -/
def asObject : JsonValue → Except String JsonObject
  | .object members => .ok members
  | _ => .error L.notObject

/-- `as_string`. -/
def asString : JsonValue → Except String String
  | .string s => .ok s
  | _ => .error L.notString

/-- `as_int64`. -/
def asInt64 : JsonValue → Except String Int64
  | .int64 n => .ok n
  | _ => .error L.notInt64

/-- `as_bool`. -/
def asBool : JsonValue → Except String Bool
  | .bool b => .ok b
  | _ => .error L.notBool

/-- The string a value is, if it is one. -/
def string? : JsonValue → Option String
  | .string s => some s
  | _ => none

/-- The value is `true`. -/
def isTrue : JsonValue → Bool
  | .bool b => b
  | _ => false

end JsonValue

namespace JsonObject

/-- `operator[]`: a member, or `null` if there is none. -/
def get (body : JsonObject) (key : String) : JsonValue := (body.lookup key).getD .null

/-- `contains`. -/
def contains (body : JsonObject) (key : String) : Bool := (body.lookup key).isSome

end JsonObject

end CertOS
