import Mathlib

/-! JSON values as the crawler and the token claims arrive: parsed, with every key once.

Objects keep their members in the order the map is visited in.
-/

set_option autoImplicit false

namespace CatalogBroker

/-- A number: its JSON spelling, and its value where it is a float that is whole and below 1e15
in magnitude. -/
structure JsonNumber where
  display : String
  wholeFloat : Option Int
  deriving DecidableEq, Repr

inductive Json where
  | null
  | bool (value : Bool)
  | number (value : JsonNumber)
  | string (value : String)
  | array (items : List Json)
  | object (members : List (String × Json))

/-- Induction over a value, with the hypothesis for every entry of an array and every member of an object. -/
@[elab_as_elim, induction_eliminator]
theorem Json.induction {motive : Json → Prop} (null : motive .null) (bool : ∀ value, motive (.bool value))
    (number : ∀ value, motive (.number value)) (string : ∀ value, motive (.string value))
    (array : ∀ items, (∀ item ∈ items, motive item) → motive (.array items))
    (object : ∀ members, (∀ member ∈ members, motive member.2) → motive (.object members))
    (value : Json) : motive value :=
  @Json.rec motive (fun items => ∀ item ∈ items, motive item) (fun members => ∀ member ∈ members, motive member.2)
    (fun member => motive member.2) null bool number string array object (by simp)
    (fun _ _ head tail => by simpa using ⟨head, tail⟩) (by simp)
    (fun _ _ head tail => by simpa using ⟨head, by simpa using tail⟩) (fun _ _ value => value) value

namespace Json

/-- `Value::get` with a key: `none` for anything but an object. -/
def get? (value : Json) (key : String) : Option Json :=
  match value with
  | .object members => members.lookup key
  | _ => none

def asStr? : Json → Option String
  | .string value => some value
  | _ => none

/-- `Value::as_u64`: a number spelled in digits only, which is how an unsigned integer is written. -/
def asU64? : Json → Option Nat
  | .number value =>
    if value.wholeFloat = none ∧ value.display ≠ "" ∧ value.display.toList.all Char.isDigit then
      some (Nat.ofDigitChars 10 value.display.toList 0)
    else none
  | _ => none

def ofNat (value : Nat) : Json := .number ⟨toString value, none⟩

def asArray? : Json → Option (List Json)
  | .array items => some items
  | _ => none

def isObject : Json → Bool
  | .object _ => true
  | _ => false

def escapeChar (char : Char) : List Char :=
  if char = '"' then ['\\', '"']
  else if char = '\\' then ['\\', '\\']
  else if char = '\n' then ['\\', 'n']
  else if char = '\r' then ['\\', 'r']
  else if char = '\t' then ['\\', 't']
  else if char.toNat = 8 then ['\\', 'b']
  else if char.toNat = 12 then ['\\', 'f']
  else if char.toNat < 32 then
    ['\\', 'u', '0', '0', Nat.digitChar (char.toNat / 16), Nat.digitChar (char.toNat % 16)]
  else [char]

def quote (value : String) : String :=
  "\"" ++ String.ofList (value.toList.flatMap escapeChar) ++ "\""

mutual
def text : Json → String
  | .null => "null"
  | .bool value => if value then "true" else "false"
  | .number value => value.display
  | .string value => quote value
  | .array items => "[" ++ itemsText items ++ "]"
  | .object members => "\x7b" ++ membersText members ++ "\x7d"

def itemsText : List Json → String
  | [] => ""
  | [item] => item.text
  | item :: items => item.text ++ "," ++ itemsText items

def membersText : List (String × Json) → String
  | [] => ""
  | [(key, value)] => quote key ++ ":" ++ value.text
  | (key, value) :: members => quote key ++ ":" ++ value.text ++ "," ++ membersText members
end

end Json

end CatalogBroker
