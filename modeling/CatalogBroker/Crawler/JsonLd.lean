import CatalogBroker.Catalog.Model
import CatalogBroker.Json.Value

/-! How the crawler looks ODRL keys up in a JSON-LD node and reads scalars out of them. -/

set_option autoImplicit false

namespace CatalogBroker

/-- The entries of a value that is one entry or many, with list and set objects unwrapped. -/
def oneOrMany : Json → List Json
  | .array items => items
  | .object [(key, inner)] => if key = "@list" ∨ key = "@set" then oneOrMany inner else [.object [(key, inner)]]
  | other => [other]

def aliasedAll (value : Json) (name : String) : List Json :=
  [name, "odrl:" ++ name, odrlNs ++ name].filterMap value.get?

def oneOrManyAliased (value : Json) (name : String) : List Json := (aliasedAll value name).flatMap oneOrMany

def renderNumber (number : JsonNumber) : String :=
  match number.wholeFloat with
  | some whole => toString whole
  | none => number.display

def boolText (value : Bool) : String := if value then "true" else "false"

def jsonLdScalar : Json → Option String
  | .string text => some text
  | .number number => some (renderNumber number)
  | .bool value => some (boolText value)
  | .object members => match members.lookup "@value" with
    | some (.string text) => some text
    | some (.number number) => some (renderNumber number)
    | some (.bool value) => some (boolText value)
    | some _ => none
    | none =>
      if members.all fun member => member.1 = "@id" ∨ member.1 = "@type" then
        (members.lookup "@id").bind Json.asStr?
      else none
  | .array [item] => jsonLdScalar item
  | _ => none

/-- What reading one scalar field produced. -/
inductive Field where
  | absent
  | value (text : String)
  | unreadable
  deriving DecidableEq, Repr

def Field.value? : Field → Option String
  | .value text => some text
  | _ => none

def getField (value : Json) (name : String) : Field :=
  match aliasedAll value name with
  | [] => .absent
  | [raw] => match jsonLdScalar raw with
    | some text => .value text
    | none => .unreadable
  | _ => .unreadable

theorem getField_eq_value_iff {value : Json} {name text : String} :
    getField value name = .value text ↔ ∃ raw, aliasedAll value name = [raw] ∧ jsonLdScalar raw = some text := by
  unfold getField
  cases found : aliasedAll value name with
  | nil => simp
  | cons raw others =>
    cases others with
    | nil => cases read : jsonLdScalar raw <;> simp [read]
    | cons other others => simp

theorem getField_eq_absent_iff {value : Json} {name : String} :
    getField value name = .absent ↔ aliasedAll value name = [] := by
  unfold getField
  cases found : aliasedAll value name with
  | nil => simp
  | cons raw others =>
    cases others with
    | nil => cases read : jsonLdScalar raw <;> simp [read]
    | cons other others => simp

theorem aliasedAll_of_not_object {value : Json} (scalar : value.isObject = false) (name : String) :
    aliasedAll value name = [] := by
  cases value with
  | object members => cases scalar
  | _ => rfl

end CatalogBroker
