/-
  Daybook/Json/Decode.lean
  ========================
  **From JSON to domain values.**  A decoder takes a JSON value to a domain value
  or refuses it.  A record is read from an object, where unknown fields are passed
  over and a known one may stand only once, or from an array that lists the fields
  by position.  `null` stands for a missing value only where one may be missing.
-/
import Daybook.Json.Value
import Daybook.Mapping

namespace Daybook.Json

/-! ### Plain values -/

def asInteger? (least most : Int) : Json → Option Int
  | .integer n => if least ≤ n ∧ n ≤ most then some n else none
  | _ => none

/-- The whole number from 0 to `most`. -/
def asNatural? (most : Nat) (value : Json) : Option Nat :=
  (asInteger? 0 most value).map Int.toNat

/-- The largest count, 2⁶⁴ − 1. -/
def largestCount : Nat := 18446744073709551615

/-- A count or a line number, from 0 to 2⁶⁴ − 1. -/
def asCount? : Json → Option Nat := asNatural? largestCount

/-- A small count, from 0 to 2³² − 1. -/
def asSmallCount? : Json → Option Nat := asNatural? 4294967295

/-- A duration, from −2⁶³ to 2⁶³ − 1. -/
def asDuration? : Json → Option Int := asInteger? (-9223372036854775808) 9223372036854775807

/-- A year, from −2³¹ to 2³¹ − 1. -/
def asYear? : Json → Option Int := asInteger? (-2147483648) 2147483647

def asText? : Json → Option String
  | .string text => some text
  | _ => none

def asBool? : Json → Option Bool
  | .boolean value => some value
  | _ => none

/-- What `read` makes of the text of a string. -/
def asTextOf? {α : Type} (read : String → Option α) (value : Json) : Option α :=
  (asText? value).bind read

/-- One of a set of names: the name as a string, or an object with the name as its only field and
    `null` as the value of the field. -/
def asNameOf? {α : Type} (read : String → Option α) : Json → Option α
  | .string name => read name
  | .object [(name, .null)] => read name
  | _ => none

/-! ### Collections -/

def asOptional? {α : Type} (decode : Json → Option α) : Json → Option (Option α)
  | .null => some none
  | value => (decode value).map some

def asList? {α : Type} (decode : Json → Option α) : Json → Option (List α)
  | .array items => items.mapM decode
  | _ => none

/-- The fields of an object; of several for one name the last wins. -/
def asMapping? {α : Type} (decode : Json → Option α) : Json → Option (Mapping α)
  | .object fields => do
    let entries ← fields.mapM fun (name, value) => (decode value).map fun value => (name, value)
    return Mapping.ofList entries
  | _ => none

/-! ### Records -/

/-- The fields of a record with these field names, as names and values. -/
def asFields? (names : List String) : Json → Option (List (String × Json))
  | .object fields =>
    let known := fields.filter fun field => names.contains field.1
    if (known.map (·.1)).Nodup then some known else none
  | .array items =>
    if items.length ≤ names.length then some (names.zip items) else none
  | _ => none

/-- The value of a field that must be there. -/
def required {α : Type} (fields : List (String × Json)) (name : String)
    (decode : Json → Option α) : Option α :=
  (fields.lookup name).bind decode

/-- The value of a field that may be left out. -/
def defaulted {α : Type} (fields : List (String × Json)) (name : String)
    (decode : Json → Option α) (default : α) : Option α :=
  match fields.lookup name with
  | none => some default
  | some value => decode value

end Daybook.Json
