import Mathlib.Data.Rat.Defs
import Mathlib.Data.List.Basic

/-!
# JSON values and derived deserialisation

A JSON tree and the readers a derived deserialiser applies to the fields of an
object: a required field, an optional one (absent or `null` reads as nothing)
and one with a default (absent reads as the default, `null` is refused). The
textual forms of decimals and of instants belong to libraries, so they are the
fields of a `Codec` that carries the round trips a program relies on.
-/

namespace ElectronixMes.Serde

/-- A JSON value. Integers and floats are told apart, as the parser does. -/
inductive Json where
  | null
  | bool (b : Bool)
  | int (n : Int)
  | float (x : ℚ)
  | str (s : String)
  | arr (items : List Json)
  | obj (fields : List (String × Json))
  deriving Inhabited

namespace Json

/-- Member access: only an object has members. -/
def get? : Json → String → Option Json
  | obj fields, k => fields.lookup k
  | _, _ => none

def asString : Json → Option String
  | str s => some s
  | _ => none

/-- An integer that fits 32 bits. -/
def asInt32 : Json → Option Int32
  | int n =>
      if h : Int32.minValue.toInt ≤ n ∧ n ≤ Int32.maxValue.toInt then
        some (Int32.ofIntLE n h.1 h.2)
      else none
  | _ => none

@[simp] theorem asInt32_toInt (n : Int32) : asInt32 (int n.toInt) = some n := by
  rw [asInt32, dif_pos ⟨n.minValue_le_toInt, n.toInt_le⟩, Int32.ofIntLE_toInt]

/-- `null` reads as nothing. -/
def asOption {α : Type*} (read : Json → Option α) : Json → Option (Option α)
  | null => some none
  | v => (read v).map some

theorem asOption_of_ne_null {α : Type*} {read : Json → Option α} {v : Json}
    (h : v ≠ null) : asOption read v = (read v).map some := by
  cases v <;> first | rfl | exact absurd rfl h

end Json

section Fields

variable {α : Type*} (fields : List (String × Json)) (k : String) (read : Json → Option α)

/-- A field without which the object is refused. -/
def required : Option α := (fields.lookup k).bind read

/-- An `Option` field: absent and `null` both read as nothing. -/
def optional : Option (Option α) :=
  match fields.lookup k with
  | none => some none
  | some v => Json.asOption read v

/-- A field with a default for when it is absent. -/
def defaulted (d : α) : Option α :=
  match fields.lookup k with
  | none => some d
  | some v => read v

end Fields

/-- A decimal number: `mantissa · 10^(-scale)`, the scale being kept. -/
structure Decimal where
  mantissa : Int
  scale : Nat
  deriving DecidableEq, Inhabited

/-- Decimals compare by value. -/
instance : LT Decimal :=
  ⟨fun a b => a.mantissa * Int.pow 10 b.scale < b.mantissa * Int.pow 10 a.scale⟩

instance (a b : Decimal) : Decidable (a < b) :=
  inferInstanceAs (Decidable (a.mantissa * Int.pow 10 b.scale < b.mantissa * Int.pow 10 a.scale))

/-- How decimals and instants (in microseconds) are written as JSON and read
back, and the text of a refusal. -/
structure Codec where
  decimalToJson : Decimal → Json
  decimalFromJson : Json → Option Decimal
  dateTimeToJson : Int → Json
  dateTimeFromJson : Json → Option Int
  errorText : Json → String
  decimal_roundtrip : ∀ d, decimalFromJson (decimalToJson d) = some d
  dateTime_roundtrip : ∀ t, dateTimeFromJson (dateTimeToJson t) = some t
  dateTime_ne_null : ∀ t, dateTimeToJson t ≠ .null

namespace Codec

variable (c : Codec)

/-- An optional instant is written as `null` when it is absent. -/
def optDateTimeToJson : Option Int → Json
  | none => .null
  | some t => c.dateTimeToJson t

@[simp] theorem asOption_optDateTimeToJson (t : Option Int) :
    Json.asOption c.dateTimeFromJson (c.optDateTimeToJson t) = some t := by
  cases t with
  | none => rfl
  | some t =>
      rw [optDateTimeToJson, Json.asOption_of_ne_null (c.dateTime_ne_null t),
        c.dateTime_roundtrip, Option.map_some]

/-- A codec that writes the quantity ten as its digits, as the decimal library
does, reads integers as decimals, and tells all other values apart. -/
def sample : Codec where
  decimalToJson d := if d = ⟨10, 0⟩ then .str "10" else .arr [.int d.mantissa, .int d.scale]
  decimalFromJson
    | .str s => if s = "10" then some ⟨10, 0⟩ else none
    | .int m => some ⟨m, 0⟩
    | .arr [.int m, .int k] => some ⟨m, k.toNat⟩
    | _ => none
  dateTimeToJson t := .int t
  dateTimeFromJson
    | .int t => some t
    | _ => none
  errorText _ := "invalid type"
  decimal_roundtrip := by
    intro d
    by_cases h : d = ⟨10, 0⟩ <;> simp [h]
  dateTime_roundtrip _ := rfl
  dateTime_ne_null _ := Json.noConfusion

end Codec

/-- An optional string is written as `null` when it is absent. -/
def optStringToJson : Option String → Json
  | none => .null
  | some s => .str s

@[simp] theorem asOption_optStringToJson (s : Option String) :
    Json.asOption Json.asString (optStringToJson s) = some s := by
  cases s <;> rfl

end ElectronixMes.Serde
