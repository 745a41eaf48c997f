import Mathlib.Data.Nat.Notation

/-!
# JSON

The values of payloads and metadata. A uuid is a number and a date a number of milliseconds; as
values they are kept apart from the texts they are printed as.

`JSON.parse` reads a number that is too large for a double, such as `1e400`, as an infinity, and
`JSON.stringify` prints `null` for one. So what a `jsonb` column holds of a value is `Json.stored`,
which is the value itself exactly if its numbers are finite.
-/

set_option autoImplicit false

namespace RealtimeOps

/-- An id from `uuid_generate_v4`. -/
abbrev Uuid := ℕ

/-- A `Date`, in milliseconds. -/
abbrev Date := ℕ

/-- A JSON value. -/
inductive Json where
  | null
  | bool (b : Bool)
  | num (q : Rat)
  /-- `Infinity`, or `-Infinity`. -/
  | infinity (negative : Bool)
  | str (s : String)
  | uuid (id : Uuid)
  | date (t : Date)
  | array (items : List Json)
  | object (fields : List (String × Json))

/-- A `Record<string, unknown>`. -/
abbrev Record := List (String × Json)

namespace Json

/-- `null` for an absent id. -/
def ofUuid? : Option Uuid → Json
  | some id => .uuid id
  | none => .null

/-- `null` for an absent text. -/
def ofText? : Option String → Json
  | some text => .str text
  | none => .null

/-! ## Equality -/

mutual

/-- Equality of two values, item by item and field by field. -/
def beq : Json → Json → Bool
  | null, null => true
  | bool b, bool b' => b == b'
  | num q, num q' => q == q'
  | infinity negative, infinity negative' => negative == negative'
  | str s, str s' => s == s'
  | uuid id, uuid id' => id == id'
  | date t, date t' => t == t'
  | array items, array items' => beqItems items items'
  | object fields, object fields' => beqFields fields fields'
  | _, _ => false

def beqItems : List Json → List Json → Bool
  | [], [] => true
  | item :: items, item' :: items' => beq item item' && beqItems items items'
  | _, _ => false

def beqFields : List (String × Json) → List (String × Json) → Bool
  | [], [] => true
  | (key, value) :: fields, (key', value') :: fields' =>
    key == key' && beq value value' && beqFields fields fields'
  | _, _ => false

end

mutual

theorem beq_iff : ∀ v v' : Json, beq v v' = true ↔ v = v'
  | null, v' | bool _, v' | num _, v' | infinity _, v' | str _, v' | uuid _, v' | date _, v' => by
    cases v' <;> simp [beq]
  | array items, v' => by cases v' <;> simp [beq, beqItems_iff items]
  | object fields, v' => by cases v' <;> simp [beq, beqFields_iff fields]

theorem beqItems_iff : ∀ items items' : List Json, beqItems items items' = true ↔ items = items'
  | [], items' => by cases items' <;> simp [beqItems]
  | item :: items, items' => by
    cases items' <;> simp [beqItems, beq_iff item, beqItems_iff items]

theorem beqFields_iff :
    ∀ fields fields' : List (String × Json), beqFields fields fields' = true ↔ fields = fields'
  | [], fields' => by cases fields' <;> simp [beqFields]
  | (key, value) :: fields, fields' => by
    cases fields' with
    | nil => simp [beqFields]
    | cons field fields' => simp [beqFields, beq_iff value, beqFields_iff fields, Prod.ext_iff]

end

instance : DecidableEq Json := fun v v' => decidable_of_iff _ (beq_iff v v')

/-! ## What is stored of a value -/

mutual

/-- The value read back from what `JSON.stringify` prints of it. -/
def stored : Json → Json
  | infinity _ => null
  | array items => array (storedItems items)
  | object fields => object (storedFields fields)
  | v => v

def storedItems : List Json → List Json
  | [] => []
  | item :: items => item.stored :: storedItems items

def storedFields : List (String × Json) → List (String × Json)
  | [] => []
  | (key, value) :: fields => (key, value.stored) :: storedFields fields

end

mutual

/-- All numbers in the value are finite. -/
def finite : Json → Bool
  | infinity _ => false
  | array items => finiteItems items
  | object fields => finiteFields fields
  | _ => true

def finiteItems : List Json → Bool
  | [] => true
  | item :: items => item.finite && finiteItems items

def finiteFields : List (String × Json) → Bool
  | [] => true
  | (_, value) :: fields => value.finite && finiteFields fields

end

mutual

/-- A value survives being printed exactly if its numbers are finite. -/
theorem stored_eq_self_iff : ∀ v : Json, v.stored = v ↔ v.finite = true
  | null | bool _ | num _ | infinity _ | str _ | uuid _ | date _ => by simp [stored, finite]
  | array items => by simp [stored, finite, storedItems_eq_self_iff items]
  | object fields => by simp [stored, finite, storedFields_eq_self_iff fields]

theorem storedItems_eq_self_iff :
    ∀ items : List Json, storedItems items = items ↔ finiteItems items = true
  | [] => by simp [storedItems, finiteItems]
  | item :: items => by
    simp [storedItems, finiteItems, stored_eq_self_iff item, storedItems_eq_self_iff items]

theorem storedFields_eq_self_iff :
    ∀ fields : List (String × Json), storedFields fields = fields ↔ finiteFields fields = true
  | [] => by simp [storedFields, finiteFields]
  | (key, value) :: fields => by
    simp [storedFields, finiteFields, stored_eq_self_iff value, storedFields_eq_self_iff fields]

end

end Json

namespace Record

/-- The record read back from what `JSON.stringify` prints of it. -/
def stored (record : Record) : Record :=
  Json.storedFields record

/-- All numbers in the record are finite. -/
def Finite (record : Record) : Prop :=
  Json.finiteFields record = true

instance : DecidablePred Finite := fun record =>
  inferInstanceAs (Decidable (Json.finiteFields record = true))

/-- A record survives being printed exactly if its numbers are finite. -/
theorem stored_eq_self_iff {record : Record} : stored record = record ↔ Finite record :=
  Json.storedFields_eq_self_iff record

theorem lookup_stored (record : Record) (key : String) :
    (stored record).lookup key = (record.lookup key).map Json.stored := by
  induction record with
  | nil => rfl
  | cons field record ih =>
    obtain ⟨key', value⟩ := field
    simp only [stored, Json.storedFields, List.lookup_cons]
    cases key == key' with
    | true => rfl
    | false => exact ih

end Record

end RealtimeOps
