import Mathlib.Data.Rat.Defs

set_option autoImplicit false

namespace CultivationMotain.Foundation

abbrev NSData := List UInt8

-- What JSONSerialization reads, numbers exact. A dictionary holds a key at most
-- once.
inductive JSONValue where
  | null
  | bool (value : Bool)
  | number (value : Rat)
  | string (text : String)
  | array (elements : List JSONValue)
  | dictionary (members : List (String × JSONValue))

-- The casts of Swift 3: truth values and numbers are both NSNumber.
def JSONValue.asString : JSONValue → Option String
  | .string text => some text
  | _ => none

def JSONValue.asBool : JSONValue → Option Bool
  | .bool value => some value
  | .number value => some (value != 0)
  | _ => none

def JSONValue.asInt : JSONValue → Option Int
  | .bool value => some (if value then 1 else 0)
  | .number value => some (value.num.tdiv value.den)
  | _ => none

def JSONValue.asNumber : JSONValue → Option Rat
  | .bool value => some (if value then 1 else 0)
  | .number value => some value
  | _ => none

def JSONValue.asArray : JSONValue → Option (List JSONValue)
  | .array elements => some elements
  | _ => none

def JSONValue.asDictionary : JSONValue → Option (List (String × JSONValue))
  | .dictionary members => some members
  | _ => none

-- The value of a key, where a missing one is nil; none is the exception of an
-- object that has no such key. An array has the values of its elements.
mutual

def JSONValue.valueForKey (key : String) : JSONValue → Option (Option JSONValue)
  | .dictionary members => some (members.lookup key)
  | .array elements => (valuesForKey key elements).map fun values => some (.array values)
  | _ => none

def valuesForKey (key : String) : List JSONValue → Option (List JSONValue)
  | [] => some []
  | element :: rest =>
      match element.valueForKey key, valuesForKey key rest with
      | some value, some values => some (value.getD .null :: values)
      | _, _ => none

end

def JSONValue.valueForKeyPath (object : JSONValue) : List String → Option (Option JSONValue)
  | [] => some (some object)
  | key :: rest =>
      match object.valueForKey key with
      | none => none
      | some none => some none
      | some (some value) => value.valueForKeyPath rest

-- The value that a path of keys leads to, through dictionaries only.
def JSONValue.at? (object : JSONValue) : List String → Option JSONValue
  | [] => some object
  | key :: rest =>
      match object with
      | .dictionary members => (members.lookup key).bind fun value => value.at? rest
      | _ => none

theorem key_path_at (members : List (String × JSONValue)) (key last : String)
    (has : ∀ value, members.lookup key = some value → ∃ inner, value = .dictionary inner) :
    (JSONValue.dictionary members).valueForKeyPath [key, last] =
      some ((JSONValue.dictionary members).at? [key, last]) := by
  cases found : members.lookup key with
  | none => simp [JSONValue.valueForKeyPath, JSONValue.valueForKey, JSONValue.at?, found]
  | some value =>
      obtain ⟨inner, rfl⟩ := has value found
      cases deeper : inner.lookup last <;>
        simp [JSONValue.valueForKeyPath, JSONValue.valueForKey, JSONValue.at?, found, deeper]

end CultivationMotain.Foundation
