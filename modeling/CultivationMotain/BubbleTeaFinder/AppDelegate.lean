import CultivationMotain.Foundation.JSONValue
import CultivationMotain.Library.Rounding
import Mathlib.Data.List.Forall2

set_option autoImplicit false

namespace CultivationMotain.BubbleTeaFinder.Seed

open Foundation Rounding

-- The format of an attribute of type Float.
def single : Rounding.Format := ⟨24, 149, 277, by decide⟩

abbrev FloatValue := Rounding.Value single

-- What the store keeps of a number, by the type of its attribute. It is left open
-- what becomes of one that the type has no room for.
structure AttributeTypes where
  integer32 : Rat → Int32
  float : Rat → FloatValue
  integer32_whole : ∀ n : Int32, integer32 n.toInt = n
  float_whole : ∀ x (fits : Representable single x), float x = .number x fits

-- The numbers of the attributes are those that the store keeps.
structure Location where
  address : Option String
  city : Option String
  state : Option String
  zipcode : Option String
  distance : Option FloatValue
deriving DecidableEq, Repr

structure Category where
  categoryID : Option String
  name : Option String
deriving DecidableEq, Repr

structure PriceInfo where
  priceCategory : Option String
deriving DecidableEq, Repr

structure Stats where
  checkinsCount : Option Int32
  usersCount : Option Int32
  tipCount : Option Int32
deriving DecidableEq, Repr

-- A venue is kept with the four objects that it is linked to.
structure Venue where
  name : Option String
  phone : Option String
  specialCount : Option Int32
  location : Location
  category : Category
  priceInfo : PriceInfo
  stats : Stats
deriving DecidableEq, Repr

structure CoreDataStack where
  store : List Venue
  inserted : List Venue
deriving DecidableEq, Repr

def emptyStack : CoreDataStack := ⟨[], []⟩

-- Every save succeeds.
def saveContext (stack : CoreDataStack) : CoreDataStack := ⟨stack.store ++ stack.inserted, []⟩

section Import

variable (types : AttributeTypes)

-- None is a trap of a cast, or the exception of a key path.
def venueOf (dic : JSONValue) : Option Venue := do
  let jsonDictionary ← dic.asDictionary
  let venueName := (jsonDictionary.lookup "name").bind JSONValue.asString
  let venuePhone := (← dic.valueForKeyPath ["contact", "phone"]).bind JSONValue.asString
  let specialCount := (← dic.valueForKeyPath ["specials", "count"]).bind JSONValue.asNumber
  let locationDict ← (jsonDictionary.lookup "location").bind JSONValue.asDictionary
  let priceDict ← (jsonDictionary.lookup "price").bind JSONValue.asDictionary
  let statsDict ← (jsonDictionary.lookup "stats").bind JSONValue.asDictionary
  some {
    name := venueName
    phone := venuePhone
    specialCount := specialCount.map types.integer32
    location := {
      address := (locationDict.lookup "address").bind JSONValue.asString
      city := (locationDict.lookup "city").bind JSONValue.asString
      state := (locationDict.lookup "state").bind JSONValue.asString
      zipcode := (locationDict.lookup "postalCode").bind JSONValue.asString
      distance := ((locationDict.lookup "distance").bind JSONValue.asNumber).map types.float }
    category := ⟨none, none⟩
    priceInfo := ⟨(priceDict.lookup "currency").bind JSONValue.asString⟩
    stats := {
      checkinsCount := ((statsDict.lookup "checkinsCount").bind JSONValue.asNumber).map types.integer32
      usersCount := ((statsDict.lookup "userCount").bind JSONValue.asNumber).map types.integer32
      tipCount := ((statsDict.lookup "tipCount").bind JSONValue.asNumber).map types.integer32 } }

def importRecords : List JSONValue → CoreDataStack → Option CoreDataStack
  | [], stack => some stack
  | dic :: rest, stack => do
      let venue ← venueOf types dic
      importRecords rest { stack with inserted := stack.inserted ++ [venue] }

-- file is what the parser makes of the seed file.
def importJSONSeedData (file : Except String JSONValue) (stack : CoreDataStack) : Option CoreDataStack :=
  match file with
  | .error _ => some stack
  | .ok json => do
      let _jsonDict ← json.asDictionary
      let jsonArray ← (← json.valueForKeyPath ["response", "venues"]).bind JSONValue.asArray
      (importRecords types jsonArray stack).map saveContext

end Import

def textPaths : List (List String) :=
  [["name"], ["contact", "phone"], ["location", "address"], ["location", "city"], ["location", "state"],
    ["location", "postalCode"], ["price", "currency"]]

def numberPaths : List (List String) :=
  [["specials", "count"], ["location", "distance"], ["stats", "checkinsCount"], ["stats", "usersCount"],
    ["stats", "tipCount"]]

def textAt (record : JSONValue) (path : List String) : Option String := (record.at? path).bind JSONValue.asString

def numberAt (record : JSONValue) (path : List String) : Option Rat := (record.at? path).bind JSONValue.asNumber

-- The keys of the seed file hold what they hold there. As there, a key may be
-- missing, but the location, the price and the stats may not.
structure SeedRecord (record : JSONValue) : Prop where
  dictionary : ∃ members, record = .dictionary members
  linked : ∀ key ∈ ["location", "price", "stats"], ∃ members, record.at? [key] = some (.dictionary members)
  nested : ∀ key ∈ ["contact", "specials"], ∀ value, record.at? [key] = some value →
    ∃ members, value = .dictionary members
  texts : ∀ path ∈ textPaths, ∀ value, record.at? path = some value → ∃ text, value = .string text
  numbers : ∀ path ∈ numberPaths, ∀ value, record.at? path = some value → ∃ number, value = .number number

-- The file has these records as its venues.
structure SeedFile (json : JSONValue) (records : List JSONValue) : Prop where
  dictionary : ∃ members, json = .dictionary members
  venues : json.at? ["response", "venues"] = some (.array records)
  formed : ∀ record ∈ records, SeedRecord record

def TextEquals (field : Option String) (record : JSONValue) (path : List String) : Prop :=
  field.map JSONValue.string = record.at? path

def IntegerEquals (field : Option Int32) (record : JSONValue) (path : List String) : Prop :=
  field.map (fun kept => JSONValue.number kept.toInt) = record.at? path

def FloatEquals (field : Option FloatValue) (record : JSONValue) (path : List String) : Prop :=
  field.map (fun kept => kept.value?.map JSONValue.number) = (record.at? path).map some

structure Imported (record : JSONValue) (venue : Venue) : Prop where
  name : TextEquals venue.name record ["name"]
  phone : TextEquals venue.phone record ["contact", "phone"]
  specialCount : IntegerEquals venue.specialCount record ["specials", "count"]
  address : TextEquals venue.location.address record ["location", "address"]
  city : TextEquals venue.location.city record ["location", "city"]
  state : TextEquals venue.location.state record ["location", "state"]
  zipcode : TextEquals venue.location.zipcode record ["location", "postalCode"]
  distance : FloatEquals venue.location.distance record ["location", "distance"]
  priceCategory : TextEquals venue.priceInfo.priceCategory record ["price", "currency"]
  checkinsCount : IntegerEquals venue.stats.checkinsCount record ["stats", "checkinsCount"]
  usersCount : IntegerEquals venue.stats.usersCount record ["stats", "usersCount"]
  tipCount : IntegerEquals venue.stats.tipCount record ["stats", "tipCount"]

def FitsInteger (number : Rat) : Prop := ∃ kept : Int32, (kept.toInt : Rat) = number

-- The attributes have room for the numbers, and the number of users is also kept
-- under the key that it is read with.
structure Kept (types : AttributeTypes) (record : JSONValue) : Prop where
  counts : ∀ path ∈ [["specials", "count"], ["stats", "checkinsCount"], ["stats", "tipCount"]],
    ∀ number, numberAt record path = some number → FitsInteger number
  distance : ∀ number, numberAt record ["location", "distance"] = some number → Representable single number
  users : (numberAt record ["stats", "userCount"]).map (fun number => ((types.integer32 number).toInt : Rat)) =
    numberAt record ["stats", "usersCount"]

def venueAt (types : AttributeTypes) (record : JSONValue) : Venue where
  name := textAt record ["name"]
  phone := textAt record ["contact", "phone"]
  specialCount := (numberAt record ["specials", "count"]).map types.integer32
  location := {
    address := textAt record ["location", "address"]
    city := textAt record ["location", "city"]
    state := textAt record ["location", "state"]
    zipcode := textAt record ["location", "postalCode"]
    distance := (numberAt record ["location", "distance"]).map types.float }
  category := ⟨none, none⟩
  priceInfo := ⟨textAt record ["price", "currency"]⟩
  stats := {
    checkinsCount := (numberAt record ["stats", "checkinsCount"]).map types.integer32
    usersCount := (numberAt record ["stats", "userCount"]).map types.integer32
    tipCount := (numberAt record ["stats", "tipCount"]).map types.integer32 }

theorem at_one (members : List (String × JSONValue)) (key : String) :
    (JSONValue.dictionary members).at? [key] = members.lookup key := by
  cases found : members.lookup key <;> simp [JSONValue.at?, found]

theorem at_two (members inner : List (String × JSONValue)) (key last : String)
    (has : members.lookup key = some (.dictionary inner)) :
    (JSONValue.dictionary members).at? [key, last] = inner.lookup last := by
  rw [← at_one inner last, JSONValue.at?, has]
  rfl

theorem text_at_path (record : JSONValue) (path : List String) (formed : SeedRecord record) (known : path ∈ textPaths) :
    TextEquals (textAt record path) record path := by
  unfold TextEquals textAt
  cases found : record.at? path with
  | none => rfl
  | some value =>
      obtain ⟨text, rfl⟩ := formed.texts path known value found
      rfl

theorem number_at_path (record : JSONValue) (path : List String) (formed : SeedRecord record)
    (known : path ∈ numberPaths) : (numberAt record path).map JSONValue.number = record.at? path := by
  unfold numberAt
  cases found : record.at? path with
  | none => rfl
  | some value =>
      obtain ⟨number, rfl⟩ := formed.numbers path known value found
      rfl

theorem integer_equals_iff (field : Option Int32) (record : JSONValue) (path : List String)
    (formed : SeedRecord record) (known : path ∈ numberPaths) :
    IntegerEquals field record path ↔ field.map (fun kept => (kept.toInt : Rat)) = numberAt record path := by
  rw [IntegerEquals, ← number_at_path record path formed known]
  have composed : field.map (fun kept => JSONValue.number kept.toInt) =
      (field.map fun kept => (kept.toInt : Rat)).map JSONValue.number := (Option.map_map _ _ field).symm
  rw [composed]
  exact (Option.map_injective fun _ _ equal => JSONValue.number.inj equal).eq_iff

section Attributes

variable (types : AttributeTypes)

theorem integer_kept_iff (record : JSONValue) (path : List String) (formed : SeedRecord record)
    (known : path ∈ numberPaths) :
    IntegerEquals ((numberAt record path).map types.integer32) record path ↔
      ∀ number, numberAt record path = some number → FitsInteger number := by
  rw [integer_equals_iff _ record path formed known, Option.map_map]
  cases numberAt record path with
  | none => exact ⟨fun _ _ absent => (Option.some_ne_none _ absent.symm).elim, fun _ => rfl⟩
  | some number =>
      rw [Option.map_some, Option.some_inj]
      constructor
      · intro same other there
        exact Option.some.inj there ▸ ⟨types.integer32 number, same⟩
      · intro fits
        obtain ⟨kept, rfl⟩ := fits number rfl
        exact congrArg (fun n : Int32 => (n.toInt : Rat)) (types.integer32_whole kept)

theorem float_kept_iff (record : JSONValue) (path : List String) (formed : SeedRecord record)
    (known : path ∈ numberPaths) :
    FloatEquals ((numberAt record path).map types.float) record path ↔
      ∀ number, numberAt record path = some number → Representable single number := by
  rw [FloatEquals, ← number_at_path record path formed known, Option.map_map, Option.map_map]
  cases numberAt record path with
  | none => exact ⟨fun _ _ absent => (Option.some_ne_none _ absent.symm).elim, fun _ => rfl⟩
  | some number =>
      rw [Option.map_some, Option.map_some, Option.some_inj, Function.comp_apply, Function.comp_apply]
      constructor
      · intro same other there
        cases Option.some.inj there
        cases kept : types.float number with
        | infinity negative =>
            rw [kept] at same
            cases same
        | number value fits =>
            rw [kept] at same
            cases same
            exact fits
      · intro fits
        rw [types.float_whole number (fits number rfl)]
        rfl

theorem venue_of_record (record : JSONValue) (formed : SeedRecord record) :
    venueOf types record = some (venueAt types record) := by
  obtain ⟨members, rfl⟩ := formed.dictionary
  obtain ⟨location, hasLocation⟩ := formed.linked "location" (by decide)
  obtain ⟨price, hasPrice⟩ := formed.linked "price" (by decide)
  obtain ⟨stats, hasStats⟩ := formed.linked "stats" (by decide)
  rw [at_one] at hasLocation hasPrice hasStats
  have phone := key_path_at members "contact" "phone" fun value found =>
    formed.nested "contact" (by decide) value (by rw [at_one, found])
  have count := key_path_at members "specials" "count" fun value found =>
    formed.nested "specials" (by decide) value (by rw [at_one, found])
  simp only [venueOf, venueAt, textAt, numberAt, JSONValue.asDictionary, Option.bind_eq_bind, Option.bind_some, phone,
    count, hasLocation, hasPrice, hasStats, at_one, at_two members location "location" _ hasLocation,
    at_two members price "price" _ hasPrice, at_two members stats "stats" _ hasStats]

-- Every other attribute is read with the key that the record has it under.
theorem imported_iff (record : JSONValue) (formed : SeedRecord record) :
    Imported record (venueAt types record) ↔ Kept types record := by
  have text := fun path known => text_at_path record path formed known
  have integer := fun path known => integer_kept_iff types record path formed known
  have users := integer_equals_iff ((numberAt record ["stats", "userCount"]).map types.integer32) record
    ["stats", "usersCount"] formed (by decide)
  rw [Option.map_map] at users
  constructor
  · intro imported
    refine ⟨?_, (float_kept_iff types record _ formed (by decide)).mp imported.distance, users.mp imported.usersCount⟩
    simp only [List.forall_mem_cons, List.not_mem_nil, false_imp_iff, implies_true, and_true]
    exact ⟨(integer _ (by decide)).mp imported.specialCount, (integer _ (by decide)).mp imported.checkinsCount,
      (integer _ (by decide)).mp imported.tipCount⟩
  · intro kept
    exact {
      name := text _ (by decide)
      phone := text _ (by decide)
      specialCount := (integer _ (by decide)).mpr (kept.counts _ (by decide))
      address := text _ (by decide)
      city := text _ (by decide)
      state := text _ (by decide)
      zipcode := text _ (by decide)
      distance := (float_kept_iff types record _ formed (by decide)).mpr kept.distance
      priceCategory := text _ (by decide)
      checkinsCount := (integer _ (by decide)).mpr (kept.counts _ (by decide))
      usersCount := users.mpr kept.users
      tipCount := (integer _ (by decide)).mpr (kept.counts _ (by decide)) }

theorem import_records (records : List JSONValue) (stack : CoreDataStack)
    (formed : ∀ record ∈ records, SeedRecord record) :
    importRecords types records stack =
      some { stack with inserted := stack.inserted ++ records.map (venueAt types) } := by
  induction records generalizing stack with
  | nil => simp [importRecords]
  | cons record rest ih =>
      have first := venue_of_record types record (formed record List.mem_cons_self)
      have later := fun other listed => formed other (List.mem_cons_of_mem record listed)
      simp only [importRecords, first, Option.bind_eq_bind, Option.bind_some, ih _ later, List.map_cons,
        List.append_assoc, List.singleton_append]

theorem import_seed (json : JSONValue) (records : List JSONValue) (seed : SeedFile json records) :
    importJSONSeedData types (.ok json) emptyStack = some ⟨records.map (venueAt types), []⟩ := by
  obtain ⟨members, rfl⟩ := seed.dictionary
  have nested : ∀ value, members.lookup "response" = some value → ∃ inner, value = .dictionary inner := by
    intro value found
    have venues := seed.venues
    rw [JSONValue.at?, found] at venues
    cases value with
    | dictionary inner => exact ⟨inner, rfl⟩
    | _ => cases venues
  have path := key_path_at members "response" "venues" nested
  rw [seed.venues] at path
  simp only [importJSONSeedData, JSONValue.asDictionary, path, Option.bind_eq_bind, Option.bind_some,
    JSONValue.asArray, import_records types records emptyStack seed.formed]
  rfl

theorem seed_import_iff (json : JSONValue) (records : List JSONValue) (seed : SeedFile json records) :
    ∃ stack, importJSONSeedData types (.ok json) emptyStack = some stack ∧
      (List.Forall₂ Imported records stack.store ↔ ∀ record ∈ records, Kept types record) := by
  refine ⟨_, import_seed types json records seed, ?_⟩
  rw [List.forall₂_map_right_iff, List.forall₂_same]
  exact forall₂_congr fun record listed => imported_iff types record (seed.formed record listed)

end Attributes

-- A number is cut to an integer and taken modulo 2^32, or rounded to a Float.
def conversions : AttributeTypes where
  integer32 := fun x => Int32.ofInt (x.num.tdiv x.den)
  float := convert single
  integer32_whole := fun n => by
    rw [Rat.num_intCast, Rat.den_intCast, Int.natCast_one, Int.tdiv_one, Int32.ofInt_toInt]
  float_whole := convert_representable single

-- The first record of the seed file, with more in its stats.
def kungFuTea (more : List (String × JSONValue)) : JSONValue :=
  .dictionary [("name", .string "Kung Fu Tea"), ("contact", .dictionary [("phone", .string "2123343536")]),
    ("location", .dictionary [("address", .string "234 Canal St"), ("distance", .number 4787),
      ("postalCode", .string "10013"), ("city", .string "New York"), ("state", .string "NY")]),
    ("stats", .dictionary (("checkinsCount", .number 6820) :: ("usersCount", .number 3530) ::
      ("tipCount", .number 60) :: more)),
    ("price", .dictionary [("currency", .string "$")]), ("specials", .dictionary [("count", .number 0)])]

def seedOf (record : JSONValue) : JSONValue :=
  .dictionary [("response", .dictionary [("venues", .array [record])])]

theorem kung_fu_tea_record (more : List (String × JSONValue)) : SeedRecord (kungFuTea more) where
  dictionary := ⟨_, rfl⟩
  linked := by simp [kungFuTea, at_one, List.lookup_cons]
  nested := by simp [kungFuTea, at_one, List.lookup_cons]
  texts := by simp [textPaths, kungFuTea, JSONValue.at?, List.lookup_cons]
  numbers := by simp [numberPaths, kungFuTea, JSONValue.at?, List.lookup_cons]

theorem seed_of_file (record : JSONValue) (formed : SeedRecord record) : SeedFile (seedOf record) [record] where
  dictionary := ⟨_, rfl⟩
  venues := rfl
  formed _ listed := List.mem_singleton.mp listed ▸ formed

theorem seed_import_both_keys :
    ∃ stack, importJSONSeedData conversions (.ok (seedOf (kungFuTea [("userCount", .number 3530)]))) emptyStack =
        some stack ∧
      List.Forall₂ Imported [kungFuTea [("userCount", .number 3530)]] stack.store := by
  have formed := kung_fu_tea_record [("userCount", .number 3530)]
  obtain ⟨stack, ran, all_iff⟩ := seed_import_iff conversions _ _ (seed_of_file _ formed)
  refine ⟨stack, ran, all_iff.mpr fun record listed => ?_⟩
  rw [List.mem_singleton.mp listed]
  refine ⟨?_, fun number found => ?_, congrArg (fun n : Int32 => some (n.toInt : Rat))
    (conversions.integer32_whole 3530)⟩
  · simp only [List.forall_mem_cons, List.not_mem_nil, false_imp_iff, implies_true, and_true]
    exact ⟨fun number found => ⟨0, Option.some.inj found⟩, fun number found => ⟨6820, Option.some.inj found⟩,
      fun number found => ⟨60, Option.some.inj found⟩⟩
  · obtain rfl : 4787 = number := Option.some.inj found
    exact ⟨by decide +kernel, by decide +kernel, by decide +kernel⟩

theorem seed_import_loses_users :
    SeedFile (seedOf (kungFuTea [])) [kungFuTea []] ∧
      ∃ stack, importJSONSeedData conversions (.ok (seedOf (kungFuTea []))) emptyStack = some stack ∧
        ¬ List.Forall₂ Imported [kungFuTea []] stack.store := by
  have file := seed_of_file _ (kung_fu_tea_record [])
  refine ⟨file, _, import_seed conversions _ _ file, fun all => ?_⟩
  have imported := (List.forall₂_cons.mp all).1
  have kept := (imported_iff conversions _ (kung_fu_tea_record [])).mp imported
  exact Option.some_ne_none _ kept.users.symm

end CultivationMotain.BubbleTeaFinder.Seed
