import CultivationMotain.Foundation.Geometry
import CultivationMotain.Foundation.UTF16
import Mathlib.Logic.Function.Basic

set_option autoImplicit false

namespace CultivationMotain.UnCloudNotes

open Foundation

abbrev NSString := List CodeUnit

structure UIImage (Pixels : Type) where
  size : CGSize
  pixels : Pixels
deriving DecidableEq

-- null is what nil becomes in an Any.
inductive Value (Date Pixels Other : Type) where
  | date (date : Date)
  | image (image : UIImage Pixels)
  | text (text : NSString)
  | number (number : CGFloat)
  | null
  | other (object : Other)
deriving DecidableEq

-- An Attachment of version 3. noteBody is its value for the path note.body.
structure Attachment (Date Pixels : Type) where
  dateCreated : Option Date
  image : Option (UIImage Pixels)
  noteBody : Option NSString

-- The attributes of version 4's entity ImageAttachment.
inductive Attribute where
  | dateCreated
  | image
  | caption
  | width
  | height
deriving DecidableEq, Repr

def Attribute.named : String → Option Attribute
  | "dateCreated" => some .dateCreated
  | "image" => some .image
  | "caption" => some .caption
  | "width" => some .width
  | "height" => some .height
  | _ => none

variable {Date Pixels Other : Type}

abbrev ImageAttachment (Date Pixels Other : Type) := Attribute → Option (Value Date Pixels Other)

structure NSPropertyMapping (Date Pixels Other : Type) where
  name : Option String
  valueExpression : Option (Attachment Date Pixels → Option (Value Date Pixels Other))

structure NSEntityMapping (Date Pixels Other : Type) where
  attributeMappings : Option (List (NSPropertyMapping Date Pixels Other))

structure Association (Date Pixels Other : Type) where
  source : Attachment Date Pixels
  destination : ImageAttachment Date Pixels Other
  mapping : NSEntityMapping Date Pixels Other

-- The class that the destination model names for the entity ImageAttachment.
structure NSMigrationManager (Date Pixels Other : Type) where
  representedClassName : String
  associations : List (Association Date Pixels Other)

-- Errors that are thrown, and exceptions and traps.
inductive Failure where
  | thrown (domain : String) (code : Int) (failureReason : String)
  | undefinedKey (key : String)
  | unacceptableValue (key : String)
  | castFailed
  | rangeException
  | unwrappedNil
deriving DecidableEq, Repr

section Objects

-- The entity's default values.
def inserted : ImageAttachment Date Pixels Other
  | .width | .height => some (.number 0)
  | _ => none

-- A class that is not there leaves a managed object that is no ImageAttachment.
def insertNewObject (manager : NSMigrationManager Date Pixels Other) : Option (ImageAttachment Date Pixels Other) :=
  if manager.representedClassName = "UnCloudNotes.ImageAttachment" then some inserted else none

-- What Core Data takes for an attribute of its type; image is transformable.
def Attribute.accepts : Attribute → Value Date Pixels Other → Bool
  | .dateCreated, .date _ => true
  | .image, _ => true
  | .caption, .text _ => true
  | .width, .number _ => true
  | .height, .number _ => true
  | _, _ => false

def setValue (attachment : ImageAttachment Date Pixels Other) (value : Value Date Pixels Other) (key : String) :
    Except Failure (ImageAttachment Date Pixels Other) :=
  match Attribute.named key with
  | none => .error (.undefinedKey key)
  | some field =>
      if field.accepts value then .ok (Function.update attachment field (some value))
      else .error (.unacceptableValue key)

-- newAttachment?.setValue: without an object the value is not even computed.
def setOptional (newAttachment : Option (ImageAttachment Date Pixels Other))
    (value : Except Failure (Value Date Pixels Other)) (key : String) :
    Except Failure (Option (ImageAttachment Date Pixels Other)) :=
  match newAttachment with
  | none => .ok none
  | some attachment => do
      let value ← value
      let next ← setValue attachment value key
      return some next

def substringTo (text : NSString) (index : Nat) : Except Failure NSString :=
  if index ≤ text.length then .ok (text.take index) else .error .rangeException

end Objects

section Policy

variable {State : Type}

def traversePropertyMappings (mapping : NSEntityMapping Date Pixels Other)
    (block : State → NSPropertyMapping Date Pixels Other → String → Except Failure State) (start : State) :
    Except Failure State :=
  match mapping.attributeMappings with
  | none => .error (.thrown "Domain" 0 "No Attribute Mappings found!")
  | some attributeMappings =>
      attributeMappings.foldlM (fun state property =>
        match property.name with
        | some name => block state property name
        | none => .error (.thrown "Domain" 0 "Attribute destination not configured properly")) start

-- as! for the two names, with an absent value carried on as null for the others.
def destinationValue (name : String) (value : Option (Value Date Pixels Other)) :
    Except Failure (Value Date Pixels Other) :=
  if name = "dateCreated" then
    match value with
    | some (.date date) => .ok (.date date)
    | _ => .error .castFailed
  else if name = "image" then
    match value with
    | some (.image image) => .ok (.image image)
    | _ => .error .castFailed
  else .ok (value.getD .null)

def setMapped (sInstance : Attachment Date Pixels) (newAttachment : Option (ImageAttachment Date Pixels Other))
    (property : NSPropertyMapping Date Pixels Other) (name : String) :
    Except Failure (Option (ImageAttachment Date Pixels Other)) :=
  match property.valueExpression with
  | none => .ok newAttachment
  | some valueEx => do
      let value ← destinationValue name (valueEx sInstance)
      setOptional newAttachment (.ok value) name

def setImageSize (sInstance : Attachment Date Pixels) (newAttachment : Option (ImageAttachment Date Pixels Other)) :
    Except Failure (Option (ImageAttachment Date Pixels Other)) :=
  match sInstance.image with
  | none => .ok newAttachment
  | some image => do
      let sized ← setOptional newAttachment (.ok (.number image.size.width)) "width"
      setOptional sized (.ok (.number image.size.height)) "height"

def setCaption (sInstance : Attachment Date Pixels) (newAttachment : Option (ImageAttachment Date Pixels Other)) :
    Except Failure (Option (ImageAttachment Date Pixels Other)) :=
  match sInstance.noteBody with
  | none => .error .castFailed
  | some body => setOptional newAttachment ((substringTo body 80).map .text) "caption"

def createDestinationInstances (manager : NSMigrationManager Date Pixels Other) (sInstance : Attachment Date Pixels)
    (mapping : NSEntityMapping Date Pixels Other) : Except Failure (NSMigrationManager Date Pixels Other) := do
  let mapped ← traversePropertyMappings mapping (setMapped sInstance) (insertNewObject manager)
  let sized ← setImageSize sInstance mapped
  let captioned ← setCaption sInstance sized
  match captioned with
  | none => .error .unwrappedNil
  | some newAttachment =>
      .ok { manager with associations := manager.associations ++ [⟨sInstance, newAttachment, mapping⟩] }

end Policy

section Claims

-- An attribute mapping of that name with an expression of that value.
def Mapped (mapping : NSEntityMapping Date Pixels Other) (source : Attachment Date Pixels) (name : String)
    (value : Option (Value Date Pixels Other)) : Prop :=
  ∃ properties property valueEx, mapping.attributeMappings = some properties ∧ property ∈ properties ∧
    property.name = some name ∧ property.valueExpression = some valueEx ∧ valueEx source = value

def AllNamed (mapping : NSEntityMapping Date Pixels Other) : Prop :=
  ∀ properties, mapping.attributeMappings = some properties → ∀ property ∈ properties, property.name.isSome

structure Migrated (mapping : NSEntityMapping Date Pixels Other) (source : Attachment Date Pixels)
    (image : UIImage Pixels) (body : NSString) (created : ImageAttachment Date Pixels Other) : Prop where
  caption : created .caption = some (.text (body.take (min 80 body.length)))
  width : created .width = some (.number image.size.width)
  height : created .height = some (.number image.size.height)
  mapped : ∀ name value, Mapped mapping source name value →
    ∃ field, Attribute.named name = some field ∧ created field = value

def Migrates (manager : NSMigrationManager Date Pixels Other) (source : Attachment Date Pixels)
    (mapping : NSEntityMapping Date Pixels Other) (image : UIImage Pixels) (body : NSString) : Prop :=
  ∃ created, createDestinationInstances manager source mapping =
      .ok { manager with associations := manager.associations ++ [⟨source, created, mapping⟩] } ∧
    Migrated mapping source image body created

-- The values an expression may have that the policy keeps.
inductive Kept (image : UIImage Pixels) (body : NSString) : Attribute → Value Date Pixels Other → Prop where
  | dateCreated (date : Date) : Kept image body .dateCreated (.date date)
  | image (mapped : UIImage Pixels) : Kept image body .image (.image mapped)
  | caption : Kept image body .caption (.text (body.take 80))
  | width : Kept image body .width (.number image.size.width)
  | height : Kept image body .height (.number image.size.height)

structure Migratable (manager : NSMigrationManager Date Pixels Other) (source : Attachment Date Pixels)
    (mapping : NSEntityMapping Date Pixels Other) (image : UIImage Pixels) (body : NSString) : Prop where
  loaded : manager.representedClassName = "UnCloudNotes.ImageAttachment"
  listed : mapping.attributeMappings.isSome
  long : 80 ≤ body.length
  kept : ∀ name value, Mapped mapping source name value →
    ∃ field kept, Attribute.named name = some field ∧ value = some kept ∧ Kept image body field kept
  agree : ∀ name first second, Mapped mapping source name first → Mapped mapping source name second → first = second

end Claims

section Setting

theorem except_bind_ok {α β : Type} (first : Except Failure α) (next : α → Except Failure β) (result : β) :
    (first >>= next) = .ok result ↔ ∃ value, first = .ok value ∧ next value = .ok result := by
  cases first with
  | error failure => exact ⟨fun failed => (nomatch failed), fun ⟨_, absent, _⟩ => nomatch absent⟩
  | ok value => exact ⟨fun ended => ⟨value, rfl, ended⟩, fun ⟨_, same, ended⟩ => Except.ok.inj same ▸ ended⟩

def Attribute.key : Attribute → String
  | .dateCreated => "dateCreated"
  | .image => "image"
  | .caption => "caption"
  | .width => "width"
  | .height => "height"

theorem named_iff (name : String) (field : Attribute) : Attribute.named name = some field ↔ name = field.key := by
  constructor
  · intro found
    unfold Attribute.named at found
    split at found
    all_goals cases found
    all_goals rfl
  · rintro rfl
    cases field <;> rfl

-- What the policy lets through: an image is one before it is set.
def Attribute.takes : Attribute → Value Date Pixels Other → Bool
  | .image, .image _ => true
  | .image, _ => false
  | field, value => field.accepts value

theorem set_value_ok_iff (attachment next : ImageAttachment Date Pixels Other) (value : Value Date Pixels Other)
    (key : String) :
    setValue attachment value key = .ok next ↔
      ∃ field, Attribute.named key = some field ∧ field.accepts value = true ∧
        next = Function.update attachment field (some value) := by
  unfold setValue
  cases found : Attribute.named key with
  | none => exact ⟨fun failed => (nomatch failed), fun ⟨_, absent, _⟩ => nomatch absent⟩
  | some field =>
      simp only
      by_cases accepted : field.accepts value = true
      · rw [if_pos accepted]
        constructor
        · exact fun set => ⟨field, rfl, accepted, (Except.ok.inj set).symm⟩
        · rintro ⟨_, same, _, rfl⟩
          rw [Option.some.inj same]
      · rw [if_neg accepted]
        refine ⟨fun failed => (nomatch failed), ?_⟩
        rintro ⟨_, same, there, _⟩
        rw [← Option.some.inj same] at there
        exact absurd there accepted

theorem set_optional_ok_iff (attachment : ImageAttachment Date Pixels Other)
    (next : Option (ImageAttachment Date Pixels Other)) (value : Value Date Pixels Other) (key : String) :
    setOptional (some attachment) (.ok value) key = .ok next ↔
      ∃ field, Attribute.named key = some field ∧ field.accepts value = true ∧
        next = some (Function.update attachment field (some value)) := by
  simp only [setOptional, except_bind_ok, set_value_ok_iff]
  constructor
  · rintro ⟨_, same, _, ⟨field, found, accepted, rfl⟩, ended⟩
    obtain rfl := Except.ok.inj same
    exact ⟨field, found, accepted, (Except.ok.inj ended).symm⟩
  · rintro ⟨field, found, accepted, rfl⟩
    exact ⟨value, rfl, _, ⟨field, found, accepted, rfl⟩, rfl⟩

theorem cast_value_ok_iff (field : Attribute) (cast : field = .dateCreated ∨ field = .image)
    (value : Option (Value Date Pixels Other)) (result : Value Date Pixels Other) :
    destinationValue field.key value = .ok result ↔ value = some result ∧ field.takes result = true := by
  rcases cast with rfl | rfl
  · cases value with
    | none => exact ⟨fun failed => (nomatch failed), fun both => nomatch both.1⟩
    | some value =>
        cases value with
        | date date =>
            refine ⟨fun same => ?_, fun both => congrArg Except.ok (Option.some.inj both.1)⟩
            obtain rfl := Except.ok.inj same
            exact ⟨rfl, rfl⟩
        | _ =>
            refine ⟨fun failed => (nomatch failed), fun both => ?_⟩
            obtain rfl := Option.some.inj both.1
            cases both.2
  · cases value with
    | none => exact ⟨fun failed => (nomatch failed), fun both => nomatch both.1⟩
    | some value =>
        cases value with
        | image image =>
            refine ⟨fun same => ?_, fun both => congrArg Except.ok (Option.some.inj both.1)⟩
            obtain rfl := Except.ok.inj same
            exact ⟨rfl, rfl⟩
        | _ =>
            refine ⟨fun failed => (nomatch failed), fun both => ?_⟩
            obtain rfl := Option.some.inj both.1
            cases both.2

theorem plain_field (field : Attribute) (plain : ¬ (field = .dateCreated ∨ field = .image)) :
    (∀ value : Option (Value Date Pixels Other), destinationValue field.key value = .ok (value.getD .null)) ∧
      (∀ value : Value Date Pixels Other, field.takes value = field.accepts value) ∧
      field.accepts (.null : Value Date Pixels Other) = false := by
  cases field with
  | dateCreated => exact absurd (.inl rfl) plain
  | image => exact absurd (.inr rfl) plain
  | caption => exact ⟨fun _ => rfl, fun _ => rfl, rfl⟩
  | width => exact ⟨fun _ => rfl, fun _ => rfl, rfl⟩
  | height => exact ⟨fun _ => rfl, fun _ => rfl, rfl⟩

theorem takes_accepted (field : Attribute) (value : Value Date Pixels Other) (taken : field.takes value = true) :
    field.accepts value = true := by
  cases field with
  | image => rfl
  | dateCreated => exact taken
  | caption => exact taken
  | width => exact taken
  | height => exact taken

theorem destination_value_ok_iff (field : Attribute) (value : Option (Value Date Pixels Other))
    (result : Value Date Pixels Other) :
    (destinationValue field.key value = .ok result ∧ field.accepts result = true) ↔
      value = some result ∧ field.takes result = true := by
  by_cases cast : field = .dateCreated ∨ field = .image
  · rw [cast_value_ok_iff field cast]
    exact ⟨And.left, fun both => ⟨both, takes_accepted field result both.2⟩⟩
  · obtain ⟨passed, same, refused⟩ := @plain_field Date Pixels Other field cast
    rw [passed, same]
    cases value with
    | none =>
        refine ⟨fun both => ?_, fun both => nomatch both.1⟩
        obtain rfl := Except.ok.inj both.1
        rw [Option.getD_none, refused] at both
        cases both.2
    | some value =>
        exact and_congr_left fun _ => ⟨fun ended => congrArg some (Except.ok.inj ended),
          fun ended => congrArg Except.ok (Option.some.inj ended)⟩

end Setting

section Traversing

variable (source : Attachment Date Pixels)

-- The attribute that a mapping sets, and its value.
def assigned (property : NSPropertyMapping Date Pixels Other) : Option (Attribute × Value Date Pixels Other) := do
  let field ← property.name.bind Attribute.named
  let value ← property.valueExpression.bind fun valueEx => valueEx source
  some (field, value)

def assign (attachment : ImageAttachment Date Pixels Other) (property : NSPropertyMapping Date Pixels Other) :
    ImageAttachment Date Pixels Other :=
  match assigned source property with
  | none => attachment
  | some (field, value) => Function.update attachment field (some value)

def Fits (property : NSPropertyMapping Date Pixels Other) : Prop :=
  ∀ name valueEx, property.name = some name → property.valueExpression = some valueEx →
    ∃ field value, Attribute.named name = some field ∧ valueEx source = some value ∧ field.takes value = true

theorem assign_value (attachment : ImageAttachment Date Pixels Other) (property : NSPropertyMapping Date Pixels Other)
    (name : String) (valueEx : Attachment Date Pixels → Option (Value Date Pixels Other)) (field : Attribute)
    (value : Value Date Pixels Other) (named : property.name = some name)
    (expression : property.valueExpression = some valueEx) (found : Attribute.named name = some field)
    (given : valueEx source = some value) :
    assigned source property = some (field, value) ∧
      assign source attachment property = Function.update attachment field (some value) := by
  have pair : assigned source property = some (field, value) := by
    simp only [assigned, named, expression, Option.bind_some, found, given, Option.bind_eq_bind]
  exact ⟨pair, by rw [assign, pair]⟩

theorem assigned_parts (property : NSPropertyMapping Date Pixels Other) (field : Attribute)
    (value : Value Date Pixels Other) (pair : assigned source property = some (field, value)) :
    ∃ valueEx, property.name = some field.key ∧ property.valueExpression = some valueEx ∧
      valueEx source = some value := by
  obtain ⟨other, named, rest⟩ := Option.bind_eq_some_iff.mp pair
  obtain ⟨given, expressed, last⟩ := Option.bind_eq_some_iff.mp rest
  cases last
  obtain ⟨name, present, found⟩ := Option.bind_eq_some_iff.mp named
  obtain ⟨valueEx, expression, value_⟩ := Option.bind_eq_some_iff.mp expressed
  rw [(named_iff name field).mp found] at present
  exact ⟨valueEx, present, expression, value_⟩

theorem set_mapped_ok_iff (attachment : ImageAttachment Date Pixels Other)
    (property : NSPropertyMapping Date Pixels Other) (name : String) (named : property.name = some name)
    (next : Option (ImageAttachment Date Pixels Other)) :
    setMapped source (some attachment) property name = .ok next ↔
      Fits source property ∧ next = some (assign source attachment property) := by
  cases expression : property.valueExpression with
  | none =>
      have nothing : assign source attachment property = attachment := by
        simp only [assign, assigned, expression, Option.bind_none, Option.bind_eq_bind, Option.bind_fun_none]
      have fits : Fits source property := fun _ _ _ there => by
        rw [expression] at there
        cases there
      rw [nothing]
      simp only [setMapped, expression]
      exact ⟨fun ended => ⟨fits, (Except.ok.inj ended).symm⟩, fun both => congrArg Except.ok both.2.symm⟩
  | some valueEx =>
      simp only [setMapped, expression, except_bind_ok, set_optional_ok_iff]
      constructor
      · rintro ⟨value, converted, field, found, accepted, rfl⟩
        obtain rfl := (named_iff name field).mp found
        obtain ⟨given, taken⟩ := (destination_value_ok_iff field (valueEx source) value).mp ⟨converted, accepted⟩
        refine ⟨fun other otherEx there same => ?_, ?_⟩
        · obtain rfl := Option.some.inj (named.symm.trans there)
          obtain rfl := Option.some.inj (expression.symm.trans same)
          exact ⟨field, value, found, given, taken⟩
        · rw [(assign_value source attachment property _ valueEx field value named expression found given).2]
      · rintro ⟨fits, rfl⟩
        obtain ⟨field, value, found, given, taken⟩ := fits name valueEx named expression
        rw [(assign_value source attachment property name valueEx field value named expression found given).2]
        obtain rfl := (named_iff name field).mp found
        obtain ⟨converted, accepted⟩ := (destination_value_ok_iff field (valueEx source) value).mpr ⟨given, taken⟩
        exact ⟨value, converted, field, found, accepted, rfl⟩

theorem traverse_ok_iff (mapping : NSEntityMapping Date Pixels Other) (allNamed : AllNamed mapping)
    (attachment : ImageAttachment Date Pixels Other) (next : Option (ImageAttachment Date Pixels Other)) :
    traversePropertyMappings mapping (setMapped source) (some attachment) = .ok next ↔
      ∃ properties, mapping.attributeMappings = some properties ∧ (∀ property ∈ properties, Fits source property) ∧
        next = some (properties.foldl (assign source) attachment) := by
  unfold traversePropertyMappings
  cases listed : mapping.attributeMappings with
  | none => exact ⟨fun failed => (nomatch failed), fun ⟨_, absent, _⟩ => nomatch absent⟩
  | some properties =>
      have named := allNamed properties listed
      simp only [Option.some.injEq, exists_eq_left']
      clear listed
      induction properties generalizing attachment with
      | nil => 
          simp only [List.foldlM_nil, List.foldl_nil]
          exact ⟨fun ended => ⟨fun _ absent => (nomatch absent), (Except.ok.inj ended).symm⟩,
            fun both => congrArg Except.ok both.2.symm⟩
      | cons property properties ih =>
          obtain ⟨here, later⟩ := List.forall_mem_cons.mp named
          obtain ⟨name, given⟩ := Option.isSome_iff_exists.mp here
          simp only [List.foldlM_cons, List.foldl_cons, given, except_bind_ok, List.forall_mem_cons,
            set_mapped_ok_iff source attachment property name given]
          constructor
          · rintro ⟨_, ⟨fits, rfl⟩, ended⟩
            obtain ⟨rest, last⟩ := (ih _ later).mp ended
            exact ⟨⟨fits, rest⟩, last⟩
          · rintro ⟨⟨fits, rest⟩, last⟩
            exact ⟨_, ⟨fits, rfl⟩, (ih _ later).mpr ⟨rest, last⟩⟩

theorem fold_keeps (properties : List (NSPropertyMapping Date Pixels Other))
    (attachment : ImageAttachment Date Pixels Other) (field : Attribute) (value : Value Date Pixels Other)
    (set : attachment field = some value)
    (agree : ∀ property ∈ properties, ∀ other, assigned source property = some (field, other) → other = value) :
    properties.foldl (assign source) attachment field = some value := by
  induction properties generalizing attachment with
  | nil => exact set
  | cons property properties ih =>
      obtain ⟨here, later⟩ := List.forall_mem_cons.mp agree
      refine ih _ ?_ later
      unfold assign
      cases pair : assigned source property with
      | none => exact set
      | some both =>
          obtain ⟨other, given⟩ := both
          by_cases same : field = other
          · subst same
            simp only [Function.update_self, here given pair]
          · simp only [Function.update_of_ne same, set]

theorem fold_assigned (properties : List (NSPropertyMapping Date Pixels Other))
    (attachment : ImageAttachment Date Pixels Other) (field : Attribute) (value : Value Date Pixels Other)
    (property : NSPropertyMapping Date Pixels Other) (member : property ∈ properties)
    (pair : assigned source property = some (field, value))
    (agree : ∀ property ∈ properties, ∀ other, assigned source property = some (field, other) → other = value) :
    properties.foldl (assign source) attachment field = some value := by
  induction properties generalizing attachment with
  | nil => cases member
  | cons first properties ih =>
      obtain ⟨_, later⟩ := List.forall_mem_cons.mp agree
      rcases List.mem_cons.mp member with rfl | behind
      · refine fold_keeps source properties _ field value ?_ later
        simp only [assign, pair, Function.update_self]
      · exact ih _ behind later

end Traversing

section Creating

variable (manager : NSMigrationManager Date Pixels Other) (source : Attachment Date Pixels)
  (mapping : NSEntityMapping Date Pixels Other)

-- Steps 5 and 6 on what the mappings have set.
def finished (image : UIImage Pixels) (body : NSString) (mapped : ImageAttachment Date Pixels Other) :
    ImageAttachment Date Pixels Other :=
  Function.update (Function.update (Function.update mapped .width (some (.number image.size.width))) .height
    (some (.number image.size.height))) .caption (some (.text (body.take 80)))

theorem set_mapped_none (property : NSPropertyMapping Date Pixels Other) (name : String)
    (next : Option (ImageAttachment Date Pixels Other)) (ended : setMapped source none property name = .ok next) :
    next = none := by
  cases expression : property.valueExpression with
  | none =>
      simp only [setMapped, expression] at ended
      exact (Except.ok.inj ended).symm
  | some valueEx =>
      simp only [setMapped, expression, except_bind_ok] at ended
      obtain ⟨_, _, skipped⟩ := ended
      exact (Except.ok.inj skipped).symm

theorem traverse_none (next : Option (ImageAttachment Date Pixels Other))
    (ended : traversePropertyMappings mapping (setMapped source) none = .ok next) : next = none := by
  unfold traversePropertyMappings at ended
  cases listed : mapping.attributeMappings with
  | none =>
      rw [listed] at ended
      cases ended
  | some properties =>
      rw [listed] at ended
      simp only at ended
      clear listed
      induction properties with
      | nil => exact (Except.ok.inj ended).symm
      | cons property properties ih =>
          rw [List.foldlM_cons] at ended
          obtain ⟨state, first, rest⟩ := (except_bind_ok _ _ _).mp ended
          cases given : property.name with
          | none =>
              rw [given] at first
              cases first
          | some name =>
              rw [given] at first
              obtain rfl := set_mapped_none source property name state first
              exact ih rest

theorem class_missing_fails (missing : manager.representedClassName ≠ "UnCloudNotes.ImageAttachment")
    (result : NSMigrationManager Date Pixels Other) :
    createDestinationInstances manager source mapping ≠ .ok result := by
  have object : insertNewObject manager = none := if_neg missing
  intro ended
  simp only [createDestinationInstances, object, except_bind_ok] at ended
  obtain ⟨mapped, traversed, sized, sizes, captioned, captions, last⟩ := ended
  obtain rfl := traverse_none source mapping mapped traversed
  have skipped_sizes : setImageSize source (none : Option (ImageAttachment Date Pixels Other)) = .ok none := by
    unfold setImageSize
    cases source.image with
    | none => rfl
    | some image => rfl
  obtain rfl := Except.ok.inj (skipped_sizes.symm.trans sizes)
  unfold setCaption at captions
  cases noted : source.noteBody with
  | none =>
      rw [noted] at captions
      cases captions
  | some body =>
      rw [noted] at captions
      obtain rfl := Except.ok.inj captions
      cases last

theorem set_caption_ok_iff (body : NSString) (noted : source.noteBody = some body)
    (mapped : ImageAttachment Date Pixels Other) (next : Option (ImageAttachment Date Pixels Other)) :
    setCaption source (some mapped) = .ok next ↔
      80 ≤ body.length ∧ next = some (Function.update mapped .caption (some (.text (body.take 80)))) := by
  simp only [setCaption, noted, substringTo]
  by_cases long : 80 ≤ body.length
  · rw [if_pos long]
    exact (set_optional_ok_iff mapped next (.text (body.take 80)) "caption").trans
      ⟨fun ⟨_, found, _, last⟩ => ⟨long, Option.some.inj found ▸ last⟩, fun both => ⟨.caption, rfl, rfl, both.2⟩⟩
  · rw [if_neg long]
    exact ⟨fun failed => (nomatch failed), fun both => absurd both.1 long⟩

theorem create_ok_iff (loaded : manager.representedClassName = "UnCloudNotes.ImageAttachment")
    (allNamed : AllNamed mapping) (image : UIImage Pixels) (body : NSString) (imaged : source.image = some image)
    (noted : source.noteBody = some body) (result : NSMigrationManager Date Pixels Other) :
    createDestinationInstances manager source mapping = .ok result ↔
      ∃ properties, mapping.attributeMappings = some properties ∧ (∀ property ∈ properties, Fits source property) ∧
        80 ≤ body.length ∧
        result = { manager with associations := manager.associations ++
          [⟨source, finished image body (properties.foldl (assign source) inserted), mapping⟩] } := by
  have object : insertNewObject manager = some inserted := if_pos loaded
  have sized : ∀ mapped : ImageAttachment Date Pixels Other, setImageSize source (some mapped) =
      .ok (some (Function.update (Function.update mapped .width (some (.number image.size.width))) .height
        (some (.number image.size.height)))) := by
    intro mapped
    simp only [setImageSize, imaged]
    rfl
  simp only [createDestinationInstances, object, except_bind_ok, traverse_ok_iff source mapping allNamed]
  constructor
  · rintro ⟨_, ⟨properties, listed, fits, rfl⟩, _, sizes, _, captioned, ended⟩
    obtain rfl := Except.ok.inj ((sized _).symm.trans sizes)
    obtain ⟨long, rfl⟩ := (set_caption_ok_iff source body noted _ _).mp captioned
    exact ⟨properties, listed, fits, long, (Except.ok.inj ended).symm⟩
  · rintro ⟨properties, listed, fits, long, rfl⟩
    exact ⟨_, ⟨properties, listed, fits, rfl⟩, _, sized _, _,
      (set_caption_ok_iff source body noted _ _).mpr ⟨long, rfl⟩, rfl⟩

theorem kept_taken (image : UIImage Pixels) (body : NSString) (field : Attribute) (value : Value Date Pixels Other)
    (kept : Kept image body field value) : field.takes value = true := by
  cases kept with
  | dateCreated date => rfl
  | image mapped => rfl
  | caption => rfl
  | width => rfl
  | height => rfl

theorem kept_fits (image : UIImage Pixels) (body : NSString) (properties : List (NSPropertyMapping Date Pixels Other))
    (listed : mapping.attributeMappings = some properties)
    (kept : ∀ name value, Mapped mapping source name value →
      ∃ field kept, Attribute.named name = some field ∧ value = some kept ∧ Kept image body field kept) :
    ∀ property ∈ properties, Fits source property := by
  intro property member name valueEx named expression
  obtain ⟨field, value, found, given, keeps⟩ :=
    kept name _ ⟨properties, property, valueEx, listed, member, named, expression, rfl⟩
  exact ⟨field, value, found, given, kept_taken image body field value keeps⟩

theorem migrated_kept (image : UIImage Pixels) (body : NSString) (long : 80 ≤ body.length)
    (created : ImageAttachment Date Pixels Other) (migrated : Migrated mapping source image body created)
    (field : Attribute) (value : Value Date Pixels Other) (taken : field.takes value = true)
    (set : created field = some value) : Kept image body field value := by
  cases field with
  | dateCreated =>
      cases value with
      | date date => exact .dateCreated date
      | _ => cases taken
  | image =>
      cases value with
      | image mapped => exact .image mapped
      | _ => cases taken
  | caption =>
      have caption := migrated.caption
      rw [Nat.min_eq_left long, set] at caption
      obtain rfl := Option.some.inj caption
      exact .caption
  | width =>
      obtain rfl := Option.some.inj (set.symm.trans migrated.width)
      exact .width
  | height =>
      obtain rfl := Option.some.inj (set.symm.trans migrated.height)
      exact .height

theorem finished_kept (image : UIImage Pixels) (body : NSString)
    (properties : List (NSPropertyMapping Date Pixels Other)) (listed : mapping.attributeMappings = some properties)
    (agree : ∀ name first second, Mapped mapping source name first → Mapped mapping source name second → first = second)
    (name : String) (field : Attribute) (value : Value Date Pixels Other)
    (mapped : Mapped mapping source name (some value)) (found : Attribute.named name = some field)
    (kept : Kept image body field value) :
    finished image body (properties.foldl (assign source) inserted) field = some value := by
  obtain ⟨_, property, valueEx, same, member, named, expression, given⟩ := id mapped
  obtain rfl := Option.some.inj (listed.symm.trans same)
  have last : properties.foldl (assign source) inserted field = some value := by
    refine fold_assigned source properties inserted field value property member
      (assign_value source inserted property name valueEx field value named expression found given).1 ?_
    intro other_property other_member other pair
    obtain ⟨otherEx, other_named, other_expression, other_given⟩ :=
      assigned_parts source other_property field other pair
    rw [← (named_iff name field).mp found] at other_named
    exact Option.some.inj (agree name _ _
      ⟨properties, other_property, otherEx, listed, other_member, other_named, other_expression, other_given⟩ mapped)
  cases kept with
  | dateCreated date => exact last
  | image other => exact last
  | caption => rfl
  | width => rfl
  | height => rfl

end Creating

theorem migrates_iff (manager : NSMigrationManager Date Pixels Other) (source : Attachment Date Pixels)
    (mapping : NSEntityMapping Date Pixels Other) (image : UIImage Pixels) (body : NSString)
    (imaged : source.image = some image) (noted : source.noteBody = some body) (allNamed : AllNamed mapping) :
    Migrates manager source mapping image body ↔ Migratable manager source mapping image body := by
  constructor
  · rintro ⟨created, ended, migrated⟩
    have loaded : manager.representedClassName = "UnCloudNotes.ImageAttachment" := by
      by_contra missing
      exact class_missing_fails manager source mapping missing _ ended
    obtain ⟨properties, listed, fits, long, _⟩ :=
      (create_ok_iff manager source mapping loaded allNamed image body imaged noted _).mp ended
    refine ⟨loaded, by rw [listed]; rfl, long, fun name value mapped => ?_, fun name first second one other => ?_⟩
    · obtain ⟨_, property, valueEx, same, member, named, expression, rfl⟩ := id mapped
      obtain rfl := Option.some.inj (listed.symm.trans same)
      obtain ⟨field, kept, found, given, taken⟩ := fits property member name valueEx named expression
      obtain ⟨other, again, set⟩ := migrated.mapped name _ mapped
      obtain rfl := Option.some.inj (found.symm.trans again)
      exact ⟨field, kept, found, given,
        migrated_kept source mapping image body long created migrated field kept taken (set.trans given)⟩
    · obtain ⟨field, found, set⟩ := migrated.mapped name first one
      obtain ⟨again, refound, reset⟩ := migrated.mapped name second other
      obtain rfl := Option.some.inj (found.symm.trans refound)
      exact set.symm.trans reset
  · intro migratable
    obtain ⟨properties, listed⟩ := Option.isSome_iff_exists.mp migratable.listed
    have fits := kept_fits source mapping image body properties listed migratable.kept
    refine ⟨finished image body (properties.foldl (assign source) inserted),
      (create_ok_iff manager source mapping migratable.loaded allNamed image body imaged noted _).mpr
        ⟨properties, listed, fits, migratable.long, rfl⟩, ?_, rfl, rfl, fun name value mapped => ?_⟩
    · rw [Nat.min_eq_left migratable.long]
      rfl
    · obtain ⟨field, kept, found, rfl, keeps⟩ := migratable.kept name value mapped
      exact ⟨field, found,
        finished_kept source mapping image body properties listed migratable.agree name field kept mapped found keeps⟩

-- The model's entity names a class that there is not.
theorem version4_never_migrates (associations : List (Association Date Pixels Other))
    (source : Attachment Date Pixels) (mapping : NSEntityMapping Date Pixels Other) (image : UIImage Pixels)
    (body : NSString) :
    ¬ Migrates ⟨"UnCloudNotes.UnCloudNotesImageAttachment", associations⟩ source mapping image body := by
  have missing : "UnCloudNotes.UnCloudNotesImageAttachment" ≠ "UnCloudNotes.ImageAttachment" := by decide
  rintro ⟨_, ended, _⟩
  exact class_missing_fails _ source mapping missing _ ended

def sampleImage : UIImage Unit := ⟨⟨40, 30⟩, ()⟩

def noteOf (length : Nat) : Attachment Nat Unit := ⟨some 7, some sampleImage, some (List.replicate length 0x61)⟩

def sampleManager : NSMigrationManager Nat Unit Unit := ⟨"UnCloudNotes.ImageAttachment", []⟩

def sampleMapping : NSEntityMapping Nat Unit Unit :=
  ⟨some [⟨some "dateCreated", some fun source => source.dateCreated.map .date⟩,
    ⟨some "image", some fun source => source.image.map .image⟩, ⟨some "caption", none⟩]⟩

theorem sample_named : AllNamed sampleMapping := by
  intro properties listed
  obtain rfl := Option.some.inj listed
  decide

theorem sample_mapped (length : Nat) (name : String) (value : Option (Value Nat Unit Unit))
    (mapped : Mapped sampleMapping (noteOf length) name value) :
    (name = "dateCreated" ∧ value = some (.date 7)) ∨ (name = "image" ∧ value = some (.image sampleImage)) := by
  obtain ⟨properties, property, valueEx, listed, member, named, expression, rfl⟩ := mapped
  obtain rfl := Option.some.inj listed
  rcases List.mem_cons.mp member with rfl | later
  · cases named
    cases expression
    exact Or.inl ⟨rfl, rfl⟩
  · rcases List.mem_cons.mp later with rfl | last
    · cases named
      cases expression
      exact Or.inr ⟨rfl, rfl⟩
    · obtain rfl := List.mem_singleton.mp last
      cases expression

theorem long_note_migrates :
    Migrates sampleManager (noteOf 100) sampleMapping sampleImage (List.replicate 100 0x61) := by
  refine (migrates_iff sampleManager (noteOf 100) sampleMapping sampleImage (List.replicate 100 0x61) rfl rfl
    sample_named).mpr ⟨rfl, rfl, by decide, fun name value mapped => ?_, fun name first second one other => ?_⟩
  · rcases sample_mapped 100 name value mapped with ⟨rfl, rfl⟩ | ⟨rfl, rfl⟩
    · exact ⟨.dateCreated, _, rfl, rfl, .dateCreated 7⟩
    · exact ⟨.image, _, rfl, rfl, .image sampleImage⟩
  · rcases sample_mapped 100 name first one with ⟨rfl, rfl⟩ | ⟨rfl, rfl⟩
    · rcases sample_mapped 100 _ second other with ⟨_, rfl⟩ | ⟨clash, _⟩
      · rfl
      · exact nomatch clash
    · rcases sample_mapped 100 _ second other with ⟨clash, _⟩ | ⟨_, rfl⟩
      · exact nomatch clash
      · rfl

theorem short_note_fails :
    ¬ ∀ (source : Attachment Nat Unit) (mapping : NSEntityMapping Nat Unit Unit) image body,
      source.image = some image → source.dateCreated.isSome → source.noteBody = some body → AllNamed mapping →
        Migrates sampleManager source mapping image body := by
  intro all
  obtain ⟨_, ended, _⟩ := all (noteOf 3) sampleMapping sampleImage (List.replicate 3 0x61) rfl rfl rfl sample_named
  cases ended

end CultivationMotain.UnCloudNotes
