import Mathlib.Data.List.Basic

set_option autoImplicit false

namespace Signals

universe u v w

variable {α : Type u} {β : Type v} {ε : Type w}

-- A signal sends values and ends, if ever, with an error or a completion.
inductive Event (α : Type u) (ε : Type w) where
  | next (value : α)
  | failed (error : ε)
  | completed
deriving DecidableEq, Repr

def Event.ends : Event α ε → Bool
  | .next _ => false
  | .failed _ => true
  | .completed => true

-- The receiving end of one subscription: after an error or a completion it is
-- disposed of and hears nothing more.
structure Subscriber (α : Type u) (ε : Type w) where
  active : Bool
  received : List (Event α ε)
deriving DecidableEq, Repr

def Subscriber.subscribed : Subscriber α ε := ⟨true, []⟩

def Subscriber.send (subscriber : Subscriber α ε) (event : Event α ε) : Subscriber α ε :=
  if subscriber.active then ⟨!event.ends, subscriber.received ++ [event]⟩ else subscriber

theorem send_active (subscriber : Subscriber α ε) (event : Event α ε) (active : subscriber.active = true) :
    subscriber.send event = ⟨!event.ends, subscriber.received ++ [event]⟩ := if_pos active

theorem send_inactive (subscriber : Subscriber α ε) (event : Event α ε) (inactive : subscriber.active = false) :
    subscriber.send event = subscriber := if_neg (Bool.eq_false_iff.mp inactive)

-- combineLatest of two signals: the last value of each, once there is one.
structure Latest (α : Type u) (β : Type v) where
  first : Option α
  second : Option β
deriving DecidableEq, Repr

def Latest.unsent : Latest α β := ⟨none, none⟩

def Latest.values (latest : Latest α β) : Option (α × β) :=
  latest.first.bind fun one => latest.second.map fun other => (one, other)

def Latest.sendFirst (latest : Latest α β) (value : α) : Latest α β := { latest with first := some value }

def Latest.sendSecond (latest : Latest α β) (value : β) : Latest α β := { latest with second := some value }

-- One subscription of a flattenMap: the inner signals are numbered as they are
-- subscribed to, inners are those that have not ended.
structure FlattenMap where
  outer : Bool
  inners : List Nat
  subscriptions : Nat
  disposed : Bool
deriving DecidableEq, Repr

def FlattenMap.subscribed : FlattenMap := ⟨true, [], 0, false⟩

def FlattenMap.withInner (flat : FlattenMap) : FlattenMap :=
  { flat with inners := flat.inners ++ [flat.subscriptions], subscriptions := flat.subscriptions + 1 }

-- A value of the outer signal starts one more inner signal, next to those
-- already there.
def FlattenMap.subscribeInner (flat : FlattenMap) : Option (Nat × FlattenMap) :=
  if flat.disposed || !flat.outer then none else some (flat.subscriptions, flat.withInner)

-- An event of an inner signal, and what it makes the flattened signal send: its
-- values as they come, its error, and completion with the last signal's.
def FlattenMap.innerSends (flat : FlattenMap) (inner : Nat) (event : Event β ε) : FlattenMap × Option (Event β ε) :=
  if flat.disposed || !flat.inners.contains inner then (flat, none)
  else
    match event with
    | .next value => (flat, some (.next value))
    | .failed error => ({ flat with inners := [], disposed := true }, some (.failed error))
    | .completed =>
        let inners := flat.inners.erase inner
        if inners.isEmpty && !flat.outer then ({ flat with inners := [], disposed := true }, some .completed)
        else ({ flat with inners := inners }, none)

def FlattenMap.Live (flat : FlattenMap) : Prop := flat.disposed = false ∧ flat.outer = true

theorem subscribed_live : FlattenMap.subscribed.Live := ⟨rfl, rfl⟩

theorem subscribe_inner_live (flat : FlattenMap) (live : flat.Live) :
    flat.subscribeInner = some (flat.subscriptions, flat.withInner) := by
  simp [FlattenMap.subscribeInner, live.1, live.2]

theorem subscribe_inner_disposed (flat : FlattenMap) (disposed : flat.disposed = true) :
    flat.subscribeInner = none := by
  simp [FlattenMap.subscribeInner, disposed]

theorem inner_sends_disposed (flat : FlattenMap) (inner : Nat) (event : Event β ε) (disposed : flat.disposed = true) :
    flat.innerSends inner event = (flat, none) := by
  simp [FlattenMap.innerSends, disposed]

theorem inner_sends_next (flat : FlattenMap) (inner : Nat) (value : β) (live : flat.Live)
    (known : inner ∈ flat.inners) :
    flat.innerSends inner (.next value : Event β ε) = (flat, some (.next value)) := by
  simp [FlattenMap.innerSends, live.1, known]

theorem inner_sends_completed (flat : FlattenMap) (inner : Nat) (live : flat.Live) (known : inner ∈ flat.inners) :
    flat.innerSends inner (.completed : Event β ε) = ({ flat with inners := flat.inners.erase inner }, none) := by
  simp [FlattenMap.innerSends, live.1, live.2, known]

theorem inner_sends_failed (flat : FlattenMap) (inner : Nat) (error : ε) (live : flat.Live)
    (known : inner ∈ flat.inners) :
    flat.innerSends inner (.failed error : Event β ε) =
      ({ flat with inners := [], disposed := true }, some (.failed error)) := by
  simp [FlattenMap.innerSends, live.1, known]

theorem inner_sends_live (flat : FlattenMap) (inner : Nat) (event : Event β ε) (live : flat.Live)
    (fails : ∀ error, event ≠ .failed error) : (flat.innerSends inner event).1.Live := by
  by_cases known : inner ∈ flat.inners
  · cases event with
    | next value => rw [inner_sends_next flat inner value live known]; exact live
    | failed error => exact absurd rfl (fails error)
    | completed => rw [inner_sends_completed flat inner live known]; exact live
  · simpa [FlattenMap.innerSends, known] using live

def FlattenMap.outerFails (flat : FlattenMap) (error : ε) : FlattenMap × Option (Event β ε) :=
  if flat.disposed then (flat, none)
  else ({ flat with outer := false, inners := [], disposed := true }, some (.failed error))

end Signals
