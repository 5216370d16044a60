import CultivationMotain.TouchMeIn.LoginViewController

set_option autoImplicit false

namespace CultivationMotain.TouchMeIn

open Runs

def gate (boolForKey : String → Bool) (app : App) (event : Event) : Option App := some (step boolForKey app event)

-- A login dismisses the screen exactly for the first credentials, and these
-- are what both persistent stores hold afterwards.
def GateStep (first : Credentials) (_ : App) (event : Event) (after : App) : Prop :=
  (∀ given, event = .login given → (after.result = .dismissLogin ↔ given = first)) ∧
    after.stored.username = some first.username ∧ after.stored.keychain = some first.password

-- In Create mode, which a relaunch brings back unless the stored name reads as
-- a truth value, only the first credentials are given; in Login mode a right
-- name never comes with a wrong password, nor a right password with a wrong name.
def CarefulStep (first : Credentials) (before : App) (event : Event) (_ : App) : Prop :=
  ∀ given, event = .login given →
    if before.controller.tag = createLoginButtonTag then given = first
    else (given.username = first.username ↔ given.password = first.password)

structure Stored (first : Credentials) (app : App) : Prop where
  username : app.stored.username = some first.username
  hasLoginKey : app.stored.hasLoginKey = true
  keychain : app.stored.keychain = some first.password
  wrapper : app.controller.keychainData = first.password
  tagged : app.controller.tag = createLoginButtonTag ∨ app.controller.tag = loginButtonTag

theorem first_login_stored (boolForKey : String → Bool) (app : App) (first : Credentials)
    (create : app.controller.tag = createLoginButtonTag) (noKey : app.stored.hasLoginKey = false) :
    Stored first (step boolForKey app (.login first)) := by
  rw [login_create boolForKey app first create]
  exact ⟨by simp [noKey], rfl, rfl, rfl, .inr rfl⟩

theorem relaunch_stored (boolForKey : String → Bool) (app : App) (first : Credentials)
    (stored : Stored first app) : Stored first (step boolForKey app .relaunch) := by
  refine ⟨stored.username, stored.hasLoginKey, stored.keychain, ?_, ?_⟩
  · simp [step, viewDidLoad, keychainWrapper, stored.keychain]
  · simp only [step, viewDidLoad]
    split
    · exact .inr rfl
    · exact .inl rfl

theorem credentials_eq_iff (given first : Credentials) :
    given = first ↔ given.username = first.username ∧ given.password = first.password :=
  Credentials.ext_iff

theorem gate_step_create (boolForKey : String → Bool) (app : App) (first given : Credentials)
    (stored : Stored first app) (create : app.controller.tag = createLoginButtonTag) :
    GateStep first app (.login given) (step boolForKey app (.login given)) ↔ given = first := by
  rw [login_create boolForKey app given create]
  constructor
  · rintro ⟨dismissed, _⟩
    exact (dismissed given rfl).mp rfl
  · rintro rfl
    refine ⟨?_, by simp [stored.hasLoginKey, stored.username], rfl⟩
    intro other same
    cases same
    exact ⟨fun _ => rfl, fun _ => rfl⟩

theorem gate_step_check (boolForKey : String → Bool) (app : App) (first given : Credentials)
    (stored : Stored first app) (login : app.controller.tag = loginButtonTag) :
    GateStep first app (.login given) (step boolForKey app (.login given)) ↔
      (given.username = first.username ↔ given.password = first.password) := by
  obtain ⟨same, _, _, dismissed⟩ := login_check boolForKey app given login
  rw [stored.wrapper, stored.username, Option.some.injEq] at dismissed
  have kept : (step boolForKey app (.login given)).stored.username = some first.username ∧
      (step boolForKey app (.login given)).stored.keychain = some first.password := by
    rw [same]
    exact ⟨stored.username, stored.keychain⟩
  constructor
  · rintro ⟨exactly, _⟩
    have accept := (exactly given rfl).symm.trans dismissed
    rw [credentials_eq_iff] at accept
    by_cases user : given.username = first.username <;>
      by_cases pass : given.password = first.password <;> simp_all
  · intro together
    refine ⟨?_, kept⟩
    intro other is
    cases is
    rw [dismissed, credentials_eq_iff, together]
    exact ⟨fun either => ⟨either.elim id id, either.elim id id⟩, fun both => .inl both.2⟩

theorem gate_step_exact (boolForKey : String → Bool) (first : Credentials) (app : App) (event : Event)
    (after : App) (stored : Stored first app) (taken : gate boolForKey app event = some after) :
    GateStep first app event after ↔ CarefulStep first app event after := by
  obtain rfl : step boolForKey app event = after := Option.some.inj taken
  cases event with
  | relaunch =>
      have kept := relaunch_stored boolForKey app first stored
      exact ⟨fun _ _ other => (nomatch other), fun _ => ⟨fun _ other => (nomatch other), kept.username, kept.keychain⟩⟩
  | login given =>
      have unfolded : CarefulStep first app (.login given) (step boolForKey app (.login given)) ↔
          if app.controller.tag = createLoginButtonTag then given = first
          else (given.username = first.username ↔ given.password = first.password) :=
        ⟨fun careful => careful given rfl, fun holds other same => by cases same; exact holds⟩
      rw [unfolded]
      rcases stored.tagged with create | login
      · rw [if_pos create]
        exact gate_step_create boolForKey app first given stored create
      · rw [if_neg (by rw [login]; decide)]
        exact gate_step_check boolForKey app first given stored login

theorem gate_step_keeps (boolForKey : String → Bool) (first : Credentials) (app : App) (event : Event)
    (after : App) (stored : Stored first app) (taken : gate boolForKey app event = some after)
    (good : GateStep first app event after) : Stored first after := by
  obtain rfl : step boolForKey app event = after := Option.some.inj taken
  cases event with
  | relaunch => exact relaunch_stored boolForKey app first stored
  | login given =>
      rcases stored.tagged with create | login
      · obtain rfl := (gate_step_create boolForKey app first given stored create).mp good
        rw [login_create boolForKey app given create]
        exact ⟨by simp [stored.hasLoginKey, stored.username], rfl, rfl, rfl, .inr rfl⟩
      · obtain ⟨same, data, tag, _⟩ := login_check boolForKey app given login
        exact ⟨good.2.1, by rw [same]; exact stored.hasLoginKey, good.2.2, data.trans stored.wrapper, .inr tag⟩

theorem login_gate_iff (boolForKey : String → Bool) (app : App) (first : Credentials) (events : List Event)
    (create : app.controller.tag = createLoginButtonTag) (noKey : app.stored.hasLoginKey = false) :
    Steps (gate boolForKey) (GateStep first) (step boolForKey app (.login first)) events ↔
      Steps (gate boolForKey) (CarefulStep first) (step boolForKey app (.login first)) events :=
  steps_iff (gate boolForKey) (Stored first) (GateStep first) (CarefulStep first)
    (gate_step_exact boolForKey first) (gate_step_keeps boolForKey first) _ events
    (first_login_stored boolForKey app first create noKey)

def freshInstall : Persistent := ⟨none, false, none⟩

def ann : Credentials := ⟨"ann", "secret", by decide, by decide⟩

theorem login_gate_relaunched :
    Steps (gate fun _ => false) (GateStep ann)
      (step (fun _ => false) (launch (fun _ => false) freshInstall) (.login ann))
      [.login ann, .relaunch, .login ann] := by
  refine (login_gate_iff (fun _ => false) (launch (fun _ => false) freshInstall) ann _ rfl rfl).mpr ?_
  intro _ taken
  obtain rfl := Option.some.inj taken
  refine ⟨fun _ same => by cases same; exact ⟨fun _ => rfl, fun _ => rfl⟩, ?_⟩
  intro _ taken
  obtain rfl := Option.some.inj taken
  refine ⟨fun _ same => (nomatch same), ?_⟩
  intro _ taken
  obtain rfl := Option.some.inj taken
  exact ⟨fun _ same => by cases same; exact rfl, trivial⟩

theorem wrong_password_accepted :
    (launch (fun _ => false) freshInstall).controller.tag = createLoginButtonTag ∧
      ¬ Steps (gate fun _ => false) (GateStep ann)
        (step (fun _ => false) (launch (fun _ => false) freshInstall) (.login ann))
        [.login ⟨"ann", "guess", by decide, by decide⟩] := by
  refine ⟨rfl, ?_⟩
  intro all
  obtain ⟨⟨exactly, _⟩, _⟩ := all _ rfl
  have same := (exactly _ rfl).mp (by decide)
  exact absurd (congrArg Credentials.password same) (by decide)

end CultivationMotain.TouchMeIn
