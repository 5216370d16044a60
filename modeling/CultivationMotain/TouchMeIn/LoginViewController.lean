import CultivationMotain.Library.Runs

set_option autoImplicit false

namespace CultivationMotain.TouchMeIn

def createLoginButtonTag : Nat := 1
def loginButtonTag : Nat := 0

-- What the user sees of one loginAction. In Login mode a failed check shows
-- nothing at all; the alert is for empty fields and for unknown tags.
inductive LoginResult where
  | dismissLogin
  | alert (title message action : String)
  | stays
deriving DecidableEq, Repr

def wrongLogin : LoginResult := .alert "Login Problem" "Wrong username or password." "Foiled Again!"

-- NSUserDefaults and the keychain item survive a relaunch. A missing
-- hasLoginKey reads as false.
structure Persistent where
  username : Option String
  hasLoginKey : Bool
  keychain : Option String
deriving DecidableEq, Repr

-- keychainData is the kSecValueData entry of the wrapper's dictionary.
structure LoginViewController where
  keychainData : String
  tag : Nat
  usernameText : String
  passwordText : String
deriving DecidableEq, Repr

structure App where
  stored : Persistent
  controller : LoginViewController
  result : LoginResult
deriving DecidableEq, Repr

-- KeychainWrapper.init: without an item in the keychain, resetKeychainItem
-- fills the dictionary, and only the dictionary, with default values.
def keychainWrapper (stored : Persistent) : String := stored.keychain.getD "password"

def writeToKeychain (stored : Persistent) (keychainData : String) : Persistent :=
  { stored with keychain := some keychainData }

-- Both the wrapper's dictionary and, where it changed, the keychain.
def mySetObject (stored : Persistent) (keychainData object : String) : Persistent × String :=
  if keychainData = object then (stored, keychainData) else (writeToKeychain stored object, object)

-- boolForKey is NSUserDefaults reading a stored string as a truth value; a
-- missing value is false.
def viewDidLoad (boolForKey : String → Bool) (stored : Persistent) : LoginViewController :=
  let has := (stored.username.map boolForKey).getD false
  { keychainData := keychainWrapper stored
    tag := if has then loginButtonTag else createLoginButtonTag
    usernameText := stored.username.getD ""
    passwordText := "" }

-- A text stands for all that Swift's == takes to be the same.
def checkLogin (app : App) (username password : String) : Bool :=
  some password = some app.controller.keychainData || some username = app.stored.username

-- The sender is the login button: no other control is wired to the action.
def loginAction (app : App) : App :=
  let username := app.controller.usernameText
  let password := app.controller.passwordText
  if username = "" ∨ password = "" then { app with result := wrongLogin }
  else if app.controller.tag = createLoginButtonTag then
    let named := if app.stored.hasLoginKey then app.stored else { app.stored with username := some username }
    let (kept, keychainData) := mySetObject named app.controller.keychainData password
    let written := writeToKeychain kept keychainData
    { stored := { written with hasLoginKey := true }
      controller := { app.controller with keychainData := keychainData, tag := loginButtonTag }
      result := .dismissLogin }
  else if app.controller.tag = loginButtonTag then
    { app with result := if checkLogin app username password then .dismissLogin else .stays }
  else { app with result := wrongLogin }

@[ext] structure Credentials where
  username : String
  password : String
  username_nonempty : username ≠ ""
  password_nonempty : password ≠ ""

inductive Event where
  | relaunch
  | login (given : Credentials)

-- A relaunch builds the controller anew; a login is the two fields being filled
-- in and the button tapped.
def step (boolForKey : String → Bool) (app : App) : Event → App
  | .relaunch => { app with controller := viewDidLoad boolForKey app.stored, result := .stays }
  | .login given =>
      loginAction { app with
        controller := { app.controller with usernameText := given.username, passwordText := given.password } }

def launch (boolForKey : String → Bool) (stored : Persistent) : App :=
  ⟨stored, viewDidLoad boolForKey stored, .stays⟩

-- The password reaches the wrapper and the keychain whether or not
-- mySetObject found it already in the dictionary.
theorem set_then_write (stored : Persistent) (keychainData object : String) :
    (mySetObject stored keychainData object).2 = object ∧
      writeToKeychain (mySetObject stored keychainData object).1 (mySetObject stored keychainData object).2 =
        { stored with keychain := some object } := by
  unfold mySetObject
  split
  · rename_i same
    exact ⟨same, by rw [writeToKeychain, same]⟩
  · exact ⟨rfl, rfl⟩

theorem login_create (boolForKey : String → Bool) (app : App) (given : Credentials)
    (create : app.controller.tag = createLoginButtonTag) :
    step boolForKey app (.login given) =
      { stored :=
          { username := if app.stored.hasLoginKey then app.stored.username else some given.username
            hasLoginKey := true
            keychain := some given.password }
        controller :=
          { keychainData := given.password
            tag := loginButtonTag
            usernameText := given.username
            passwordText := given.password }
        result := .dismissLogin } := by
  have filled : ¬ (given.username = "" ∨ given.password = "") := by
    rintro (empty | empty)
    · exact given.username_nonempty empty
    · exact given.password_nonempty empty
  simp only [step, loginAction, create, if_neg filled, if_true]
  obtain ⟨data, written⟩ := set_then_write
    (if app.stored.hasLoginKey then app.stored else { app.stored with username := some given.username })
    app.controller.keychainData given.password
  rw [written, data]
  cases app.stored.hasLoginKey <;> rfl

theorem login_check (boolForKey : String → Bool) (app : App) (given : Credentials)
    (login : app.controller.tag = loginButtonTag) :
    (step boolForKey app (.login given)).stored = app.stored ∧
      (step boolForKey app (.login given)).controller.keychainData = app.controller.keychainData ∧
      (step boolForKey app (.login given)).controller.tag = loginButtonTag ∧
      ((step boolForKey app (.login given)).result = .dismissLogin ↔
        given.password = app.controller.keychainData ∨ some given.username = app.stored.username) := by
  have filled : ¬ (given.username = "" ∨ given.password = "") := by
    rintro (empty | empty)
    · exact given.username_nonempty empty
    · exact given.password_nonempty empty
  have other : ¬ loginButtonTag = createLoginButtonTag := by decide
  simp only [step, loginAction, login, if_neg filled, if_neg other, if_true, checkLogin]
  refine ⟨trivial, trivial, trivial, ?_⟩
  by_cases pass : given.password = app.controller.keychainData <;>
    by_cases user : some given.username = app.stored.username <;> simp [pass, user]

end CultivationMotain.TouchMeIn
