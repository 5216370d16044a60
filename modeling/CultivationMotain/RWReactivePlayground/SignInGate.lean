import CultivationMotain.Library.Runs
import CultivationMotain.Library.Signals
import CultivationMotain.Foundation.UTF16

set_option autoImplicit false

namespace CultivationMotain.RWReactivePlayground

open Signals

def isValidUsername (username : String) : Bool := Foundation.utf16Count username.toList > 3

def isValidPassword (password : String) : Bool := Foundation.utf16Count password.toList > 3

-- signUpActive is the combineLatest of the two validities, signIns the
-- flattenMap over the taps; outstanding are the service's calls to come back,
-- each by its signal's number, with the text it was called with.
structure RWViewController where
  usernameText : String
  passwordText : String
  signInEnabled : Bool
  failureHidden : Bool
  signUpActive : Latest Bool Bool
  signIns : FlattenMap
  outstanding : List (Nat × String × String)
  segues : List String
deriving DecidableEq, Repr

def sendActive (controller : RWViewController) : RWViewController :=
  match controller.signUpActive.values with
  | none => controller
  | some (userValid, passwordValid) => { controller with signInEnabled := userValid && passwordValid }

def usernameSends (controller : RWViewController) : RWViewController :=
  sendActive { controller with
    signUpActive := controller.signUpActive.sendFirst (isValidUsername controller.usernameText) }

def passwordSends (controller : RWViewController) : RWViewController :=
  sendActive { controller with
    signUpActive := controller.signUpActive.sendSecond (isValidPassword controller.passwordText) }

-- A text field's signal sends the text it has on subscription.
def viewDidLoad (username password : String) (enabled hidden : Bool) : RWViewController :=
  passwordSends (usernameSends
    { usernameText := username
      passwordText := password
      signInEnabled := enabled
      failureHidden := hidden
      signUpActive := Latest.unsent
      signIns := FlattenMap.subscribed
      outstanding := []
      segues := [] })

-- Subscribing to it calls the service.
def signInSignal (controller : RWViewController) (signal : Nat) : RWViewController :=
  { controller with
    outstanding := controller.outstanding ++ [(signal, controller.usernameText, controller.passwordText)] }

def signInTapped (controller : RWViewController) : RWViewController :=
  let waiting := { controller with signInEnabled := false, failureHidden := true }
  match waiting.signIns.subscribeInner with
  | none => waiting
  | some (signal, signIns) => signInSignal { waiting with signIns := signIns } signal

def signInDone (controller : RWViewController) : Option (Event Bool Empty) → RWViewController
  | some (.next success) =>
      { controller with
        failureHidden := success
        segues := if success then controller.segues ++ ["signInSuccess"] else controller.segues }
  | _ => controller

-- The completion block of the service sends its answer, then completes.
def signInResponse (controller : RWViewController) (signal : Nat) (success : Bool) : RWViewController :=
  let answered := controller.signIns.innerSends signal (.next success : Event Bool Empty)
  let shown := signInDone { controller with signIns := answered.1 } answered.2
  let completed := shown.signIns.innerSends signal (.completed : Event Bool Empty)
  signInDone { shown with signIns := completed.1 } completed.2

inductive SignInEvent where
  | editUsername (text : String)
  | editPassword (text : String)
  | tap
  | respond (signal : Nat) (success : Bool)
deriving DecidableEq, Repr

-- A disabled button cannot be tapped; the service answers each call once.
def signInStep (controller : RWViewController) : SignInEvent → Option RWViewController
  | .editUsername text => some (usernameSends { controller with usernameText := text })
  | .editPassword text => some (passwordSends { controller with passwordText := text })
  | .tap => if controller.signInEnabled then some (signInTapped controller) else none
  | .respond signal success =>
      if (controller.outstanding.map Prod.fst).contains signal then
        some (signInResponse
          { controller with outstanding := controller.outstanding.eraseP fun call => call.1 == signal } signal success)
      else none

def bothValid (controller : RWViewController) : Bool :=
  isValidUsername controller.usernameText && isValidPassword controller.passwordText

def Gated (_ : RWViewController) (_ : SignInEvent) (controller : RWViewController) : Prop :=
  (controller.signInEnabled = true ↔ bothValid controller = true ∧ controller.outstanding = []) ∧
    controller.outstanding.length ≤ 1

-- Nothing typed makes both fields valid while a request is out, and they are
-- not both valid when it comes back.
def TypedApart (controller : RWViewController) (event : SignInEvent) (_ : RWViewController) : Prop :=
  match event with
  | .editUsername text => controller.outstanding ≠ [] → bothValid { controller with usernameText := text } = false
  | .editPassword text => controller.outstanding ≠ [] → bothValid { controller with passwordText := text } = false
  | .tap => True
  | .respond _ _ => bothValid controller = false

-- What holds whatever is typed: the pipelines have not ended, and the validity
-- last sent is that of the text shown.
structure Loaded (controller : RWViewController) : Prop where
  live : controller.signIns.Live
  sent : controller.signUpActive =
    ⟨some (isValidUsername controller.usernameText), some (isValidPassword controller.passwordText)⟩

theorem username_sends_loaded (controller : RWViewController) (text : String) (loaded : Loaded controller) :
    usernameSends { controller with usernameText := text } =
      { controller with
        usernameText := text
        signInEnabled := bothValid { controller with usernameText := text }
        signUpActive := ⟨some (isValidUsername text), some (isValidPassword controller.passwordText)⟩ } := by
  simp only [usernameSends, sendActive, Latest.sendFirst, loaded.sent, Latest.values, Option.bind_some, Option.map_some,
    bothValid]

theorem password_sends_loaded (controller : RWViewController) (text : String) (loaded : Loaded controller) :
    passwordSends { controller with passwordText := text } =
      { controller with
        passwordText := text
        signInEnabled := bothValid { controller with passwordText := text }
        signUpActive := ⟨some (isValidUsername controller.usernameText), some (isValidPassword text)⟩ } := by
  simp only [passwordSends, sendActive, Latest.sendSecond, loaded.sent, Latest.values, Option.bind_some,
    Option.map_some, bothValid]

theorem sign_in_done_keeps (controller : RWViewController) (event : Option (Event Bool Empty)) :
    ∃ hidden segues, signInDone controller event =
      { controller with failureHidden := hidden, segues := segues } := by
  cases event with
  | none => exact ⟨_, _, rfl⟩
  | some sent =>
      cases sent with
      | next success => exact ⟨_, _, rfl⟩
      | failed error => exact error.elim
      | completed => exact ⟨_, _, rfl⟩

theorem sign_in_response_keeps (controller : RWViewController) (signal : Nat) (success : Bool)
    (live : controller.signIns.Live) :
    ∃ signIns hidden segues, signIns.Live ∧ signInResponse controller signal success =
      { controller with signIns := signIns, failureHidden := hidden, segues := segues } := by
  obtain ⟨hidden, segues, shown⟩ := sign_in_done_keeps
    { controller with signIns := (controller.signIns.innerSends signal (.next success : Event Bool Empty)).1 }
    (controller.signIns.innerSends signal (.next success : Event Bool Empty)).2
  have answered := inner_sends_live controller.signIns signal (.next success : Event Bool Empty) live
    (fun error => error.elim)
  have completed := inner_sends_live _ signal (.completed : Event Bool Empty) answered (fun error => error.elim)
  rw [signInResponse, shown]
  obtain ⟨hiddenAfter, seguesAfter, ended⟩ := sign_in_done_keeps
    { controller with
      signIns := ((controller.signIns.innerSends signal (.next success : Event Bool Empty)).1.innerSends signal
        (.completed : Event Bool Empty)).1
      failureHidden := hidden
      segues := segues }
    ((controller.signIns.innerSends signal (.next success : Event Bool Empty)).1.innerSends signal
      (.completed : Event Bool Empty)).2
  exact ⟨_, hiddenAfter, seguesAfter, completed, ended⟩

theorem sign_in_tapped_loaded (controller : RWViewController) (loaded : Loaded controller) :
    ∃ signal signIns, signIns.Live ∧ signInTapped controller =
      { controller with
        signInEnabled := false
        failureHidden := true
        signIns := signIns
        outstanding := controller.outstanding ++ [(signal, controller.usernameText, controller.passwordText)] } := by
  refine ⟨controller.signIns.subscriptions, controller.signIns.withInner, loaded.live, ?_⟩
  simp only [signInTapped, subscribe_inner_live controller.signIns loaded.live, signInSignal]

-- The four events, with what each leaves of the fields the gate reads.
theorem sign_in_step_cases (controller after : RWViewController) (event : SignInEvent) (loaded : Loaded controller)
    (taken : signInStep controller event = some after) :
    Loaded after ∧
      match event with
      | .editUsername text =>
          bothValid after = bothValid { controller with usernameText := text } ∧
            after.signInEnabled = bothValid after ∧ after.outstanding = controller.outstanding
      | .editPassword text =>
          bothValid after = bothValid { controller with passwordText := text } ∧
            after.signInEnabled = bothValid after ∧ after.outstanding = controller.outstanding
      | .tap =>
          controller.signInEnabled = true ∧ after.signInEnabled = false ∧
            ∃ call, after.outstanding = controller.outstanding ++ [call]
      | .respond _ _ =>
          bothValid after = bothValid controller ∧ after.signInEnabled = controller.signInEnabled ∧
            after.outstanding.length + 1 = controller.outstanding.length := by
  cases event with
  | editUsername text =>
      rw [signInStep, username_sends_loaded controller text loaded] at taken
      cases taken
      exact ⟨⟨loaded.live, rfl⟩, rfl, rfl, rfl⟩
  | editPassword text =>
      rw [signInStep, password_sends_loaded controller text loaded] at taken
      cases taken
      exact ⟨⟨loaded.live, rfl⟩, rfl, rfl, rfl⟩
  | tap =>
      rw [signInStep] at taken
      split at taken
      · rename_i enabled
        obtain ⟨signal, signIns, live, tapped⟩ := sign_in_tapped_loaded controller loaded
        rw [tapped] at taken
        cases taken
        exact ⟨⟨live, loaded.sent⟩, enabled, rfl, _, rfl⟩
      · cases taken
  | respond signal success =>
      rw [signInStep] at taken
      split at taken
      · rename_i called
        obtain ⟨call, member, same⟩ := List.mem_map.mp (List.contains_iff_mem.mp called)
        obtain ⟨signIns, hidden, segues, live, responded⟩ := sign_in_response_keeps
          { controller with outstanding := controller.outstanding.eraseP fun call => call.1 == signal } signal success
          loaded.live
        rw [responded] at taken
        cases taken
        refine ⟨⟨live, loaded.sent⟩, rfl, rfl, ?_⟩
        have length := List.length_eraseP_of_mem (p := fun call => call.1 == signal) member (by simp [same])
        have positive := List.length_pos_of_mem member
        simp only [length]
        omega
      · cases taken

structure GatedSoFar (controller : RWViewController) : Prop where
  loaded : Loaded controller
  gate : controller.signInEnabled = true ↔ bothValid controller = true ∧ controller.outstanding = []
  single : controller.outstanding.length ≤ 1

theorem edited_gate (before after : RWViewController) (so : GatedSoFar before)
    (enabled : after.signInEnabled = bothValid after) (same : after.outstanding = before.outstanding) :
    ((after.signInEnabled = true ↔ bothValid after = true ∧ after.outstanding = []) ∧ after.outstanding.length ≤ 1) ↔
      (before.outstanding ≠ [] → bothValid after = false) := by
  rw [enabled, same]
  constructor
  · intro gated waiting
    by_contra valid
    exact waiting (gated.1.mp (Bool.of_not_eq_false valid)).2
  · intro apart
    refine ⟨⟨fun valid => ⟨valid, ?_⟩, And.left⟩, so.single⟩
    by_contra waiting
    exact Bool.false_ne_true ((apart waiting).symm.trans valid)

theorem gate_step (controller : RWViewController) (event : SignInEvent) (after : RWViewController)
    (so : GatedSoFar controller) (taken : signInStep controller event = some after) :
    Gated controller event after ↔ TypedApart controller event after := by
  have cases := (sign_in_step_cases controller after event so.loaded taken).2
  cases event with
  | editUsername text =>
      rw [TypedApart, ← cases.1]
      exact edited_gate controller after so cases.2.1 cases.2.2
  | editPassword text =>
      rw [TypedApart, ← cases.1]
      exact edited_gate controller after so cases.2.1 cases.2.2
  | tap =>
      obtain ⟨enabled, disabled, call, called⟩ := cases
      have quiet := (so.gate.mp enabled).2
      rw [Gated, disabled, called, quiet]
      simp [TypedApart]
  | respond signal success =>
      obtain ⟨same, kept, fewer⟩ := cases
      have waiting : controller.outstanding ≠ [] := by
        intro none
        rw [none] at fewer
        cases fewer
      have disabled : controller.signInEnabled = false := by
        by_contra enabled
        exact waiting (so.gate.mp (Bool.of_not_eq_false enabled)).2
      have answered : after.outstanding = [] := by
        have single := so.single
        exact List.length_eq_zero_iff.mp (by omega)
      rw [Gated, kept, disabled, same, answered]
      simp [TypedApart]

theorem gate_kept (controller : RWViewController) (event : SignInEvent) (after : RWViewController)
    (so : GatedSoFar controller) (taken : signInStep controller event = some after)
    (gated : Gated controller event after) : GatedSoFar after :=
  ⟨(sign_in_step_cases controller after event so.loaded taken).1, gated.1, gated.2⟩

theorem view_did_load_gated (username password : String) (enabled hidden : Bool) :
    GatedSoFar (viewDidLoad username password enabled hidden) :=
  ⟨⟨subscribed_live, rfl⟩, ⟨fun valid => ⟨valid, rfl⟩, And.left⟩, Nat.zero_le 1⟩

-- Every state of a run has the button enabled exactly when both fields are
-- valid and no request is out, if and only if in the run no request overlaps
-- with two valid fields after the tap that sent it.
theorem sign_in_gate_iff (username password : String) (enabled hidden : Bool) (events : List SignInEvent) :
    Runs.Steps signInStep Gated (viewDidLoad username password enabled hidden) events ↔
      Runs.Steps signInStep TypedApart (viewDidLoad username password enabled hidden) events :=
  Runs.steps_iff signInStep GatedSoFar Gated TypedApart gate_step gate_kept _ events
    (view_did_load_gated username password enabled hidden)

-- A failed sign-in leaves the button disabled; an edit during the request
-- enables it for a second one.
def failedSignIn : List SignInEvent :=
  [.editUsername "user", .editPassword "passwort", .tap, .respond 0 false]

def editedSignIn : List SignInEvent :=
  [.editUsername "user", .editPassword "passwort", .tap, .editPassword "password"]

theorem sign_in_gate_fails :
    ¬ Runs.Steps signInStep Gated (viewDidLoad "" "" true false) failedSignIn ∧
      ¬ Runs.Steps signInStep Gated (viewDidLoad "" "" true false) editedSignIn := by
  constructor
  · intro all
    have last := Runs.steps_after signInStep Gated _ _ (failedSignIn.take 3) [.respond 0 false] rfl all
    have gated := (last _ rfl).1
    exact Bool.false_ne_true (gated.1.mpr ⟨rfl, rfl⟩)
  · intro all
    have last := Runs.steps_after signInStep Gated _ _ (editedSignIn.take 3) [.editPassword "password"] rfl all
    have gated := (last _ rfl).1
    cases (gated.1.mp rfl).2

end CultivationMotain.RWReactivePlayground
