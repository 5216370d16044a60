import CultivationMotain.Library.Runs
import CultivationMotain.Library.Signals
import CultivationMotain.Foundation.UTF16

set_option autoImplicit false

namespace CultivationMotain.TwitterInstant

open Signals

structure NSError where
  domain : String
  code : Int
deriving DecidableEq, Repr

inductive RWTwitterInstantError where
  | accessDenied
  | noTwitterAccounts
  | invalidResponse
deriving DecidableEq, Repr

def RWTwitterInstantError.code : RWTwitterInstantError → Int
  | .accessDenied => 0
  | .noTwitterAccounts => 1
  | .invalidResponse => 2

def twitterInstantError (error : RWTwitterInstantError) : NSError := ⟨"TwitterInstant", error.code⟩

structure SLRequest where
  text : String
  account : Option String
deriving DecidableEq, Repr

-- search is the flattenMap of the pipeline; its inner signals and the requests
-- have one number. mainQueue is what deliverOn has scheduled, and outstanding
-- the requests performed and not answered. Two ghosts: the valid texts the field
-- has sent down the pipeline, and the number of failed requests.
structure RWSearchFormViewController (Timeline : Type) where
  searchText : String
  granted : Option Bool
  accounts : List String
  search : FlattenMap
  requests : List SLRequest
  outstanding : List Nat
  mainQueue : List (Event (Nat × Timeline) (Option NSError))
  subscriber : Subscriber (Nat × Timeline) (Option NSError)
  typed : List String
  failures : Nat

variable {Timeline : Type}

def isValidSearchText (text : String) : Bool := Foundation.utf16Count text.toList > 2

def viewDidLoad (searchText : String) (accounts : List String) : RWSearchFormViewController Timeline where
  searchText := searchText
  granted := none
  accounts := accounts
  search := FlattenMap.subscribed
  requests := []
  outstanding := []
  mainQueue := []
  subscriber := Subscriber.subscribed
  typed := []
  failures := 0

-- An event of one request's signal, through flattenMap and deliverOn.
def searchSends (form : RWSearchFormViewController Timeline) (signal : Nat)
    (event : Event (Nat × Timeline) (Option NSError)) : RWSearchFormViewController Timeline :=
  let sent := form.search.innerSends signal event
  { form with search := sent.1, mainQueue := form.mainQueue ++ sent.2.toList }

-- Subscribing to it makes the request and, with an account, performs it.
def signalForSearchWithText (form : RWSearchFormViewController Timeline) (signal : Nat) (text : String) :
    RWSearchFormViewController Timeline :=
  let account := form.accounts.getLast?
  let made : RWSearchFormViewController Timeline :=
    { form with requests := form.requests ++ [⟨text, account⟩] }
  match account with
  | none =>
      searchSends { made with failures := made.failures + 1 } signal
        (.failed (some (twitterInstantError .noTwitterAccounts)))
  | some _ => { made with outstanding := made.outstanding ++ [signal] }

-- The text signal sends the field's text down the rest of the pipeline.
def textSends (form : RWSearchFormViewController Timeline) : RWSearchFormViewController Timeline :=
  if isValidSearchText form.searchText then
    let sending := { form with typed := form.typed ++ [form.searchText] }
    match sending.search.subscribeInner with
    | none => sending
    | some (signal, search) => signalForSearchWithText { sending with search := search } signal form.searchText
  else form

-- then starts the text signal when access is granted, with the text the field
-- has, and passes on the error when it is not.
def accessRequested (form : RWSearchFormViewController Timeline) (granted : Bool) :
    RWSearchFormViewController Timeline :=
  if granted then textSends { form with granted := some true }
  else
    let sent := form.search.outerFails (β := Nat × Timeline) (some (twitterInstantError .accessDenied))
    { form with granted := some false, search := sent.1, mainQueue := form.mainQueue ++ sent.2.toList }

def requestAnswered (form : RWSearchFormViewController Timeline) (signal : Nat) (statusCode : Int)
    (timelineData : Timeline) (error : Option NSError) : RWSearchFormViewController Timeline :=
  if statusCode = 200 then searchSends (searchSends form signal (.next (signal, timelineData))) signal .completed
  else searchSends { form with failures := form.failures + 1 } signal (.failed error)

inductive SearchFormEvent (Timeline : Type) where
  | access (granted : Bool)
  | edit (text : String)
  | setAccounts (accounts : List String)
  | answer (signal : Nat) (statusCode : Int) (timelineData : Timeline) (error : Option NSError)
  | deliver

def searchFormStep (form : RWSearchFormViewController Timeline) :
    SearchFormEvent Timeline → Option (RWSearchFormViewController Timeline)
  | .access granted => if form.granted.isNone then some (accessRequested form granted) else none
  | .edit text =>
      let edited := { form with searchText := text }
      some (if form.granted = some true then textSends edited else edited)
  | .setAccounts accounts => some { form with accounts := accounts }
  | .answer signal statusCode timelineData error =>
      if form.outstanding.contains signal then
        some (requestAnswered { form with outstanding := form.outstanding.filter fun other => other != signal } signal
          statusCode timelineData error)
      else none
  | .deliver =>
      match form.mainQueue with
      | [] => none
      | event :: rest => some { form with mainQueue := rest, subscriber := form.subscriber.send event }

theorem search_sends_disposed (form : RWSearchFormViewController Timeline) (signal : Nat)
    (event : Event (Nat × Timeline) (Option NSError)) (disposed : form.search.disposed = true) :
    searchSends form signal event = form := by
  rw [searchSends, inner_sends_disposed form.search signal event disposed]
  simp only [Option.toList_none, List.append_nil]

theorem search_sends_failed (form : RWSearchFormViewController Timeline) (signal : Nat) (error : Option NSError)
    (live : form.search.Live) (known : signal ∈ form.search.inners) :
    searchSends form signal (.failed error) =
      { form with
        search := { form.search with inners := [], disposed := true }
        mainQueue := form.mainQueue ++ [.failed error] } := by
  rw [searchSends, inner_sends_failed form.search signal error live known]
  rfl

theorem request_succeeds (form : RWSearchFormViewController Timeline) (signal : Nat) (timelineData : Timeline)
    (error : Option NSError) (live : form.search.Live) (known : signal ∈ form.search.inners) :
    requestAnswered form signal 200 timelineData error =
      { form with
        search := { form.search with inners := form.search.inners.erase signal }
        mainQueue := form.mainQueue ++ [.next (signal, timelineData)] } := by
  rw [requestAnswered, if_pos rfl, searchSends, searchSends, inner_sends_next form.search signal _ live known]
  simp only [inner_sends_completed form.search signal live known, Option.toList_some, Option.toList_none,
    List.append_nil]

theorem request_fails (form : RWSearchFormViewController Timeline) (signal : Nat) (statusCode : Int)
    (timelineData : Timeline) (error : Option NSError) (live : form.search.Live) (known : signal ∈ form.search.inners)
    (failed : statusCode ≠ 200) :
    requestAnswered form signal statusCode timelineData error =
      { form with
        search := { form.search with inners := [], disposed := true }
        mainQueue := form.mainQueue ++ [.failed error]
        failures := form.failures + 1 } := by
  rw [requestAnswered, if_neg failed]
  exact search_sends_failed _ signal error live known

theorem search_without_account (form : RWSearchFormViewController Timeline) (signal : Nat) (text : String)
    (live : form.search.Live) (known : signal ∈ form.search.inners) (missing : form.accounts.getLast? = none) :
    signalForSearchWithText form signal text =
      { form with
        search := { form.search with inners := [], disposed := true }
        requests := form.requests ++ [⟨text, none⟩]
        mainQueue := form.mainQueue ++ [.failed (some (twitterInstantError .noTwitterAccounts))]
        failures := form.failures + 1 } := by
  rw [signalForSearchWithText, missing]
  exact search_sends_failed _ signal _ live known

theorem search_with_account (form : RWSearchFormViewController Timeline) (signal : Nat) (text name : String)
    (present : form.accounts.getLast? = some name) :
    signalForSearchWithText form signal text =
      { form with
        requests := form.requests ++ [⟨text, some name⟩]
        outstanding := form.outstanding ++ [signal] } := by
  rw [signalForSearchWithText, present]

-- Where the pipeline stands: waiting for access, searching, ended by a failed
-- request, or without access.
inductive Phase (form : RWSearchFormViewController Timeline) : Prop where
  | asking (granted : form.granted = none) (search : form.search = FlattenMap.subscribed)
      (unasked : form.outstanding = []) (untyped : form.typed = []) (unfailed : form.failures = 0)
  | searching (granted : form.granted = some true) (live : form.search.Live)
      (known : ∀ signal ∈ form.outstanding, signal ∈ form.search.inners) (unfailed : form.failures = 0)
  | ended (granted : form.granted = some true) (disposed : form.search.disposed = true) (failed : form.failures ≠ 0)
  | denied (granted : form.granted = some false) (unasked : form.outstanding = []) (untyped : form.typed = [])
      (unfailed : form.failures = 0)

def searchStarted (form : RWSearchFormViewController Timeline) : RWSearchFormViewController Timeline :=
  { form with typed := form.typed ++ [form.searchText], search := form.search.withInner }

theorem text_sends_subscribes (form : RWSearchFormViewController Timeline)
    (valid : isValidSearchText form.searchText = true) (live : form.search.Live) :
    textSends form = signalForSearchWithText (searchStarted form) form.search.subscriptions form.searchText := by
  rw [textSends, if_pos valid]
  simp only [subscribe_inner_live form.search live, searchStarted]

theorem text_sends_live (form : RWSearchFormViewController Timeline) (valid : isValidSearchText form.searchText = true)
    (granted : form.granted = some true) (live : form.search.Live)
    (known : ∀ signal ∈ form.outstanding, signal ∈ form.search.inners) (unfailed : form.failures = 0) :
    Phase (textSends form) ∧ (textSends form).typed = form.typed ++ [form.searchText] ∧
      (textSends form).requests = form.requests ++ [⟨form.searchText, form.accounts.getLast?⟩] ∧
      (form.accounts ≠ [] → (textSends form).failures = 0) ∧
      ((textSends form).failures = 0 → (textSends form).mainQueue = form.mainQueue) := by
  have here : form.search.subscriptions ∈ form.search.withInner.inners :=
    List.mem_append_right _ List.mem_cons_self
  rw [text_sends_subscribes form valid live]
  cases account : form.accounts.getLast? with
  | none =>
      rw [search_without_account (searchStarted form) form.search.subscriptions form.searchText live here account]
      refine ⟨.ended granted rfl (Nat.succ_ne_zero _), rfl, rfl, ?_, ?_⟩
      · exact fun some => absurd (List.getLast?_eq_none_iff.mp account) some
      · exact fun zero => absurd zero (Nat.succ_ne_zero _)
  | some name =>
      rw [search_with_account (searchStarted form) form.search.subscriptions form.searchText name account]
      refine ⟨.searching granted live ?_ unfailed, rfl, rfl, fun _ => unfailed, fun _ => rfl⟩
      intro signal member
      cases List.mem_append.mp member with
      | inl earlier => exact List.mem_append_left _ (known signal earlier)
      | inr new => exact List.mem_singleton.mp new ▸ here

theorem text_sends_ended (form : RWSearchFormViewController Timeline)
    (valid : isValidSearchText form.searchText = true) (disposed : form.search.disposed = true) :
    textSends form = { form with typed := form.typed ++ [form.searchText] } := by
  rw [textSends, if_pos valid]
  simp only [subscribe_inner_disposed form.search disposed]

theorem text_sends_short (form : RWSearchFormViewController Timeline)
    (short : ¬ isValidSearchText form.searchText = true) : textSends form = form := if_neg short

theorem answer_searching (form : RWSearchFormViewController Timeline) (signal : Nat) (statusCode : Int)
    (timelineData : Timeline) (error : Option NSError) (granted : form.granted = some true) (live : form.search.Live)
    (known : ∀ other ∈ form.outstanding, other ∈ form.search.inners ∧ other ≠ signal) (unfailed : form.failures = 0)
    (own : signal ∈ form.search.inners) :
    Phase (requestAnswered form signal statusCode timelineData error) ∧
      (requestAnswered form signal statusCode timelineData error).requests = form.requests ∧
      (requestAnswered form signal statusCode timelineData error).typed = form.typed ∧
      ((requestAnswered form signal statusCode timelineData error).failures = 0 →
        (requestAnswered form signal statusCode timelineData error).mainQueue =
          form.mainQueue ++ [.next (signal, timelineData)]) := by
  by_cases success : statusCode = 200
  · rw [success, request_succeeds form signal timelineData error live own]
    refine ⟨.searching granted live ?_ unfailed, rfl, rfl, fun _ => rfl⟩
    intro other member
    obtain ⟨inner, different⟩ := known other member
    exact (List.mem_erase_of_ne different).mpr inner
  · rw [request_fails form signal statusCode timelineData error live own success]
    exact ⟨.ended granted rfl (Nat.succ_ne_zero _), rfl, rfl, fun zero => absurd zero (Nat.succ_ne_zero _)⟩

theorem answer_ended (form : RWSearchFormViewController Timeline) (signal : Nat) (statusCode : Int)
    (timelineData : Timeline) (error : Option NSError) (disposed : form.search.disposed = true) :
    ∃ failures, form.failures ≤ failures ∧
      requestAnswered form signal statusCode timelineData error = { form with failures := failures } := by
  by_cases success : statusCode = 200
  · refine ⟨form.failures, Nat.le_refl _, ?_⟩
    rw [requestAnswered, if_pos success, search_sends_disposed form signal _ disposed,
      search_sends_disposed form signal _ disposed]
  · refine ⟨form.failures + 1, Nat.le_succ _, ?_⟩
    rw [requestAnswered, if_neg success]
    exact search_sends_disposed _ signal _ disposed

end CultivationMotain.TwitterInstant
