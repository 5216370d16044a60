import CultivationMotain.TwitterInstant.SearchRecovery

set_option autoImplicit false

namespace CultivationMotain.TwitterInstant

open Signals

variable {Timeline : Type}

def answered : SearchFormEvent Timeline → List (Nat × Timeline)
  | .access _ => []
  | .edit _ => []
  | .setAccounts _ => []
  | .answer signal _ timelineData _ => [(signal, timelineData)]
  | .deliver => []

-- What the subscriber has had and what is scheduled for it are the answers, in
-- the order they came.
structure Flows (form : RWSearchFormViewController Timeline) (values : List (Nat × Timeline)) : Prop where
  active : form.subscriber.active = true
  stream : form.subscriber.received ++ form.mainQueue = values.map Event.next

theorem signal_for_search_keeps (form : RWSearchFormViewController Timeline) (signal : Nat) (text : String) :
    (signalForSearchWithText form signal text).subscriber = form.subscriber ∧
      (signalForSearchWithText form signal text).granted = form.granted := by
  rw [signalForSearchWithText]
  cases form.accounts.getLast? with
  | none => exact ⟨rfl, rfl⟩
  | some name => exact ⟨rfl, rfl⟩

theorem text_sends_keeps (form : RWSearchFormViewController Timeline) :
    (textSends form).subscriber = form.subscriber ∧ (textSends form).granted = form.granted := by
  by_cases valid : isValidSearchText form.searchText = true
  · rw [textSends, if_pos valid]
    cases started : form.search.subscribeInner with
    | none =>
        exact ⟨by simp only [started], by simp only [started]⟩
    | some inner =>
        simp only [started]
        exact signal_for_search_keeps _ inner.1 form.searchText
  · rw [text_sends_short form valid]
    exact ⟨rfl, rfl⟩

theorem request_answered_keeps (form : RWSearchFormViewController Timeline) (signal : Nat) (statusCode : Int)
    (timelineData : Timeline) (error : Option NSError) :
    (requestAnswered form signal statusCode timelineData error).subscriber = form.subscriber ∧
      (requestAnswered form signal statusCode timelineData error).granted = form.granted := by
  rw [requestAnswered]
  split
  · exact ⟨rfl, rfl⟩
  · exact ⟨rfl, rfl⟩

theorem text_sends_flows (form : RWSearchFormViewController Timeline) (values : List (Nat × Timeline))
    (phase : Phase form) (granted : form.granted = some true) (unfailed : (textSends form).failures = 0) :
    form.failures = 0 ∧ (Flows form values → Flows (textSends form) values) := by
  have kept := (text_sends_keeps form).1
  by_cases valid : isValidSearchText form.searchText = true
  · cases phase with
    | asking pending => cases pending.symm.trans granted
    | searching _ live known zero =>
        obtain ⟨_, _, _, _, queue⟩ := text_sends_live form valid granted live known zero
        refine ⟨zero, fun flows => ⟨by rw [kept]; exact flows.active, ?_⟩⟩
        rw [kept, queue unfailed]
        exact flows.stream
    | ended _ disposed failed =>
        rw [text_sends_ended form valid disposed] at unfailed
        exact absurd unfailed failed
    | denied refused => cases refused.symm.trans granted
  · rw [text_sends_short form valid] at unfailed ⊢
    exact ⟨unfailed, id⟩

theorem answer_flows (form after : RWSearchFormViewController Timeline) (values : List (Nat × Timeline)) (signal : Nat)
    (statusCode : Int) (timelineData : Timeline) (error : Option NSError) (phase : Phase form)
    (taken : searchFormStep form (.answer signal statusCode timelineData error) = some after)
    (unfailed : after.failures = 0) :
    form.failures = 0 ∧ after.granted = form.granted ∧
      (Flows form values → Flows after (values ++ [(signal, timelineData)])) := by
  rw [searchFormStep] at taken
  split at taken
  · rename_i waiting
    have member := List.contains_iff_mem.mp waiting
    cases taken
    obtain ⟨subscriber, granted⟩ := request_answered_keeps
      { form with outstanding := form.outstanding.filter fun other => other != signal } signal statusCode timelineData
      error
    cases phase with
    | asking _ _ unasked => exact absurd (unasked ▸ member) List.not_mem_nil
    | searching access live known zero =>
        obtain ⟨_, _, _, queue⟩ := answer_searching
          { form with outstanding := form.outstanding.filter fun other => other != signal } signal statusCode
          timelineData error access live
          (fun other left => ⟨known other (List.mem_filter.mp left).1, bne_iff_ne.mp (List.mem_filter.mp left).2⟩)
          zero (known signal member)
        refine ⟨zero, granted, fun flows => ⟨by rw [subscriber]; exact flows.active, ?_⟩⟩
        rw [subscriber, queue unfailed, ← List.append_assoc, flows.stream, List.map_append]
        rfl
    | ended _ disposed failed =>
        obtain ⟨failures, more, same⟩ := answer_ended
          { form with outstanding := form.outstanding.filter fun other => other != signal } signal statusCode
          timelineData error disposed
        rw [same] at unfailed
        exact absurd (Nat.le_zero.mp (unfailed ▸ more)) failed
    | denied _ unasked => exact absurd (unasked ▸ member) List.not_mem_nil
  · cases taken

theorem deliver_flows (form after : RWSearchFormViewController Timeline) (values : List (Nat × Timeline))
    (taken : searchFormStep form .deliver = some after) (flows : Flows form values) : Flows after values := by
  rw [searchFormStep] at taken
  split at taken
  · cases taken
  · rename_i event rest queue
    cases taken
    have stream := flows.stream
    rw [queue] at stream
    have member : event ∈ values.map Event.next := by
      rw [← stream]
      exact List.mem_append_right _ List.mem_cons_self
    obtain ⟨value, _, same⟩ := List.mem_map.mp member
    refine ⟨?_, ?_⟩
    · rw [send_active form.subscriber event flows.active, ← same]
      rfl
    · rw [send_active form.subscriber event flows.active, List.append_assoc]
      exact stream

theorem deliver_keeps (form after : RWSearchFormViewController Timeline)
    (taken : searchFormStep form .deliver = some after) :
    after.failures = form.failures ∧ after.granted = form.granted := by
  rw [searchFormStep] at taken
  split at taken
  · cases taken
  · cases taken
    exact ⟨rfl, rfl⟩

theorem search_form_flows (form after : RWSearchFormViewController Timeline) (event : SearchFormEvent Timeline)
    (values : List (Nat × Timeline)) (phase : Phase form) (taken : searchFormStep form event = some after)
    (unfailed : after.failures = 0) (access : after.granted ≠ some false) :
    form.failures = 0 ∧ form.granted ≠ some false ∧ (Flows form values → Flows after (values ++ answered event)) := by
  cases event with
  | access granted =>
      rw [searchFormStep] at taken
      split at taken
      · rename_i pending
        cases taken
        have unasked := Option.isNone_iff_eq_none.mp pending
        cases granted with
        | true =>
            obtain ⟨zero, flow⟩ := text_sends_flows { form with granted := some true } values
              (granted_phase form phase unasked) rfl unfailed
            refine ⟨zero, by rw [unasked]; decide, fun flows => ?_⟩
            rw [answered, List.append_nil]
            exact flow ⟨flows.active, flows.stream⟩
        | false => exact absurd rfl access
      · cases taken
  | edit text =>
      cases taken
      rw [answered, List.append_nil]
      by_cases granted : form.granted = some true
      · rw [if_pos granted] at unfailed ⊢
        obtain ⟨zero, flow⟩ := text_sends_flows { form with searchText := text } values
          (same_phase form _ phase rfl rfl rfl rfl rfl) granted unfailed
        refine ⟨zero, by rw [granted]; decide, ?_⟩
        exact fun flows => flow ⟨flows.active, flows.stream⟩
      · rw [if_neg granted] at unfailed access ⊢
        exact ⟨unfailed, access, fun flows => ⟨flows.active, flows.stream⟩⟩
  | setAccounts accounts =>
      cases taken
      rw [answered, List.append_nil]
      exact ⟨unfailed, access, fun flows => ⟨flows.active, flows.stream⟩⟩
  | answer signal statusCode timelineData error =>
      obtain ⟨zero, granted, flow⟩ := answer_flows form after values signal statusCode timelineData error phase taken
        unfailed
      exact ⟨zero, granted ▸ access, flow⟩
  | deliver =>
      obtain ⟨failures, granted⟩ := deliver_keeps form after taken
      rw [answered, List.append_nil]
      exact ⟨failures ▸ unfailed, granted ▸ access, deliver_flows form after values taken⟩

theorem answers_delivered (searchText : String) (accounts : List String) (events : List (SearchFormEvent Timeline))
    (form : RWSearchFormViewController Timeline)
    (ran : Runs.run searchFormStep (viewDidLoad searchText accounts) events = some form) (succeeded : form.failures = 0)
    (sent : form.typed ≠ []) (delivered : form.mainQueue = []) :
    form.requests.map SLRequest.text = form.typed ∧
      form.subscriber.received = (events.flatMap answered).map Event.next := by
  have history := Runs.run_history searchFormStep
    (fun past form => Phase form ∧ (form.failures = 0 → form.requests.map SLRequest.text = form.typed ∧
      (form.granted ≠ some false → Flows form (past.flatMap answered)))) ?_ [] _ form events ran
    ⟨view_did_load_phase searchText accounts, fun _ => ⟨rfl, fun _ => ⟨rfl, rfl⟩⟩⟩
  · obtain ⟨phase, kept⟩ := history
    obtain ⟨same, flow⟩ := kept succeeded
    have access : form.granted ≠ some false := by
      cases phase with
      | asking granted => rw [granted]; decide
      | searching granted => rw [granted]; decide
      | ended _ _ failed => exact absurd succeeded failed
      | denied _ _ untyped => exact absurd untyped sent
    have stream := (flow access).stream
    rw [delivered, List.append_nil] at stream
    exact ⟨same, stream⟩
  · intro past state event next start taken
    obtain ⟨phase, kept⟩ := start
    obtain ⟨after, typed, asked, _, failed⟩ := search_form_step state next event phase taken
    refine ⟨after, fun zero => ?_⟩
    have before : state.failures = 0 := by
      by_contra earlier
      exact failed earlier zero
    obtain ⟨same, flow⟩ := kept before
    refine ⟨by rw [asked before, typed, same], fun access => ?_⟩
    obtain ⟨_, pending, flows⟩ := search_form_flows state next event (past.flatMap answered) phase taken zero access
    rw [List.flatMap_append, List.flatMap_cons, List.flatMap_nil, List.append_nil]
    exact flows (flow pending)

-- Of the requests the valid texts made, the latest is the one whose result is
-- delivered last exactly when it is the one answered last.
theorem latest_query_iff (searchText : String) (accounts : List String) (events : List (SearchFormEvent Timeline))
    (form : RWSearchFormViewController Timeline)
    (ran : Runs.run searchFormStep (viewDidLoad searchText accounts) events = some form) (succeeded : form.failures = 0)
    (delivered : form.mainQueue = []) (latest : Nat) (last : form.typed.length = latest + 1) :
    form.requests[latest]?.map SLRequest.text = form.typed.getLast? ∧
      ((∃ timelineData, form.subscriber.received.getLast? = some (.next (latest, timelineData))) ↔
        (events.flatMap answered).getLast?.map Prod.fst = some latest) := by
  have sent : form.typed ≠ [] := fun none => by rw [none] at last; cases last
  obtain ⟨same, received⟩ := answers_delivered searchText accounts events form ran succeeded sent delivered
  constructor
  · rw [← List.getElem?_map, same, List.getLast?_eq_getElem?, last]
    rfl
  · rw [received, List.getLast?_map, Option.map_eq_some_iff]
    constructor
    · intro ⟨timelineData, shown⟩
      obtain ⟨value, answer, equal⟩ := Option.map_eq_some_iff.mp shown
      cases equal
      exact ⟨_, answer, rfl⟩
    · intro ⟨value, answer, number⟩
      exact ⟨value.2, by rw [answer, ← number]; rfl⟩

def answeredInOrder : List (SearchFormEvent Nat) :=
  [.access true, .edit "kit", .edit "kitten", .answer 0 200 10 none, .answer 1 200 11 none, .deliver, .deliver]

def searched (received : List (Event (Nat × Nat) (Option NSError))) : RWSearchFormViewController Nat :=
  { searchText := "kitten"
    granted := some true
    accounts := ["user"]
    search := ⟨true, [], 2, false⟩
    requests := [⟨"kit", some "user"⟩, ⟨"kitten", some "user"⟩]
    outstanding := []
    mainQueue := []
    subscriber := ⟨true, received⟩
    typed := ["kit", "kitten"]
    failures := 0 }

theorem latest_query_in_order :
    (searched [.next (0, 10), .next (1, 11)]).requests[1]?.map SLRequest.text = some "kitten" ∧
      ((∃ timelineData, (searched [.next (0, 10), .next (1, 11)]).subscriber.received.getLast? =
          some (.next (1, timelineData))) ↔
        (answeredInOrder.flatMap answered).getLast?.map Prod.fst = some 1) :=
  latest_query_iff "" ["user"] answeredInOrder (searched [.next (0, 10), .next (1, 11)]) rfl rfl rfl 1 rfl

-- The request of the earlier text is answered last, and its result is what the
-- subscriber is left with.
def answeredOutOfOrder : List (SearchFormEvent Nat) :=
  [.access true, .edit "kit", .edit "kitten", .answer 1 200 11 none, .answer 0 200 10 none, .deliver, .deliver]

theorem earlier_query_wins :
    Runs.run searchFormStep (viewDidLoad "" ["user"]) answeredOutOfOrder =
        some (searched [.next (1, 11), .next (0, 10)]) ∧
      (searched [.next (1, 11), .next (0, 10)]).typed.getLast? = some "kitten" ∧
      (searched [.next (1, 11), .next (0, 10)]).outstanding = [] ∧
      ¬ ∃ timelineData, (searched [.next (1, 11), .next (0, 10)]).subscriber.received.getLast? =
        some (.next (1, timelineData)) := by
  refine ⟨rfl, rfl, rfl, ?_⟩
  intro ⟨timelineData, last⟩
  cases last

end CultivationMotain.TwitterInstant
