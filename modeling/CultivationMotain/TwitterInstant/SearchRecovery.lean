import CultivationMotain.TwitterInstant.SearchForm

set_option autoImplicit false

namespace CultivationMotain.TwitterInstant

variable {Timeline : Type}

-- The valid text an event makes the text signal send, once there is access.
def sentText (form : RWSearchFormViewController Timeline) : SearchFormEvent Timeline → List String
  | .access granted => if granted && isValidSearchText form.searchText then [form.searchText] else []
  | .edit text => if form.granted = some true && isValidSearchText text then [text] else []
  | _ => []

def Searched (form : RWSearchFormViewController Timeline) : Prop := form.requests.map SLRequest.text = form.typed

def Unfailed (form : RWSearchFormViewController Timeline) (event : SearchFormEvent Timeline)
    (_ : RWSearchFormViewController Timeline) : Prop :=
  sentText form event ≠ [] → form.failures = 0

structure SearchFormStep (form : RWSearchFormViewController Timeline) (event : SearchFormEvent Timeline)
    (after : RWSearchFormViewController Timeline) : Prop where
  phase : Phase after
  typed : after.typed = form.typed ++ sentText form event
  asked : form.failures = 0 →
    after.requests.map SLRequest.text = form.requests.map SLRequest.text ++ sentText form event
  lost : form.failures ≠ 0 → after.requests = form.requests
  failed : form.failures ≠ 0 → after.failures ≠ 0

theorem unchanged_step (form after : RWSearchFormViewController Timeline) (event : SearchFormEvent Timeline)
    (phase : Phase after) (nothing : sentText form event = []) (requests : after.requests = form.requests)
    (typed : after.typed = form.typed) (failed : form.failures ≠ 0 → after.failures ≠ 0) :
    SearchFormStep form event after :=
  ⟨phase, by rw [nothing, typed, List.append_nil], fun _ => by rw [nothing, requests, List.append_nil],
    fun _ => requests, failed⟩

theorem text_sends_step (form sending : RWSearchFormViewController Timeline) (event : SearchFormEvent Timeline)
    (phase : Phase sending) (granted : sending.granted = some true)
    (text : sentText form event = if isValidSearchText sending.searchText then [sending.searchText] else [])
    (requests : sending.requests = form.requests) (typed : sending.typed = form.typed)
    (failures : sending.failures = form.failures) : SearchFormStep form event (textSends sending) := by
  by_cases valid : isValidSearchText sending.searchText = true
  · rw [if_pos valid] at text
    cases phase with
    | asking pending => cases pending.symm.trans granted
    | searching _ live known unfailed =>
        obtain ⟨phase, typedAfter, requested, _, _⟩ := text_sends_live sending valid granted live known unfailed
        refine ⟨phase, by rw [typedAfter, typed, text], fun _ => ?_, fun failed => absurd (failures ▸ unfailed) failed,
          fun failed => absurd (failures ▸ unfailed) failed⟩
        rw [requested, List.map_append, requests, text]
        rfl
    | ended _ disposed failed =>
        rw [text_sends_ended sending valid disposed]
        exact ⟨.ended granted disposed failed, by rw [← typed, text], fun zero => absurd (failures.trans zero) failed,
          fun _ => requests, fun _ => failed⟩
    | denied pending => cases pending.symm.trans granted
  · rw [text_sends_short sending valid]
    exact unchanged_step form sending event phase (by rw [text, if_neg valid]) requests typed (failures ▸ id)

theorem granted_phase (form : RWSearchFormViewController Timeline) (phase : Phase form)
    (pending : form.granted = none) : Phase { form with granted := some true } := by
  cases phase with
  | asking _ search unasked untyped unfailed =>
      refine .searching rfl ?_ ?_ unfailed
      · rw [search]
        exact Signals.subscribed_live
      · exact fun _ member => absurd (unasked ▸ member) List.not_mem_nil
  | searching granted => cases granted.symm.trans pending
  | ended granted => cases granted.symm.trans pending
  | denied granted => cases granted.symm.trans pending

theorem access_step (form : RWSearchFormViewController Timeline) (granted : Bool) (phase : Phase form)
    (pending : form.granted = none) : SearchFormStep form (.access granted) (accessRequested form granted) := by
  cases granted with
  | true =>
      exact text_sends_step form { form with granted := some true } _ (granted_phase form phase pending) rfl rfl rfl rfl
        rfl
  | false =>
      cases phase with
      | asking _ _ unasked untyped unfailed =>
          exact unchanged_step form _ _ (.denied rfl unasked untyped unfailed) rfl rfl rfl id
      | searching granted => cases granted.symm.trans pending
      | ended granted => cases granted.symm.trans pending
      | denied granted => cases granted.symm.trans pending

theorem same_phase (form after : RWSearchFormViewController Timeline) (phase : Phase form)
    (granted : after.granted = form.granted) (search : after.search = form.search)
    (outstanding : after.outstanding = form.outstanding) (typed : after.typed = form.typed)
    (failures : after.failures = form.failures) : Phase after := by
  cases phase with
  | asking pending subscribed unasked untyped unfailed =>
      exact .asking (granted.trans pending) (search.trans subscribed) (outstanding.trans unasked) (typed.trans untyped)
        (failures.trans unfailed)
  | searching access live known unfailed =>
      exact .searching (granted.trans access) (search ▸ live) (by rw [outstanding, search]; exact known)
        (failures.trans unfailed)
  | ended access disposed failed =>
      exact .ended (granted.trans access) (search ▸ disposed) (failures ▸ failed)
  | denied refused unasked untyped unfailed =>
      exact .denied (granted.trans refused) (outstanding.trans unasked) (typed.trans untyped) (failures.trans unfailed)

theorem edit_step (form after : RWSearchFormViewController Timeline) (text : String) (phase : Phase form)
    (taken : searchFormStep form (.edit text) = some after) : SearchFormStep form (.edit text) after := by
  have edited := same_phase form { form with searchText := text } phase rfl rfl rfl rfl rfl
  cases taken
  by_cases granted : form.granted = some true
  · rw [if_pos granted]
    refine text_sends_step form { form with searchText := text } _ edited granted ?_ rfl rfl rfl
    simp only [sentText, granted, decide_true, Bool.true_and]
  · rw [if_neg granted]
    refine unchanged_step form _ _ edited ?_ rfl rfl id
    simp only [sentText, granted, decide_false, Bool.false_and, Bool.false_eq_true, if_false]

theorem answer_step (form after : RWSearchFormViewController Timeline) (signal : Nat) (statusCode : Int)
    (timelineData : Timeline) (error : Option NSError) (phase : Phase form)
    (taken : searchFormStep form (.answer signal statusCode timelineData error) = some after) :
    SearchFormStep form (.answer signal statusCode timelineData error) after := by
  rw [searchFormStep] at taken
  split at taken
  · rename_i waiting
    have member := List.contains_iff_mem.mp waiting
    cases taken
    cases phase with
    | asking _ _ unasked => exact absurd (unasked ▸ member) List.not_mem_nil
    | searching granted live known unfailed =>
        obtain ⟨phase, requests, typed, _⟩ := answer_searching
          { form with outstanding := form.outstanding.filter fun other => other != signal } signal statusCode
          timelineData error granted live
          (fun other left => ⟨known other (List.mem_filter.mp left).1, bne_iff_ne.mp (List.mem_filter.mp left).2⟩)
          unfailed (known signal member)
        exact unchanged_step form _ _ phase rfl requests typed fun failed => absurd unfailed failed
    | ended granted disposed failed =>
        obtain ⟨failures, more, answered⟩ := answer_ended
          { form with outstanding := form.outstanding.filter fun other => other != signal } signal statusCode
          timelineData error disposed
        have still : failures ≠ 0 := Nat.ne_of_gt (Nat.lt_of_lt_of_le (Nat.pos_of_ne_zero failed) more)
        rw [answered]
        exact unchanged_step form _ _ (.ended granted disposed still) rfl rfl rfl fun _ => still
    | denied _ unasked => exact absurd (unasked ▸ member) List.not_mem_nil
  · cases taken

theorem search_form_step (form after : RWSearchFormViewController Timeline) (event : SearchFormEvent Timeline)
    (phase : Phase form) (taken : searchFormStep form event = some after) : SearchFormStep form event after := by
  cases event with
  | access granted =>
      rw [searchFormStep] at taken
      split at taken
      · rename_i pending
        cases taken
        exact access_step form granted phase (Option.isNone_iff_eq_none.mp pending)
      · cases taken
  | edit text => exact edit_step form after text phase taken
  | setAccounts accounts =>
      cases taken
      exact unchanged_step form _ _ (same_phase form _ phase rfl rfl rfl rfl rfl) rfl rfl rfl id
  | answer signal statusCode timelineData error =>
      exact answer_step form after signal statusCode timelineData error phase taken
  | deliver =>
      rw [searchFormStep] at taken
      split at taken
      · cases taken
      · cases taken
        exact unchanged_step form _ _ (same_phase form _ phase rfl rfl rfl rfl rfl) rfl rfl rfl id

theorem view_did_load_phase (searchText : String) (accounts : List String) :
    Phase (viewDidLoad searchText accounts : RWSearchFormViewController Timeline) := .asking rfl rfl rfl rfl rfl

theorem searched_step (form after : RWSearchFormViewController Timeline) (event : SearchFormEvent Timeline)
    (phase : Phase form) (searched : Searched form) (taken : searchFormStep form event = some after) :
    Searched after ↔ Unfailed form event after := by
  obtain ⟨_, typed, asked, lost, _⟩ := search_form_step form after event phase taken
  by_cases unfailed : form.failures = 0
  · have same : Searched after := by
      rw [Searched, asked unfailed, typed, searched]
    exact ⟨fun _ _ => unfailed, fun _ => same⟩
  · rw [Searched, lost unfailed, typed, searched]
    constructor
    · intro same sent
      exact absurd (List.append_right_eq_self.mp same.symm) sent
    · intro allowed
      have silent : sentText form event = [] := by
        by_contra sent
        exact unfailed (allowed sent)
      rw [silent, List.append_nil]

-- In every run each valid text sent down the pipeline makes its request, exactly
-- when none is sent after a request has failed.
theorem search_recovery_iff (searchText : String) (accounts : List String) (events : List (SearchFormEvent Timeline)) :
    Runs.Steps searchFormStep (fun _ _ after => Searched after) (viewDidLoad searchText accounts) events ↔
      Runs.Steps searchFormStep Unfailed (viewDidLoad searchText accounts) events := by
  refine Runs.steps_iff searchFormStep (fun form => Phase form ∧ Searched form) _ _ ?_ ?_ _ events
    ⟨view_did_load_phase searchText accounts, rfl⟩
  · exact fun form event after start taken => searched_step form after event start.1 start.2 taken
  · intro form event after start taken searched
    exact ⟨(search_form_step form after event start.1 taken).phase, searched⟩

-- One answer that is not a success, and the next text makes no request.
def failedSearch : List (SearchFormEvent Nat) :=
  [.access true, .edit "kit", .answer 0 500 0 none]

theorem search_ends_after_failure :
    ¬ Runs.Steps searchFormStep (fun _ _ after => Searched after) (viewDidLoad "" ["user"])
        (failedSearch ++ [.edit "kitten"]) := by
  intro all
  have last := Runs.steps_after searchFormStep _ _ _ failedSearch [.edit "kitten"] rfl all
  have searched := (last _ rfl).1
  cases searched

end CultivationMotain.TwitterInstant
