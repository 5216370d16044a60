import CultivationMotain.Library.Runs
import CultivationMotain.Library.Signals

set_option autoImplicit false

namespace CultivationMotain.RWTFlickrSearch

open Signals

abbrev Dictionary := List (String × String)

structure Photos where
  total : Option String
  photo : Option (List Dictionary)
deriving DecidableEq, Repr

structure Response where
  photos : Option Photos
deriving DecidableEq, Repr

structure RWTFlickrPhoto where
  title : Option String
  url : Option String
  identifier : Option String
deriving DecidableEq, Repr

structure RWTFlickrSearchResults where
  searchString : String
  photos : Option (List RWTFlickrPhoto)
  totalResults : UInt64
deriving DecidableEq, Repr

def decimal : List Char → Nat → Nat
  | [], value => value
  | c :: rest, value => if c.isDigit then decimal rest (10 * value + (c.toNat - 48)) else value

-- NSString's integerValue: white space, a sign, digits up to the first other
-- character, and the nearest value that fits.
def integerValue (text : String) : Int64 :=
  let number : Int :=
    match text.toList.dropWhile Char.isWhitespace with
    | '-' :: rest => -(decimal rest 0 : Int)
    | '+' :: rest => decimal rest 0
    | rest => decimal rest 0
  if number < Int64.minValue.toInt then Int64.minValue
  else if Int64.maxValue.toInt < number then Int64.maxValue
  else Int64.ofInt number

structure Call where
  request : Nat
  method : String
  arguments : Dictionary
deriving DecidableEq, Repr

structure Subscription where
  block : Response → RWTFlickrSearchResults
  subscriber : Subscriber RWTFlickrSearchResults Empty

-- A subscription and its request have one number. calls are the requests to be
-- answered; answers is a ghost, the answers of the others.
structure RWTFlickrSearchImpl where
  requests : List Nat
  calls : List Call
  subscriptions : List Subscription
  answers : List (Nat × Response)

def RWTFlickrSearchImpl.init : RWTFlickrSearchImpl := ⟨[], [], [], []⟩

inductive SearchEvent where
  | subscribe (searchString : String)
  | didComplete (request : Nat) (response : Response)
deriving DecidableEq, Repr

section Search

-- The Flickr context's address of a photo's small picture.
variable (photoSourceURL : Dictionary → Option String)

-- The transform of flickrSearchSignal. A message to nil gives nil or zero.
def searchResults (searchString : String) (response : Response) : RWTFlickrSearchResults where
  searchString := searchString
  photos := (response.photos.bind Photos.photo).map fun photos => photos.map fun json =>
    { title := json.lookup "title", url := photoSourceURL json, identifier := json.lookup "id" }
  totalResults := (((response.photos.bind Photos.total).map integerValue).getD 0).toUInt64

def signalFromAPIMethod (impl : RWTFlickrSearchImpl) (method : String) (arguments : Dictionary)
    (block : Response → RWTFlickrSearchResults) : RWTFlickrSearchImpl :=
  let request := impl.subscriptions.length
  { impl with
    requests := impl.requests ++ [request]
    calls := impl.calls ++ [⟨request, method, arguments⟩]
    subscriptions := impl.subscriptions ++ [⟨block, Subscriber.subscribed⟩] }

def flickrSearchSignal (impl : RWTFlickrSearchImpl) (searchString : String) : RWTFlickrSearchImpl :=
  signalFromAPIMethod impl "flickr.photos.search" [("text", searchString), ("sort", "interestingness-desc")]
    (searchResults photoSourceURL searchString)

def receive (response : Response) (subscription : Subscription) : Subscription :=
  { subscription with
    subscriber := (subscription.subscriber.send (.next (subscription.block response))).send .completed }

-- The delegate's method is one signal for all of them; a subscription disposed
-- of removes its request.
def didComplete (impl : RWTFlickrSearchImpl) (request : Nat) (response : Response) : RWTFlickrSearchImpl :=
  let subscriptions := impl.subscriptions.map (receive response)
  { requests := impl.requests.filter fun other => subscriptions[other]?.any fun left => left.subscriber.active
    calls := impl.calls.filter fun call => call.request != request
    subscriptions := subscriptions
    answers := (request, response) :: impl.answers }

def searchStep (impl : RWTFlickrSearchImpl) : SearchEvent → Option RWTFlickrSearchImpl
  | .subscribe searchString => some (flickrSearchSignal photoSourceURL impl searchString)
  | .didComplete request response =>
      if (impl.calls.map Call.request).contains request then some (didComplete impl request response) else none

end Search

-- What a subscription has been sent when only its own answer counts.
def ownAnswer (block : Response → RWTFlickrSearchResults) :
    Option Response → Subscriber RWTFlickrSearchResults Empty
  | none => Subscriber.subscribed
  | some response => ⟨false, [.next (block response), .completed]⟩

def Isolated (impl : RWTFlickrSearchImpl) : Prop :=
  ∀ (request : Nat) (subscription : Subscription), impl.subscriptions[request]? = some subscription →
    subscription.subscriber = ownAnswer subscription.block (impl.answers.lookup request)

-- An answer comes while no other request is out.
def OneCall (impl : RWTFlickrSearchImpl) (event : SearchEvent) (_ : RWTFlickrSearchImpl) : Prop :=
  ∀ request response, event = .didComplete request response → ∀ call ∈ impl.calls, call.request = request

structure Asked (impl : RWTFlickrSearchImpl) : Prop where
  made : ∀ call ∈ impl.calls, call.request < impl.subscriptions.length
  answered : ∀ request, impl.answers.lookup request ≠ none → request < impl.subscriptions.length
  out : ∀ request, request < impl.subscriptions.length →
    (request ∈ impl.calls.map Call.request ↔ impl.answers.lookup request = none)

theorem init_asked : Asked RWTFlickrSearchImpl.init :=
  ⟨fun _ member => (List.not_mem_nil member).elim, fun _ answered => (answered rfl).elim,
    fun _ below => (Nat.not_lt_zero _ below).elim⟩

-- A subscription that has had its answer hears no other; one that is waiting
-- takes any answer for its own.
theorem receive_answered (block : Response → RWTFlickrSearchResults) (own other : Response) :
    receive other ⟨block, ownAnswer block (some own)⟩ = ⟨block, ownAnswer block (some own)⟩ := by
  simp only [receive, ownAnswer, send_inactive]

theorem receive_waiting (block : Response → RWTFlickrSearchResults) (response : Response) :
    receive response ⟨block, ownAnswer block none⟩ = ⟨block, ownAnswer block (some response)⟩ := by
  simp only [receive, ownAnswer, Subscriber.subscribed, send_active, Event.ends, Bool.not_false, List.nil_append,
    List.cons_append, Bool.not_true]

section Steps

variable (photoSourceURL : Dictionary → Option String)

theorem flickr_search_asked (impl : RWTFlickrSearchImpl) (searchString : String) (asked : Asked impl) :
    Asked (flickrSearchSignal photoSourceURL impl searchString) := by
  have unanswered : impl.answers.lookup impl.subscriptions.length = none := by
    by_contra answered
    exact Nat.lt_irrefl _ (asked.answered _ answered)
  have longer : (flickrSearchSignal photoSourceURL impl searchString).subscriptions.length =
      impl.subscriptions.length + 1 := List.length_append
  refine ⟨?_, ?_, ?_⟩
  · intro call member
    rw [longer]
    cases List.mem_append.mp member with
    | inl earlier => exact Nat.lt_succ_of_lt (asked.made call earlier)
    | inr new =>
        rw [List.mem_singleton.mp new]
        exact Nat.lt_succ_self _
  · intro request answered
    rw [longer]
    exact Nat.lt_succ_of_lt (asked.answered request answered)
  · intro request below
    rw [longer] at below
    have calls : (flickrSearchSignal photoSourceURL impl searchString).calls.map Call.request =
        impl.calls.map Call.request ++ [impl.subscriptions.length] := List.map_append
    rw [calls, List.mem_append, List.mem_singleton]
    by_cases new : request = impl.subscriptions.length
    · rw [new]
      exact ⟨fun _ => unanswered, fun _ => .inr rfl⟩
    · have old := asked.out request (by omega)
      exact ⟨fun called => old.mp (called.resolve_right new), fun waiting => .inl (old.mpr waiting)⟩

theorem flickr_search_isolated (impl : RWTFlickrSearchImpl) (searchString : String) (asked : Asked impl)
    (isolated : Isolated impl) : Isolated (flickrSearchSignal photoSourceURL impl searchString) := by
  intro request subscription found
  by_cases old : request < impl.subscriptions.length
  · refine isolated request subscription ?_
    rw [← found]
    exact (List.getElem?_append_left old).symm
  · have unanswered : impl.answers.lookup request = none := by
      by_contra answered
      exact old (asked.answered request answered)
    have last : [(⟨searchResults photoSourceURL searchString, Subscriber.subscribed⟩ : Subscription)][
        request - impl.subscriptions.length]? = some subscription := by
      rw [← found]
      exact (List.getElem?_append_right (Nat.not_lt.mp old)).symm
    rw [List.mem_singleton.mp (List.mem_of_getElem? last)]
    exact (congrArg (ownAnswer _) unanswered).symm

end Steps

theorem answer_lookup_other (answers : List (Nat × Response)) (request other : Nat) (response : Response)
    (different : other ≠ request) : ((request, response) :: answers).lookup other = answers.lookup other := by
  rw [List.lookup_cons, beq_eq_false_iff_ne.mpr different]

theorem answer_lookup_own (answers : List (Nat × Response)) (request : Nat) (response : Response) :
    ((request, response) :: answers).lookup request = some response := by
  simp

theorem did_complete_asked (impl : RWTFlickrSearchImpl) (request : Nat) (response : Response) (asked : Asked impl)
    (called : request ∈ impl.calls.map Call.request) : Asked (didComplete impl request response) := by
  have same : (didComplete impl request response).subscriptions.length = impl.subscriptions.length := List.length_map _
  have below : request < impl.subscriptions.length := by
    obtain ⟨call, member, number⟩ := List.mem_map.mp called
    exact number ▸ asked.made call member
  refine ⟨?_, ?_, ?_⟩
  · intro call member
    rw [same]
    exact asked.made call (List.mem_filter.mp member).1
  · intro other answered
    rw [same]
    by_cases own : other = request
    · exact own ▸ below
    · refine asked.answered other fun unanswered => answered ?_
      exact (answer_lookup_other _ _ _ _ own).trans unanswered
  · intro other inside
    rw [same] at inside
    have left : other ∈ (didComplete impl request response).calls.map Call.request ↔
        other ∈ impl.calls.map Call.request ∧ other ≠ request := by
      simp only [didComplete, List.mem_map, List.mem_filter, bne_iff_ne]
      constructor
      · intro ⟨call, ⟨member, different⟩, number⟩
        exact ⟨⟨call, member, number⟩, number ▸ different⟩
      · intro ⟨⟨call, member, number⟩, different⟩
        exact ⟨call, ⟨member, number ▸ different⟩, number⟩
    rw [left]
    by_cases own : other = request
    · rw [own]
      exact ⟨fun absent => absurd rfl absent.2,
        fun absent => by cases (answer_lookup_own impl.answers request response).symm.trans absent⟩
    · have before := asked.out other inside
      have kept := answer_lookup_other impl.answers request other response own
      exact ⟨fun present => kept.trans (before.mp present.1), fun absent => ⟨before.mpr (kept.symm.trans absent), own⟩⟩

theorem receive_isolated (impl : RWTFlickrSearchImpl) (request : Nat) (response : Response)
    (subscription : Subscription) (isolated : Isolated impl)
    (found : impl.subscriptions[request]? = some subscription) :
    (receive response subscription).block = subscription.block ∧
      (receive response subscription).subscriber =
        ownAnswer subscription.block (some ((impl.answers.lookup request).getD response)) := by
  have before := isolated request subscription found
  obtain ⟨block, subscriber⟩ := subscription
  simp only at before
  rw [before]
  cases impl.answers.lookup request with
  | none => rw [receive_waiting]; exact ⟨rfl, rfl⟩
  | some own => rw [receive_answered]; exact ⟨rfl, rfl⟩

theorem did_complete_isolated (impl : RWTFlickrSearchImpl) (request : Nat) (response : Response) (asked : Asked impl)
    (isolated : Isolated impl) (called : request ∈ impl.calls.map Call.request) :
    Isolated (didComplete impl request response) ↔ ∀ call ∈ impl.calls, call.request = request := by
  constructor
  · intro still call member
    by_contra other
    have below := asked.made call member
    have unanswered := (asked.out call.request below).mp (List.mem_map_of_mem member)
    have found := List.getElem?_eq_getElem below
    obtain ⟨block, subscriber⟩ := receive_isolated impl call.request response _ isolated found
    have after := still call.request (receive response impl.subscriptions[call.request])
      (by rw [didComplete, List.getElem?_map, found]; rfl)
    rw [subscriber, block, didComplete, answer_lookup_other _ _ _ _ other, unanswered] at after
    cases after
  · intro alone other subscription found
    rw [didComplete, List.getElem?_map] at found
    obtain ⟨old, place, received⟩ := Option.map_eq_some_iff.mp found
    obtain ⟨block, subscriber⟩ := receive_isolated impl other response old isolated place
    obtain ⟨inside, _⟩ := List.getElem?_eq_some_iff.mp place
    have answered := asked.out other inside
    rw [← received, subscriber, block, didComplete]
    by_cases own : other = request
    · rw [own] at answered ⊢
      rw [answer_lookup_own, answered.mp called]
      rfl
    · rw [answer_lookup_other _ _ _ _ own]
      cases earlier : impl.answers.lookup other with
      | none =>
          obtain ⟨call, member, number⟩ := List.mem_map.mp (answered.mpr earlier)
          exact absurd (number.symm.trans (alone call member)) own
      | some answer => rfl

section Steps

variable (photoSourceURL : Dictionary → Option String)

-- Only a request that is out is answered.
theorem search_step_complete (impl after : RWTFlickrSearchImpl) (request : Nat) (response : Response)
    (taken : searchStep photoSourceURL impl (.didComplete request response) = some after) :
    request ∈ impl.calls.map Call.request ∧ after = didComplete impl request response := by
  obtain ⟨called, same⟩ := Option.ite_none_right_eq_some.mp taken
  exact ⟨List.contains_iff_mem.mp called, (Option.some.inj same).symm⟩

theorem step_isolated_iff (impl : RWTFlickrSearchImpl) (event : SearchEvent) (after : RWTFlickrSearchImpl)
    (start : Asked impl ∧ Isolated impl) (taken : searchStep photoSourceURL impl event = some after) :
    Isolated after ↔ OneCall impl event after := by
  cases event with
  | subscribe searchString =>
      cases taken
      constructor
      · intro _ request response other
        cases other
      · exact fun _ => flickr_search_isolated photoSourceURL impl searchString start.1 start.2
  | didComplete request response =>
      obtain ⟨called, rfl⟩ := search_step_complete photoSourceURL impl after request response taken
      rw [did_complete_isolated impl request response start.1 start.2 called]
      constructor
      · intro alone other answer same
        cases same
        exact alone
      · exact fun alone => alone request response rfl

theorem step_asked (impl : RWTFlickrSearchImpl) (event : SearchEvent) (after : RWTFlickrSearchImpl)
    (asked : Asked impl) (taken : searchStep photoSourceURL impl event = some after) : Asked after := by
  cases event with
  | subscribe searchString =>
      cases taken
      exact flickr_search_asked photoSourceURL impl searchString asked
  | didComplete request response =>
      obtain ⟨called, rfl⟩ := search_step_complete photoSourceURL impl after request response taken
      exact did_complete_asked impl request response asked called

end Steps

-- In every run each subscription is sent its own answer and nothing else,
-- exactly when no answer comes while a second request is out.
theorem flickr_isolation_iff (photoSourceURL : Dictionary → Option String) (events : List SearchEvent) :
    Runs.Steps (searchStep photoSourceURL) (fun _ _ after => Isolated after) RWTFlickrSearchImpl.init events ↔
      Runs.Steps (searchStep photoSourceURL) OneCall RWTFlickrSearchImpl.init events := by
  have start : Asked RWTFlickrSearchImpl.init ∧ Isolated RWTFlickrSearchImpl.init :=
    ⟨init_asked, fun _ _ found => by cases found⟩
  refine Runs.steps_iff (searchStep photoSourceURL) (fun impl => Asked impl ∧ Isolated impl) _ _
    (step_isolated_iff photoSourceURL) ?_ _ events start
  intro impl event after before taken isolated
  exact ⟨step_asked photoSourceURL impl event after before.1 taken, isolated⟩

-- Two searches: the first answer to come reaches both subscriptions, and the
-- second reaches none.
def sampleResponse : Response := ⟨some ⟨some "1", some [[("id", "7"), ("title", "Kitten")]]⟩⟩

theorem flickr_answers_crossed :
    ¬ Runs.Steps (searchStep fun _ => none) (fun _ _ after => Isolated after) RWTFlickrSearchImpl.init
        [.subscribe "kitten", .subscribe "castle", .didComplete 0 sampleResponse] := by
  intro all
  have last := Runs.steps_after (searchStep fun _ => none) _ _ _ [.subscribe "kitten", .subscribe "castle"]
    [.didComplete 0 sampleResponse] rfl all
  have isolated := (last _ rfl).1 1 _ rfl
  cases isolated

end CultivationMotain.RWTFlickrSearch
