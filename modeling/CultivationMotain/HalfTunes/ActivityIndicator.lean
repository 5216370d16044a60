import CultivationMotain.HalfTunes.LatestSearch

set_option autoImplicit false

namespace CultivationMotain.HalfTunes.Search

open Foundation ObjectHeap Runs

variable (system : System)

-- A search is issued with its data task and finished when the task's completion
-- handler has run, also that of a cancelled task.
def Unfinished (s : State) : Prop :=
  (∃ task url state, read s.tasks task = some ⟨url, state⟩ ∧ state ≠ .responded) ∨ s.completions ≠ []

def IndicatorRight (s : State) : Prop :=
  s.blocks = [] → (s.networkActivityIndicatorVisible = true ↔ Unfinished s)

-- With no block pending, a text that gives no URL is searched for while another
-- search is unfinished only, and the last unfinished search gets an answer that
-- dispatches a block. The last block runs when no search is unfinished.
def Balanced (before : State) : Event → Prop
  | .tap (some text) => text ≠ "" → system.searchURL text = none → before.blocks = [] → Unfinished before
  | .complete => ∀ task reply rest, before.completions = (task, reply) :: rest → reply.shows = false →
      before.blocks = [] → Unfinished { before with completions := rest }
  | .show => ∀ task, before.blocks = [task] → ¬ Unfinished before
  | _ => True

theorem cancel_unfinished_iff (s : State) :
    (∃ task url state, read (cancelDataTask s) task = some ⟨url, state⟩ ∧ state ≠ .responded) ↔
      ∃ task url state, read s.tasks task = some ⟨url, state⟩ ∧ state ≠ .responded := by
  unfold cancelDataTask
  cases held : s.service.dataTask with
  | none => exact Iff.rfl
  | some current =>
      constructor
      · rintro ⟨task, url, state, present, unanswered⟩
        rcases read_update_cases _ _ _ _ _ present with ⟨_, ⟨named, old⟩, before, cancelled⟩ | ⟨_, before⟩
        · refine ⟨current, named, old, before, ?_⟩
          rintro rfl
          exact unanswered (congrArg SearchTask.state cancelled).symm
        · exact ⟨task, url, state, before, unanswered⟩
      · rintro ⟨task, url, state, present, unanswered⟩
        by_cases same : task = current
        · subst same
          have changed := read_update_same s.tasks task cancelTask _ present
          by_cases running : state = .running
          · rw [cancelTask, if_pos running] at changed
            exact ⟨task, url, .cancelling, changed, nofun⟩
          · rw [cancelTask, if_neg running] at changed
            exact ⟨task, url, state, changed, unanswered⟩
        · exact ⟨task, url, state, (read_update_other _ _ _ _ same).trans present, unanswered⟩

theorem search_unissued (s : State) (searchTerm : String) (absent : system.searchURL searchTerm = none) :
    (Unfinished (getSearchResults system s searchTerm) ↔ Unfinished s) ∧
      (getSearchResults system s searchTerm).blocks = s.blocks ∧
      (getSearchResults system s searchTerm).networkActivityIndicatorVisible = s.networkActivityIndicatorVisible := by
  simp only [getSearchResults, absent]
  exact ⟨or_congr (cancel_unfinished_iff s) Iff.rfl, trivial, trivial⟩

theorem search_issued (s : State) (searchTerm : String) (url : URL) (found : system.searchURL searchTerm = some url) :
    Unfinished (getSearchResults system s searchTerm) ∧
      (getSearchResults system s searchTerm).networkActivityIndicatorVisible = s.networkActivityIndicatorVisible := by
  simp only [getSearchResults, found]
  exact ⟨.inl ⟨_, url, .running, read_alloc_fresh .., nofun⟩, trivial⟩

theorem tap_indicator_iff (s : State) (text : Option String) (right : IndicatorRight s) :
    IndicatorRight (searchBarSearchButtonClicked system s text) ↔ Balanced system s (.tap text) := by
  cases text with
  | none => exact iff_of_true right trivial
  | some searchText =>
      unfold searchBarSearchButtonClicked
      dsimp only
      by_cases empty : searchText = ""
      · rw [if_pos empty]
        exact iff_of_true right fun filled => absurd empty filled
      · rw [if_neg empty]
        cases found : system.searchURL searchText with
        | none =>
            obtain ⟨same, blocks, visible⟩ :=
              search_unissued system { s with networkActivityIndicatorVisible := true } searchText found
            unfold IndicatorRight
            rw [blocks, visible, same]
            constructor
            · intro shown _ _ idle
              exact (shown idle).mp rfl
            · intro busy idle
              exact iff_of_true rfl (busy empty found idle)
        | some url =>
            obtain ⟨busy, visible⟩ :=
              search_issued system { s with networkActivityIndicatorVisible := true } searchText url found
            refine iff_of_true (fun _ => iff_of_true visible busy) fun _ absent => ?_
            rw [found] at absent
            cases absent

theorem respond_indicator (s : State) (task : Ref) (reply : Reply) (url : URL) (state : TaskState)
    (right : IndicatorRight s) (held : read s.tasks task = some ⟨url, state⟩) (unanswered : state ≠ .responded) :
    IndicatorRight (respond s task reply) := by
  intro idle
  have visible := (right idle).mpr (.inl ⟨task, url, state, held, unanswered⟩)
  exact iff_of_true visible (.inr (List.append_ne_nil_of_right_ne_nil _ (List.cons_ne_nil _ _)))

theorem complete_shows (s next : State) (task : Ref) (reply : Reply)
    (completed : complete system s task reply = some next)
    (shows : reply.shows = true) : next.blocks ≠ [] := by
  unfold complete at completed
  split at completed
  · cases shows
  · obtain ⟨service, _, rfl⟩ := Option.map_eq_some_iff.mp completed
    exact List.append_ne_nil_of_right_ne_nil _ (List.cons_ne_nil _ _)
  · rename_i data statusCode silent
    unfold Reply.shows at shows
    split at shows
    · rename_i same
      cases same
      exact (silent _ rfl rfl).elim
    · cases shows

theorem complete_silent (s next : State) (task : Ref) (reply : Reply)
    (completed : complete system s task reply = some next) (silent : reply.shows = false) :
    next.tasks = s.tasks ∧ next.completions = s.completions ∧ next.blocks = s.blocks ∧
      next.networkActivityIndicatorVisible = s.networkActivityIndicatorVisible := by
  unfold complete at completed
  split at completed
  · obtain rfl := Option.some.inj completed
    exact ⟨rfl, rfl, rfl, rfl⟩
  · cases silent
  · obtain rfl := Option.some.inj completed
    exact ⟨rfl, rfl, rfl, rfl⟩

theorem complete_indicator_iff (s next : State) (task : Ref) (reply : Reply) (rest : List (Ref × Reply))
    (right : IndicatorRight s) (queue : s.completions = (task, reply) :: rest)
    (completed : complete system { s with completions := rest } task reply = some next) :
    IndicatorRight next ↔ Balanced system s .complete := by
  cases shows : reply.shows with
  | true =>
      have pending := complete_shows system _ next task reply completed shows
      refine iff_of_true (fun idle => absurd idle pending) fun other answer others same silent => ?_
      cases queue.symm.trans same
      cases silent.symm.trans shows
  | false =>
      obtain ⟨tasks, completions, blocks, visible⟩ := complete_silent system _ next task reply completed shows
      have before : s.blocks = [] → s.networkActivityIndicatorVisible = true := fun idle =>
        (right idle).mpr (.inr (queue ▸ List.cons_ne_nil _ _))
      unfold IndicatorRight Unfinished
      rw [tasks, completions, blocks, visible]
      constructor
      · intro shown other answer others same _ idle
        obtain ⟨_, rfl⟩ := List.cons.inj (queue.symm.trans same)
        exact (shown idle).mp (before idle)
      · intro busy idle
        exact iff_of_true (before idle) (busy task reply rest queue shows idle)

theorem show_indicator_iff (s : State) (task : Ref) (rest : List Ref) (queue : s.blocks = task :: rest) :
    IndicatorRight (showResults { s with blocks := rest } task) ↔ Balanced system s .show := by
  constructor
  · intro shown other alone busy
    obtain ⟨_, rfl⟩ := List.cons.inj (queue.symm.trans alone)
    exact Bool.false_ne_true ((shown rfl).mpr busy)
  · intro settled idle
    obtain rfl : rest = [] := idle
    exact iff_of_false Bool.false_ne_true (settled task queue)

theorem step_indicator_iff (s : State) (event : Event) (next : State) (right : IndicatorRight s)
    (taken : step system s event = some next) : IndicatorRight next ↔ Balanced system s event := by
  cases event with
  | tap text => exact Option.some.inj taken ▸ tap_indicator_iff system s text right
  | respond task reply =>
      obtain ⟨url, held, rfl⟩ := respond_running system s next task reply taken
      exact iff_of_true (respond_indicator s task reply url .running right held (by decide)) trivial
  | acknowledge task description =>
      obtain ⟨url, held, rfl⟩ := acknowledge_cancelling system s next task description taken
      exact iff_of_true (respond_indicator s task _ url .cancelling right held (by decide)) trivial
  | complete =>
      obtain ⟨task, reply, rest, queue, completed⟩ := complete_queued system s next taken
      exact complete_indicator_iff system s next task reply rest right queue completed
  | «show» =>
      obtain ⟨task, rest, queue, rfl⟩ := show_queued system s next taken
      exact show_indicator_iff system s task rest queue

theorem initial_indicator : IndicatorRight initial := by
  refine fun _ => iff_of_false Bool.false_ne_true ?_
  rintro (⟨_, _, _, present, _⟩ | queued)
  · cases present
  · exact queued rfl

theorem activity_indicator_iff (events : List Event) :
    Steps (step system) (fun _ _ next => IndicatorRight next) initial events ↔
      Steps (step system) (fun before event _ => Balanced system before event) initial events :=
  steps_iff (step system) IndicatorRight _ _ (step_indicator_iff system) (fun _ _ _ _ _ right => right)
    initial events initial_indicator

-- The search fails and its completion handler leaves the indicator on.
theorem failed_search_spins :
    ¬ ∀ events, Steps (step sampleSystem) (fun _ _ next => IndicatorRight next) initial events := by
  intro all
  have last := steps_after _ _ initial _ [.tap (some "a"), .respond 0 (.failed "offline")] [.complete] rfl (all _)
  obtain ⟨right, _⟩ := last _ rfl
  rcases (right rfl).mp rfl with ⟨task, url, state, present, unanswered⟩ | queued
  · cases task with
    | zero =>
        cases present
        exact unanswered rfl
    | succ later => cases present
  · exact queued rfl

end CultivationMotain.HalfTunes.Search
