import CultivationMotain.HalfTunes.QueryService

set_option autoImplicit false

namespace CultivationMotain.HalfTunes.Search

open Foundation ObjectHeap Runs

variable (system : System)

-- The search issued last has shown its results.
def LatestShown (s : State) : Prop := ∃ latest ∈ s.answered, latest + 1 = fresh s.tasks

def LatestWins (before next : State) : Prop := LatestShown before → next.searchResults = before.searchResults

-- A tap that issues a search finds any task still running in dataTask, where
-- it is cancelled.
def Superseding (before : State) : Event → Prop
  | .tap (some text) => text ≠ "" → (system.searchURL text).isSome → ∀ task url,
      read before.tasks task = some ⟨url, .running⟩ → before.service.dataTask = some task
  | _ => True

-- Replies that make the completion handler dispatch its block.
def Reply.shows : Reply → Bool
  | .response (some _) (some 200) => true
  | _ => false

-- The searches still to show results, in the order in which they will do so.
def pending (s : State) : List Ref :=
  s.blocks ++ (s.completions.filter fun completion => completion.2.shows).map Prod.fst

def Responded (tasks : Heap SearchTask) (task : Ref) : Prop := ∃ url, read tasks task = some ⟨url, .responded⟩

-- Only the latest search can be running, and results come in the order of the
-- searches, later ones than those shown already.
structure Ordered (s : State) : Prop where
  running : ∀ task url, read s.tasks task = some ⟨url, .running⟩ → task + 1 = fresh s.tasks
  queued : ∀ task ∈ pending s, Responded s.tasks task
  sorted : (pending s).Pairwise (· < ·)
  answered : ∀ task ∈ s.answered, Responded s.tasks task ∧ ∀ later ∈ pending s, task < later

theorem cancel_fresh (s : State) : fresh (cancelDataTask s) = fresh s.tasks := by
  unfold cancelDataTask
  split
  · rfl
  · exact fresh_update ..

theorem cancel_responded (s : State) (task : Ref) (responded : Responded s.tasks task) :
    Responded (cancelDataTask s) task := by
  obtain ⟨url, present⟩ := responded
  refine ⟨url, ?_⟩
  unfold cancelDataTask
  split
  · exact present
  · rw [read_update]
    split
    · rw [present]
      rfl
    · exact present

theorem cancel_running (s : State) (task : Ref) (url : URL)
    (running : read (cancelDataTask s) task = some ⟨url, .running⟩) :
    read s.tasks task = some ⟨url, .running⟩ ∧ s.service.dataTask ≠ some task := by
  unfold cancelDataTask at running
  split at running
  · rename_i idle
    exact ⟨running, by simp [idle]⟩
  · rename_i current held
    rcases read_update_cases _ _ _ _ _ running with ⟨rfl, ⟨other, state⟩, _, cancelled⟩ | ⟨different, old⟩
    · unfold cancelTask at cancelled
      split at cancelled
      · cases congrArg SearchTask.state cancelled
      · rename_i stopped
        cases cancelled
        exact absurd rfl stopped
    · refine ⟨old, ?_⟩
      rw [held]
      exact fun same => different (Option.some.inj same).symm

theorem responded_alloc (tasks : Heap SearchTask) (task : Ref) (new : SearchTask) (responded : Responded tasks task) :
    Responded (alloc tasks new) task := by
  obtain ⟨url, present⟩ := responded
  exact ⟨url, read_alloc_old tasks new _ task present⟩

theorem responded_update (tasks : Heap SearchTask) (task other : Ref) (responded : Responded tasks task) :
    Responded (update tasks other fun t => { t with state := .responded }) task := by
  obtain ⟨url, present⟩ := responded
  refine ⟨url, ?_⟩
  rw [read_update]
  split
  · rw [present]
    rfl
  · exact present

theorem ordered_tasks (s t : State) (ordered : Ordered s) (same : pending t = pending s)
    (shown : t.answered = s.answered)
    (responded : ∀ task, Responded s.tasks task → Responded t.tasks task)
    (running : ∀ task url, read t.tasks task = some ⟨url, .running⟩ → task + 1 = fresh t.tasks) : Ordered t where
  running := running
  queued task member := responded task (ordered.queued task (same ▸ member))
  sorted := same ▸ ordered.sorted
  answered task member := by
    obtain ⟨old, before⟩ := ordered.answered task (shown ▸ member)
    exact ⟨responded task old, fun later waiting => before later (same ▸ waiting)⟩

theorem search_ordered (s : State) (searchTerm : String) (ordered : Ordered s)
    (superseding : (system.searchURL searchTerm).isSome → ∀ task url,
      read s.tasks task = some ⟨url, .running⟩ → s.service.dataTask = some task) :
    Ordered (getSearchResults system s searchTerm) := by
  unfold getSearchResults
  dsimp only
  split
  · refine ordered_tasks s _ ordered rfl rfl (cancel_responded s) ?_
    intro task url running
    have old := (cancel_running s task url running).1
    exact (ordered.running task url old).trans (cancel_fresh s).symm
  · rename_i url found
    refine ordered_tasks s _ ordered rfl rfl
      (fun task responded => responded_alloc _ task _ (cancel_responded s task responded)) ?_
    intro task other running
    rcases read_alloc_cases _ _ _ _ running with ⟨rfl, _⟩ | ⟨_, before⟩
    · exact (fresh_alloc ..).symm
    · -- A task that was running has just been cancelled.
      obtain ⟨old, missed⟩ := cancel_running s task other before
      exact absurd (superseding (by rw [found]; rfl) task other old) missed

theorem tap_ordered (s : State) (text : Option String) (ordered : Ordered s)
    (superseding : Superseding system s (.tap text)) : Ordered (searchBarSearchButtonClicked system s text) := by
  cases text with
  | none => exact ordered
  | some searchText =>
      unfold searchBarSearchButtonClicked
      dsimp only
      split
      · exact ordered
      · rename_i nonempty
        exact search_ordered system _ searchText ⟨ordered.running, ordered.queued, ordered.sorted, ordered.answered⟩
          (superseding nonempty)

theorem respond_pending (s : State) (task : Ref) (reply : Reply) :
    pending (respond s task reply) = pending s ++ (if reply.shows then [task] else []) := by
  unfold pending respond
  rw [List.filter_append, List.map_append, ← List.append_assoc]
  cases shows : reply.shows with
  | true => simp [shows]
  | false => simp [shows]

theorem respond_ordered (s : State) (task : Ref) (reply : Reply) (url : URL) (state : TaskState) (ordered : Ordered s)
    (held : read s.tasks task = some ⟨url, state⟩) (open_ : state ≠ .responded)
    (latest : reply.shows → state = .running) : Ordered (respond s task reply) := by
  have apart : ∀ other, Responded s.tasks other → other ≠ task := by
    rintro other ⟨_, present⟩ rfl
    cases Option.some.inj (held.symm.trans present)
    exact open_ rfl
  have earlier : reply.shows → ∀ other, Responded s.tasks other → other < task := by
    intro shows other responded
    obtain rfl := latest shows
    obtain ⟨_, present⟩ := responded
    have bound := read_before_fresh _ _ _ present
    rw [← ordered.running task url held] at bound
    exact Nat.lt_of_le_of_ne (Nat.le_of_lt_succ bound) (apart other ⟨_, present⟩)
  have waiting : ∀ other ∈ pending (respond s task reply), other ∈ pending s ∨ (reply.shows ∧ other = task) := by
    intro other member
    rw [respond_pending] at member
    split at member
    · rename_i shows
      simpa [shows] using member
    · simpa using Or.inl member
  refine ⟨?_, ?_, ?_, ?_⟩
  · intro other named running
    rcases read_update_cases _ _ _ _ _ running with ⟨_, _, _, changed⟩ | ⟨_, old⟩
    · cases congrArg SearchTask.state changed
    · exact (ordered.running other named old).trans (fresh_update ..).symm
  · intro other member
    rcases waiting other member with old | ⟨_, rfl⟩
    · exact responded_update _ other task (ordered.queued other old)
    · exact ⟨url, by simp [respond, read_update_same _ _ _ _ held]⟩
  · rw [respond_pending]
    split
    · rename_i shows
      refine List.pairwise_append.mpr ⟨ordered.sorted, List.pairwise_singleton .., ?_⟩
      intro other member last same
      exact List.mem_singleton.mp same ▸ earlier shows other (ordered.queued other member)
    · rw [List.append_nil]
      exact ordered.sorted
  · intro other member
    obtain ⟨responded, before⟩ := ordered.answered other member
    refine ⟨responded_update _ other task responded, ?_⟩
    intro later queued
    rcases waiting later queued with old | ⟨shows, rfl⟩
    · exact before later old
    · exact earlier shows other responded

theorem complete_frame (s next : State) (task : Ref) (reply : Reply) (rest : List (Ref × Reply))
    (queue : s.completions = (task, reply) :: rest)
    (completed : complete system { s with completions := rest } task reply = some next) :
    next.tasks = s.tasks ∧ next.answered = s.answered ∧ next.searchResults = s.searchResults ∧
      pending next = pending s := by
  unfold complete at completed
  split at completed
  · obtain rfl := Option.some.inj completed
    exact ⟨rfl, rfl, rfl, by simp [pending, queue, Reply.shows]⟩
  · obtain ⟨service, _, rfl⟩ := Option.map_eq_some_iff.mp completed
    exact ⟨rfl, rfl, rfl, by simp [pending, queue, Reply.shows]⟩
  · rename_i data statusCode silent
    obtain rfl := Option.some.inj completed
    refine ⟨rfl, rfl, rfl, ?_⟩
    have hidden : Reply.shows (.response data statusCode) = false := by
      unfold Reply.shows
      split
      · rename_i shown
        cases shown
        exact (silent _ rfl rfl).elim
      · rfl
    simp [pending, queue, hidden]

theorem show_pending (s : State) (task : Ref) (rest : List Ref) (queue : s.blocks = task :: rest) :
    pending s = task :: pending (showResults { s with blocks := rest } task) := by
  unfold pending showResults
  rw [queue, List.cons_append]

theorem show_ordered (s : State) (task : Ref) (rest : List Ref) (ordered : Ordered s)
    (queue : s.blocks = task :: rest) : Ordered (showResults { s with blocks := rest } task) := by
  have split_ := show_pending s task rest queue
  have sorted := ordered.sorted
  rw [split_] at sorted
  obtain ⟨first, others⟩ := List.pairwise_cons.mp sorted
  refine ⟨ordered.running, ?_, others, ?_⟩
  · intro other member
    exact ordered.queued other (split_ ▸ List.mem_cons_of_mem task member)
  · intro other member
    rcases List.mem_cons.mp member with rfl | old
    · exact ⟨ordered.queued other (split_ ▸ List.mem_cons_self), first⟩
    · obtain ⟨responded, before⟩ := ordered.answered other old
      exact ⟨responded, fun later waiting => before later (split_ ▸ List.mem_cons_of_mem task waiting)⟩

theorem latest_shown_idle (s : State) (ordered : Ordered s) (shown : LatestShown s) : pending s = [] := by
  obtain ⟨latest, member, last⟩ := shown
  refine List.eq_nil_iff_forall_not_mem.mpr fun task waiting => ?_
  obtain ⟨_, present⟩ := ordered.queued task waiting
  have bound := read_before_fresh _ _ _ present
  rw [← last] at bound
  exact Nat.not_lt_of_le (Nat.le_of_lt_succ bound) ((ordered.answered latest member).2 task waiting)

theorem tap_keeps_results (s : State) (text : Option String) :
    (searchBarSearchButtonClicked system s text).searchResults = s.searchResults := by
  unfold searchBarSearchButtonClicked getSearchResults
  split
  · rfl
  · split
    · rfl
    · dsimp only
      split <;> rfl

theorem respond_running (s next : State) (task : Ref) (reply : Reply)
    (taken : step system s (.respond task reply) = some next) :
    ∃ url, read s.tasks task = some ⟨url, .running⟩ ∧ next = respond s task reply := by
  rw [step] at taken
  split at taken
  · rename_i url held
    exact ⟨url, held, (Option.some.inj taken).symm⟩
  · cases taken

theorem acknowledge_cancelling (s next : State) (task : Ref) (description : String)
    (taken : step system s (.acknowledge task description) = some next) :
    ∃ url, read s.tasks task = some ⟨url, .cancelling⟩ ∧ next = respond s task (.failed description) := by
  rw [step] at taken
  split at taken
  · rename_i url held
    exact ⟨url, held, (Option.some.inj taken).symm⟩
  · cases taken

theorem complete_queued (s next : State) (taken : step system s .complete = some next) :
    ∃ task reply rest, s.completions = (task, reply) :: rest ∧
      complete system { s with completions := rest } task reply = some next := by
  rw [step] at taken
  split at taken
  · cases taken
  · rename_i task reply rest queue
    exact ⟨task, reply, rest, queue, taken⟩

theorem show_queued (s next : State) (taken : step system s .show = some next) :
    ∃ task rest, s.blocks = task :: rest ∧ next = showResults { s with blocks := rest } task := by
  rw [step] at taken
  split at taken
  · cases taken
  · rename_i task rest queue
    exact ⟨task, rest, queue, (Option.some.inj taken).symm⟩

theorem step_latest (s : State) (event : Event) (next : State) (ordered : Ordered s)
    (taken : step system s event = some next) (superseding : Superseding system s event) :
    LatestWins s next ∧ Ordered next := by
  cases event with
  | tap text =>
      obtain rfl := Option.some.inj taken
      exact ⟨fun _ => tap_keeps_results system s text, tap_ordered system s text ordered superseding⟩
  | respond task reply =>
      obtain ⟨url, held, rfl⟩ := respond_running system s next task reply taken
      exact ⟨fun _ => rfl, respond_ordered s task reply url .running ordered held (by decide) fun _ => rfl⟩
  | acknowledge task description =>
      obtain ⟨url, held, rfl⟩ := acknowledge_cancelling system s next task description taken
      exact ⟨fun _ => rfl, respond_ordered s task _ url .cancelling ordered held (by decide)
        fun shows => (nomatch shows)⟩
  | complete =>
      obtain ⟨task, reply, rest, queue, completed⟩ := complete_queued system s next taken
      obtain ⟨tasks, answered, results, same⟩ := complete_frame system s next task reply rest queue completed
      refine ⟨fun _ => results, ordered_tasks s next ordered same answered (by simp [tasks]) ?_⟩
      simpa only [tasks] using ordered.running
  | «show» =>
      obtain ⟨task, rest, queue, rfl⟩ := show_queued system s next taken
      refine ⟨fun shown => ?_, show_ordered s task rest ordered queue⟩
      have idle := latest_shown_idle s ordered shown
      rw [show_pending s task rest queue] at idle
      cases idle

theorem initial_ordered : Ordered initial where
  running := by simp [initial]
  queued := by simp [initial, pending]
  sorted := by simp [initial, pending]
  answered := by simp [initial]

theorem latest_search_wins (events : List Event)
    (superseding : Steps (step system) (fun before event _ => Superseding system before event) initial events) :
    Steps (step system) (fun before _ next => LatestWins before next) initial events :=
  steps_of_condition (step system) Ordered _ _
    (fun s event next ordered taken allowed => step_latest system s event next ordered taken allowed)
    initial events initial_ordered superseding

-- Bodies that are empty stand for an empty list of results, all others for one
-- with a song.
def sampleSystem : System where
  jsonObject
    | [] => .ok (.object [("results", .array [])])
    | _ => .ok (.object [("results", .array [.object [("previewUrl", .string "song.m4a"),
        ("trackName", .string "Song"), ("artistName", .string "Artist")]])])
  parseURL text := some ⟨"https://audio.example", [text]⟩
  searchURL term := some ⟨"https://itunes.apple.com", ["search", term]⟩

def cancelledSearch : List Event :=
  [.tap (some "a"), .tap (some "b"), .respond 1 (.response (some [1]) (some 200)), .complete, .show,
    .acknowledge 0 "cancelled", .complete]

-- The completion of the cancelled search comes after the results are shown.
theorem latest_search_wins_after_cancel :
    (run (step sampleSystem) initial cancelledSearch).isSome ∧
      Steps (step sampleSystem) (fun before _ next => LatestWins before next) initial cancelledSearch := by
  refine ⟨rfl, latest_search_wins sampleSystem _ ?_⟩
  intro first issued
  cases Option.some.inj issued
  refine ⟨fun _ _ task url running => (nomatch running), ?_⟩
  intro second reissued
  cases Option.some.inj reissued
  refine ⟨fun _ _ task url running => ?_, fun _ _ => ⟨trivial, fun _ _ => ⟨trivial, fun _ _ => ⟨trivial,
    fun _ _ => ⟨trivial, fun _ _ => ⟨trivial, trivial⟩⟩⟩⟩⟩⟩
  cases task with
  | zero => rfl
  | succ later => cases running

-- The cancellation of the first search clears dataTask, which is the second's:
-- the third does not cancel it, and its late reply replaces the third's results.
theorem stale_search_shown :
    ¬ ∀ events, Steps (step sampleSystem) (fun before _ next => LatestWins before next) initial events := by
  intro all
  have last := steps_after _ _ initial _
    [.tap (some "a"), .tap (some "b"), .acknowledge 0 "cancelled", .complete, .tap (some "c"),
      .respond 2 (.response (some []) (some 200)), .complete, .show,
      .respond 1 (.response (some [1]) (some 200)), .complete] [.show] rfl (all _)
  obtain ⟨wins, _⟩ := last _ rfl
  have kept := wins ⟨2, List.mem_cons_self, rfl⟩
  cases congrArg List.length kept

end CultivationMotain.HalfTunes.Search
