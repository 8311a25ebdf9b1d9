import Mathlib.Data.List.DropRight
import Descent.Proofs.Curvature.History
import Descent.Proofs.Lbfgs.Directions
/-!
# Where the curvature pairs of a run come from

In exact arithmetic the history of a run holds the newest pairs of the iterations since the
safeguard was last entered, as many as it has room for, and nothing else: it is emptied where a
run begins and where the safeguard is entered, and each iteration adds the pair of the move that
it makes.
-/

namespace Descent

variable {α : Type}

def Event.retried? : Event α → Option Nat
  | searchRetried iteration _ => some iteration
  | _ => none

def lastRetry (events : Array (Event α)) : Nat :=
  (events.toList.filterMap Event.retried?).getLast?.getD 0

theorem lastRetry_push_of_none {events : Array (Event α)} {event : Event α}
    (none : event.retried? = none) : lastRetry (events.push event) = lastRetry events := by
  simp [lastRetry, none]

theorem lastRetry_push_searchRetried (events : Array (Event α)) (iteration : Nat)
    (fault : SearchFault) :
    lastRetry (events.push (.searchRetried iteration fault)) = iteration := by
  simp [lastRetry, Event.retried?]

namespace Lbfgs

open RunM CurvatureHistory

variable {n : Nat} {f : Objective Id ℝ n} {c : Config ℝ} {options : RunOptions}

def Iteration.pair (i : Iteration ℝ n) : Vector ℝ n × Vector ℝ n :=
  (i.target.location - i.source.location, i.target.gradient - i.source.gradient)

/-- The pairs that are kept of those that arrive: their products are above the threshold, and they
are the newest as many as there is room for. -/
noncomputable def Config.kept (c : Config ℝ) (pairs : List (Vector ℝ n × Vector ℝ n)) :
    List (Vector ℝ n × Vector ℝ n) :=
  (pairs.filter fun pair => c.curvatureThreshold < dot pair.1 pair.2).rtake c.historySize.toNat

/-- The history of a run that has completed the given iterations, newest first: it holds what is
kept of the pairs since the safeguard was last entered. -/
structure Traces (c : Config ℝ) (done : List (Iteration ℝ n)) (r : Run (State ℝ n) ℝ n) : Prop where
  capacity_eq : r.state.history.capacity = c.historySize.toNat
  lastRetry_le : lastRetry r.events ≤ done.length
  holds : Holds r.state.history
    (c.kept ((done.reverse.drop (lastRetry r.events)).map Iteration.pair)).reverse

variable {done : List (Iteration ℝ n)} {p q : Point ℝ n} {r r' : Run (State ℝ n) ℝ n}

theorem reverse_kept (pairs : List (Vector ℝ n × Vector ℝ n)) :
    (c.kept pairs).reverse = ((pairs.filter fun pair =>
      c.curvatureThreshold < dot pair.1 pair.2).reverse).take c.historySize.toNat := by
  rw [Config.kept, List.rtake_eq_reverse_take_reverse, List.reverse_reverse]

/-- A pair that arrives comes before those that are kept, newest first, or is not kept. -/
theorem reverse_kept_concat (pairs : List (Vector ℝ n × Vector ℝ n))
    (pair : Vector ℝ n × Vector ℝ n) :
    (c.kept (pairs ++ [pair])).reverse =
      if c.curvatureThreshold < dot pair.1 pair.2 then
        (pair :: (c.kept pairs).reverse).take c.historySize.toNat
      else (c.kept pairs).reverse := by
  rw [reverse_kept, reverse_kept, List.filter_append, List.reverse_append]
  split_ifs with isKept
  · have arrives := enqueue_take c.historySize.toNat pair
      (pairs.filter fun pair => c.curvatureThreshold < dot pair.1 pair.2).reverse
    rw [enqueue] at arrives
    simp [isKept, arrives]
  · simp [isKept]

theorem Traces.departed {x : Vector ℝ n} {s : State ℝ n}
    (capacity_eq : s.history.capacity = c.historySize.toNat)
    (ok : outcome (depart f options x) ⟨s, x, #[], #[]⟩ = (.ok p, r)) : Traces c [] r := by
  obtain ⟨_, _, _, history_eq, events_eq⟩ := departs_of_ok ok
  have never : lastRetry r.events = 0 := by
    rw [events_eq]
    rfl
  refine ⟨?_, by rw [never, List.length_nil], ?_⟩
  · rw [history_eq]
    exact capacity_eq
  · rw [history_eq, never]
    simpa [Config.kept] using Holds.clear

/-- A choice in which the safeguard is entered leaves no pair. -/
theorem Traces.chosen {found : Except (SearchFailure ℝ) (Move ℝ n)} (traces : Traces c done r)
    (iterations_eq : r.state.iterations = done.length) (chooses : Chooses f c p r r' found) :
    Traces c done r' := by
  cases chooses with
  | searched _ history_eq events_eq =>
      refine ⟨history_eq ▸ traces.capacity_eq, events_eq ▸ traces.lastRetry_le, ?_⟩
      rw [history_eq, events_eq]
      exact traces.holds
  | retried _ history_eq events_eq =>
      -- No pair has arrived since, and the history is empty.
      have latest : lastRetry r'.events = done.length := by
        rw [events_eq, lastRetry_push_searchRetried, iterations_eq]
      refine ⟨?_, latest.le, ?_⟩
      · rw [history_eq]
        exact traces.capacity_eq
      · rw [history_eq, latest, ← List.length_reverse, List.drop_length]
        simpa [Config.kept] using Holds.clear

theorem Traces.followed (inRange : c.InRange) {move : Move ℝ n} (traces : Traces c done r)
    (follows : Follows f c options p q move r r') : Traces c (⟨p, move, q⟩ :: done) r' := by
  obtain ⟨_, _, _, events_eq⟩ := follows.events_eq
  have retry_eq : lastRetry r'.events = lastRetry r.events := by
    rw [events_eq, lastRetry_push_of_none rfl]
  have pair_eq : Iteration.pair ⟨p, move, q⟩ =
      (move.step * move.direction, q.gradient - p.gradient) := by
    rw [Iteration.pair, follows.location_eq, add_sub_cancel_left]
  refine ⟨?_, ?_, ?_⟩
  · rw [follows.history_eq, capacity_record]
    exact traces.capacity_eq
  · rw [retry_eq, List.length_cons]
    exact traces.lastRetry_le.trans (Nat.le_succ _)
  · rw [follows.history_eq, retry_eq, List.reverse_cons,
      List.drop_append_of_le_length (by simpa using traces.lastRetry_le), List.map_append,
      List.map_singleton, pair_eq, reverse_kept_concat, ← traces.capacity_eq]
    exact traces.holds.record _ _ inRange.curvatureThreshold_nonneg

theorem Reaches.traces (inRange : c.InRange) {limit : Nat} {x : Vector ℝ n} {s : State ℝ n}
    (capacity_eq : s.history.capacity = c.historySize.toNat)
    (reached : Reaches f c options limit x s done r p) : Traces c done r := by
  induction reached with
  | depart departed => exact .departed capacity_eq departed
  | complete before _ _ chosen followed ih =>
      have chooses := (chooses_of_ok chosen).2
      exact (ih.chosen before.carries.iterations_eq chooses).followed inRange
        (follows_of_ok followed)

theorem Ends.traces {limit : Nat} {ending : Ending ℝ} (traces : Traces c done r)
    (iterations_eq : r.state.iterations = done.length)
    (ends : Ends f c limit done.length r p r' ending) : Traces c done r' := by
  cases ends with
  | exhausted => exact traces
  | converged => exact traces
  | failed _ _ chosen => exact traces.chosen iterations_eq (chooses_of_ok chosen).2

section Capacity

variable {α β : Type}

def capacity (r : Run (State α n) α n) : Nat := r.state.history.capacity

theorem keeps_capacity {x : Steps Id α n β} (keeps : Keeps uncounted x) : Keeps capacity x :=
  keeps.map capacity

variable (f : Objective Id α n)

theorem evaluate_capacity (x : Vector α n) : Keeps capacity (evaluate f x) :=
  Keeps.bind (fun _ => rfl) fun _ => .ask _

theorem gradientAt_capacity (x : Vector α n) : Keeps capacity (gradientAt f x) :=
  Keeps.bind (fun _ => rfl) fun _ => .ask _

variable [Scalar α] (c : Config α) (options : RunOptions)

theorem chooseMove_capacity (p : Point α n) : Keeps capacity (chooseMove f c p) := by
  unfold chooseMove lineSearch safeguard
  refine Keeps.bind (fun _ => rfl) fun _ => ?_
  refine (keeps_capacity (wolfe_keeps f _ _ _ _ _)).bind fun result => ?_
  rcases result with failure | ⟨step, evaluations⟩
  · refine Keeps.bind (fun _ => rfl) fun _ => Keeps.bind (fun _ => rfl) fun _ =>
      Keeps.bind (fun _ => rfl) fun _ => Keeps.bind (fun _ => rfl) fun _ => ?_
    refine (keeps_capacity (armijo_keeps f _ _ _ _ _ _)).bind fun result => ?_
    rcases result with failure | ⟨step, evaluations⟩
    · exact Keeps.bind (fun _ => rfl) fun _ => .pure _
    · exact Keeps.bind (fun _ => rfl) fun _ => .pure _
  · exact Keeps.bind (fun _ => rfl) fun _ => .pure _

theorem remember_capacity (move change : Vector α n) : Keeps capacity (remember c move change) := by
  intro r
  have kept := capacity_record r.state.history move change c.curvatureThreshold
  unfold remember
  rw [outcome_bind_of_ok outcome_state]
  rcases stored : r.state.history.record move change c.curvatureThreshold with ⟨history, _ | _⟩
  · rw [stored] at kept
    exact kept
  · rw [stored] at kept
    exact kept

theorem follow_capacity (p : Point α n) (move : Move α n) :
    Keeps capacity (follow f c options p move) := by
  unfold follow
  refine (evaluate_capacity f _).bind fun _ => (gradientAt_capacity f _).bind fun _ =>
    (remember_capacity c _ _).bind fun _ => ?_
  exact Keeps.bind (fun _ => rfl) fun _ => Keeps.bind (fun _ => rfl) fun _ =>
    Keeps.bind (fun _ => rfl) fun _ => Keeps.bind (fun _ => rfl) fun _ => .pure _

theorem advance_capacity (p : Point α n) : Keeps capacity (advance f c options p) := by
  unfold advance
  refine (chooseMove_capacity f c p).bind fun found => ?_
  cases found with
  | error failure => exact .pure _
  | ok move => exact (follow_capacity f c options p move).bind fun _ => .pure _

theorem iterate_capacity (limit remaining : Nat) (p : Point α n) :
    Keeps capacity (iterate f c options limit remaining p) := by
  induction remaining generalizing p with
  | zero => exact .pure _
  | succ remaining ih =>
      unfold iterate
      split
      · exact .pure _
      · refine (advance_capacity f c options p).bind fun result => ?_
        cases result with
        | error failure => exact .pure _
        | ok next => exact ih next

/-- Whatever a run does, also where it fails, its history has room for as many pairs as before. -/
theorem run_capacity (limit : Nat) (x : Vector α n) : Keeps capacity (run f c options limit x) := by
  have prepared : Keeps capacity (prepare f options x) := by
    unfold prepare
    refine Keeps.bind (fun _ => rfl) fun _ => ?_
    have rest : Keeps capacity (do
        update fun s => { s with status := .running }
        trace options x : Steps Id α n Unit) := Keeps.bind (fun _ => rfl) fun _ _ => rfl
    split
    · exact (Keeps.ask _).bind fun _ => rest
    · exact rest
  unfold run depart
  refine Keeps.bind (prepared.bind fun _ => (evaluate_capacity f x).bind fun _ =>
    (gradientAt_capacity f x).bind fun _ => .pure _) fun p => ?_
  refine (iterate_capacity f c options limit limit p).bind fun _ => ?_
  exact Keeps.bind (fun _ => rfl) fun _ => Keeps.bind (fun _ => rfl) fun _ =>
    Keeps.bind (fun _ => rfl) fun _ => .pure _

theorem optimize_capacity (dimension : Dimension) (s : State α n) (start : Tensor α) :
    (Id.run (optimize f c dimension s start options)).state.history.capacity =
      s.history.capacity := by
  unfold optimize
  rcases requested : (checkRequest dimension c.iterationCap options.budget start :
    Except (Error α) (Vector α n × Nat)) with e | ⟨x, limit⟩
  · rw [Call.make_of_error requested]
  · rw [Call.make_of_ok requested]
    exact run_capacity f c options limit x ⟨s, x, #[], #[]⟩

end Capacity

/-- A state that an optimizer can have: it was created, and then run any number of times, each
time on any function and however the run ended. -/
inductive Used (c : Config ℝ) : State ℝ n → Prop
  | create {s : State ℝ n} : State.create c = .ok s → Used c s
  | call (f : Objective Id ℝ n) (dimension : Dimension) (start : Tensor ℝ) (options : RunOptions)
      {s : State ℝ n} :
      Used c s → Used c (Id.run (optimize f c dimension s start options)).state

theorem Used.capacity_eq {s : State ℝ n} (used : Used c s) :
    s.history.capacity = c.historySize.toNat := by
  induction used with
  | @create s created =>
      unfold State.create at created
      rcases made : CurvatureHistory.create c.historySize with e | h
      · rw [made] at created
        cases created
      · rw [made] at created
        cases created
        exact capacity_create made
  | call f dimension start options _ ih =>
      exact (optimize_capacity f c options dimension _ start).trans ih

/-- Whether an iteration at a point, which leads from a run to the given reports, has entered the
safeguard: it has if the search along the quasi-Newton direction fails, and then it is the last one
that has. -/
inductive Retries (f : Objective Id ℝ n) (c : Config ℝ) (p : Point ℝ n) (iteration : Nat)
    (r : Run (State ℝ n) ℝ n) (events : Array (Event ℝ)) : Prop
  | searched {found : ℝ × Nat} {r₁ : Run (State ℝ n) ℝ n} :
      outcome (quasiNewtonSearch f c p r.state.history) r = (.ok (.ok found), r₁) →
      lastRetry events = lastRetry r.events → Retries f c p iteration r events
  | retried {failure : SearchFailure ℝ} {r₁ : Run (State ℝ n) ℝ n} :
      outcome (quasiNewtonSearch f c p r.state.history) r = (.ok (.error failure), r₁) →
      lastRetry events = iteration → Retries f c p iteration r events

theorem Chooses.retries {found : Except (SearchFailure ℝ) (Move ℝ n)} {events : Array (Event ℝ)}
    (chooses : Chooses f c p r r' found) (kept : lastRetry events = lastRetry r'.events) :
    Retries f c p r.state.iterations r events := by
  cases chooses with
  | searched found _ events_eq => exact .searched found (by rw [kept, events_eq])
  | retried failed _ events_eq =>
      exact .retried failed (by rw [kept, events_eq, lastRetry_push_searchRetried])

theorem retries_of_advance {result : Except (SearchFailure ℝ) (Point ℝ n)}
    (ok : outcome (advance f c options p) r = (.ok result, r')) :
    Retries f c p r.state.iterations r r'.events := by
  rcases advance_cases ok with ⟨failure, rfl, unmoved⟩ | ⟨move, next, r₁, rfl, moved, followed⟩
  · exact (chooses_of_ok unmoved).2.retries rfl
  · obtain ⟨_, _, _, events_eq⟩ := (follows_of_ok followed).events_eq
    refine (chooses_of_ok moved).2.retries ?_
    rw [events_eq, lastRetry_push_of_none rfl]

/-- A history that stems from the iterations of a run since the safeguard was last entered. -/
structure Provenance (f : Objective Id ℝ n) (c : Config ℝ) (x y : Vector ℝ n)
    (done : List (Iteration ℝ n)) (events : Array (Event ℝ))
    (history : CurvatureHistory ℝ (Vector ℝ n)) : Prop where
  /-- The iterations lead from `x` to `y`, each from where the one before it ended. -/
  visited_eq : visited x done = y :: done.map (·.source.location)
  isCurrent : ∀ i ∈ done, i.source.IsCurrent f ∧ i.target.IsCurrent f
  lastRetry_le : lastRetry events ≤ done.length
  pairs_eq : history.pairs = c.kept ((done.reverse.drop (lastRetry events)).map Iteration.pair)

theorem Traces.provenance {x : Vector ℝ n} (traces : Traces c done r)
    (carries : Carries f c options x done r' p) :
    Provenance f c x p.location done r.events r.state.history where
  visited_eq := carries.visited_eq
  isCurrent i mem := ⟨(carries.source i mem).1, carries.target i mem⟩
  lastRetry_le := traces.lastRetry_le
  pairs_eq := traces.holds.pairs_eq.trans (List.reverse_reverse _)

/-- Wherever a run comes, and in the end, the history holds the pairs of its iterations since the
one in which the safeguard was last entered: of those with a product above the threshold the
newest as many as there is room for, oldest first.  This iteration is the first one of the run
until a search along the quasi-Newton direction fails, and then the one in which it fails. -/
theorem optimize_keeps_newest_pairs (valid : c.check = .ok ()) {s : State ℝ n} (used : Used c s)
    (f : Objective Id ℝ n) (dimension : Dimension) (start : Tensor ℝ) (options : RunOptions) :
    (∀ limit x done r p, Reaches f c options limit x s done r p →
      Provenance f c x r.iterate done r.events r.state.history ∧
      ∀ result r', outcome (advance f c options p) r = (.ok result, r') →
        Retries f c p done.length r r'.events) ∧
    ∀ call result, Id.run (optimize f c dimension s start options) = call →
      call.result = .ok result →
      ∃ x limit done r p,
        checkRequest dimension c.iterationCap options.budget start = .ok (x, limit) ∧
        Reaches f c options limit x s done r p ∧ result.iterations = done.length ∧
        Provenance f c x result.iterate done call.events call.state.history := by
  have inRange := Config.inRange valid
  constructor
  · intro limit x done r p reached
    have carries := reached.carries
    rw [carries.iterate_eq, ← carries.iterations_eq]
    exact ⟨(reached.traces inRange used.capacity_eq).provenance carries,
      fun result r' advanced => retries_of_advance advanced⟩
  · intro call result called ok
    obtain ⟨x, limit, done, r, p, r', accepted, reached, ends, tells⟩ := optimize_ends called ok
    have carries := reached.carries
    have traces := ends.traces (reached.traces inRange used.capacity_eq) carries.iterations_eq
    obtain ⟨_, events_eq⟩ := tells.events_eq
    have provenance := traces.provenance carries
    refine ⟨x, limit, done, r, p, accepted, reached, tells.iterations_eq, ?_⟩
    have retry_eq : lastRetry call.events = lastRetry r'.events := by
      rw [events_eq, lastRetry_push_of_none rfl]
    rw [tells.iterate_eq, tells.history_eq]
    exact ⟨provenance.visited_eq, provenance.isCurrent, retry_eq ▸ provenance.lastRetry_le,
      retry_eq ▸ provenance.pairs_eq⟩

theorem optimize_keeps_newest_pairs_square :
    Used Config.defaults unused ∧ ∃ done r p,
      Reaches Square.objective .defaults {} 100000 #v[3] unused done r p ∧
      r.state.history.size = 1 ∧
      Provenance Square.objective .defaults #v[3] r.iterate done r.events r.state.history := by
  have used : Used (n := 1) (Config.defaults : Config ℝ) unused := .create rfl
  obtain ⟨i, r, reached, size_eq⟩ := reaches_two "square" Square.hessian
  obtain ⟨traced, _⟩ := optimize_keeps_newest_pairs Config.defaults_valid used Square.objective
    (.whole 1) (.ofVector #v[3]) {}
  exact ⟨used, [i], r, _, reached, size_eq, (traced _ _ _ _ _ reached).1⟩

end Lbfgs

end Descent
