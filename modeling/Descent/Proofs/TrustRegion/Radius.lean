import Descent.Proofs.TrustRegion.Stagnation
/-!
# The radius of an optimizer

From its creation on, whatever functions it is run on and however the runs end, an optimizer
keeps its radius between the least and the greatest.  A run stagnates only with the least
radius.
-/

namespace Descent.TrustRegion

open RunM

section Steps

variable {α β γ : Type} {n : Nat}

/-- Steps that keep the radius and report nothing, also where they fail. -/
def Still (x : Steps Id α n β) : Prop :=
  ∀ r, (outcome x r).2.state.radius = r.state.radius ∧ (outcome x r).2.events = r.events

theorem still_iff_keeps {x : Steps Id α n β} :
    Still x ↔ Keeps (fun r => (r.state.radius, r.events)) x := by
  simp [Still, Keeps]

theorem Still.of_eq {x : Steps Id α n β} (still : Still x) {r r' : Run (State α) α n}
    {answer : Except (Error α) β} (eq : outcome x r = (answer, r')) :
    r'.state.radius = r.state.radius ∧ r'.events = r.events :=
  Prod.mk.inj ((still_iff_keeps.mp still).of_eq eq)

theorem Still.bind {x : Steps Id α n β} {f : β → Steps Id α n γ} (first : Still x)
    (rest : ∀ b, Still (f b)) : Still (x >>= f) :=
  still_iff_keeps.mpr
    ((still_iff_keeps.mp first).bind fun b => still_iff_keeps.mp (rest b))

theorem ask_still (operation : Attempt Id α β) : Still (n := n) (ask operation) :=
  fun _ => ⟨rfl, rfl⟩

variable (f : Objective Id α n)

theorem evaluate_still (x : Vector α n) : Still (evaluate f x) :=
  (ask_still (f.value x)).bind fun _ _ => ⟨rfl, rfl⟩

theorem gradientAt_still (x : Vector α n) : Still (gradientAt f x) :=
  (ask_still (f.gradient x)).bind fun _ _ => ⟨rfl, rfl⟩

theorem modelAt_still (x : Vector α n) : Still (modelAt f x) :=
  (ask_still (f.gradient x)).bind fun _ => (ask_still (f.hessian x)).bind fun _ _ => ⟨rfl, rfl⟩

variable [Scalar α]

theorem refresh_still (options : RunOptions) (p : Point α n) : Still (refresh f options p) := by
  unfold refresh
  split
  · exact fun _ => ⟨rfl, rfl⟩
  · refine (modelAt_still f p.location).bind fun model => ?_
    split
    · have checked : Still (n := n)
          (check (model.hessian.requireSymmetric SquareMatrix.symmetryTolerance)) :=
        fun _ => ⟨rfl, rfl⟩
      exact checked.bind fun _ _ => ⟨rfl, rfl⟩
    · exact fun _ => ⟨rfl, rfl⟩

theorem depart_radius {c : Config α} {options : RunOptions} {x : Vector α n}
    {r r' : Run (State α) α n} {answer : Except (Error α) (Point α n)}
    (ran : outcome (depart f c options x) r = (answer, r')) :
    r'.state.radius = c.initialRadius ∧ r'.events = r.events := by
  unfold depart prepare at ran
  simp only [bind_assoc] at ran
  rw [outcome_bind_of_ok (outcome_update _)] at ran
  refine Still.of_eq (r := { r with state := _ }) ?_ ran
  have rest : Still (do
      update fun s => { s with status := .running }
      trace options x
      let value ← evaluate f x
      pure (⟨x, value, none⟩ : Point α n)) := by
    refine Still.bind (fun _ => ⟨rfl, rfl⟩) fun _ => Still.bind (fun _ => ⟨rfl, rfl⟩) fun _ => ?_
    exact (evaluate_still f x).bind fun _ _ => ⟨rfl, rfl⟩
  split
  · rw [bind_assoc]
    exact (ask_still _).bind fun _ => rest
  · exact rest

def Reports (r r' : Run (State α) α n) : Prop :=
  ∀ event ∈ r'.events, event ∈ r.events ∨ ∀ ρ ∈ event.radius?, ρ = r'.state.radius

omit [Scalar α] in
theorem mem_of_mem_push {events : Array (Event α)} {newest event : Event α} {radius : α}
    (tells : ∀ ρ ∈ newest.radius?, ρ = radius) (reported : event ∈ events.push newest) :
    event ∈ events ∨ ∀ ρ ∈ event.radius?, ρ = radius := by
  rcases Array.mem_push.mp reported with earlier | rfl
  · exact .inl earlier
  · exact .inr tells

/-- An iteration fails before it changes the radius, or the radius follows some ratio and is
reported; only a step that is rejected in the least region ends the run. -/
theorem advance_cases (c : Config α) (options : RunOptions) (p : Point α n) (model : Model α n)
    (r : Run (State α) α n) :
    (∃ e r', outcome (advance f c options p model) r = (.error e, r') ∧
      r'.state.radius = r.state.radius ∧ r'.events = r.events) ∨
    ∃ ratio onBoundary next r', outcome (advance f c options p model) r =
        (.ok (if c.acceptance < ratio then .moved next
          else if r.state.radius ≤ c.leastRadius then .collapsed next else .moved next), r') ∧
      r'.state.radius = nextRadius c r.state.radius ratio onBoundary ∧ Reports r r' := by
  unfold advance
  rw [outcome_bind_of_ok outcome_state]
  dsimp only
  cases solved : Subproblem.solve c.method model.gradient model.hessian r.state.radius with
  | error e =>
      rw [outcome_bind_of_error (outcome_check _)]
      exact .inl ⟨e, r, rfl, rfl, rfl⟩
  | ok trial =>
      rw [outcome_bind_of_ok (outcome_check _)]
      rcases found : outcome (evaluate f (p.location + trial.step)) r with ⟨e | value, r₁⟩
      · rw [outcome_bind_of_error found]
        exact .inl ⟨e, r₁, rfl, (evaluate_still f _).of_eq found⟩
      · obtain ⟨radius_eq, events_eq⟩ := (evaluate_still f _).of_eq found
        unfold Reports
        rw [outcome_bind_of_ok found, outcome_bind_of_ok (outcome_update _), radius_eq,
          ← events_eq]
        refine .inr ⟨ratio p.value value trial.predictedReduction, trial.onBoundary, ?_⟩
        by_cases accepted : c.acceptance < ratio p.value value trial.predictedReduction
        · simp only [decide_eq_true accepted, if_true, if_pos accepted]
          exact ⟨_, _, rfl, rfl, fun event => mem_of_mem_push (by rintro _ ⟨⟩; rfl)⟩
        · by_cases least : r.state.radius ≤ c.leastRadius
          · simp only [decide_eq_false accepted, decide_eq_true least, Bool.false_eq_true, if_false,
              if_neg accepted, if_pos least]
            refine ⟨_, _, rfl, rfl, fun event reported => ?_⟩
            -- The warning of the collapse comes last and has no radius.
            rcases mem_of_mem_push (by rintro _ ⟨⟩) reported with earlier | none
            · exact mem_of_mem_push (by rintro _ ⟨⟩; rfl) earlier
            · exact .inr none
          · simp only [decide_eq_false accepted, decide_eq_false least, Bool.false_eq_true,
              if_false, Bool.and_false, if_neg accepted, if_neg least]
            exact ⟨_, _, rfl, rfl, fun event => mem_of_mem_push (by rintro _ ⟨⟩; rfl)⟩

theorem finish_radius {q : Point α n} {ending : Ending α} {r r' : Run (State α) α n}
    {answer : Except (Error α) (RunResult α n)}
    (ran : outcome (finish f q ending) r = (answer, r')) :
    r'.state.radius = r.state.radius ∧ Reports r r' ∧
      ∀ result, answer = .ok result → result.ending = ending ∧
        result.radius = some r.state.radius := by
  unfold finish at ran
  rw [outcome_bind_of_ok (outcome_update _)] at ran
  cases found : q.model with
  | some model =>
      rw [found] at ran
      cases ran
      refine ⟨rfl, fun event => mem_of_mem_push (by rintro _ ⟨⟩), ?_⟩
      rintro _ ⟨⟩
      exact ⟨rfl, rfl⟩
  | none =>
      rw [found] at ran
      rcases asked : outcome (gradientAt f q.location)
        { r with state := { r.state with status := ending.status } } with ⟨e | gradient, r₁⟩
      · obtain ⟨radius_eq, events_eq⟩ := (gradientAt_still f _).of_eq asked
        rw [outcome_bind_of_error asked] at ran
        cases ran
        exact ⟨radius_eq, fun event reported => .inl (events_eq ▸ reported), by simp⟩
      · obtain ⟨radius_eq, events_eq⟩ := (gradientAt_still f _).of_eq asked
        rw [outcome_bind_of_ok asked] at ran
        cases ran
        refine ⟨radius_eq, fun event reported => ?_, ?_⟩
        · rw [← show r₁.events = r.events from events_eq]
          exact mem_of_mem_push (by rintro _ ⟨⟩) reported
        · rintro _ ⟨⟩
          exact ⟨rfl, congrArg some radius_eq⟩

end Steps

section Range

variable {n : Nat} {f : Objective Id ℝ n} {c : Config ℝ} {options : RunOptions}
  {r r' : Run (State ℝ) ℝ n}

theorem nextRadius_of_rejected {radius ratio : ℝ} {onBoundary : Bool} (inRange : c.InRange)
    (radius_pos : 0 < radius) (rejected : ¬ c.acceptance < ratio) (least : radius ≤ c.leastRadius) :
    nextRadius c radius ratio onBoundary = c.leastRadius := by
  have low : ratio < c.shrinkThreshold := (not_lt.mp rejected).trans_lt inRange.acceptance_lt
  have shorter : c.shrinkFactor * radius ≤ radius :=
    mul_le_of_le_one_left radius_pos.le inRange.shrinkFactor_lt.le
  rw [nextRadius_of_lt low, max_eq_right (shorter.trans least)]

structure Within (c : Config ℝ) (r : Run (State ℝ) ℝ n) : Prop where
  radius_mem : r.state.radius ∈ Set.Icc c.leastRadius c.greatestRadius
  reported_mem : ∀ event ∈ r.events, ∀ ρ ∈ event.radius?,
    ρ ∈ Set.Icc c.leastRadius c.greatestRadius

theorem Within.of_still (within : Within c r)
    (still : r'.state.radius = r.state.radius ∧ r'.events = r.events) : Within c r' where
  radius_mem := still.1 ▸ within.radius_mem
  reported_mem := still.2 ▸ within.reported_mem

theorem Within.of_reports (within : Within c r) (reports : Reports r r')
    (radius_mem : r'.state.radius ∈ Set.Icc c.leastRadius c.greatestRadius) : Within c r' where
  radius_mem := radius_mem
  reported_mem := by
    intro event mem
    rcases reports event mem with earlier | latest
    · exact within.reported_mem event earlier
    · exact fun ρ mem => latest ρ mem ▸ radius_mem

/-- An iteration keeps the radius in range, and collapses with the least radius only. -/
theorem Within.advanced (inRange : c.InRange) (within : Within c r) {p : Point ℝ n}
    {model : Model ℝ n} {answer : Except (Error ℝ) (Progress ℝ n)}
    (ran : outcome (advance f c options p model) r = (answer, r')) :
    Within c r' ∧ ∀ q, answer = .ok (.collapsed q) → r'.state.radius = c.leastRadius := by
  obtain ⟨e, r₁, failed, still⟩ | ⟨ratio, onBoundary, next, r₁, completed, radius_eq, reports⟩ :=
    advance_cases f c options p model r
  · rw [ran] at failed
    cases failed
    exact ⟨within.of_still still, by simp⟩
  · rw [ran] at completed
    obtain ⟨rfl, rfl⟩ := Prod.mk.inj completed
    have radius_mem : r'.state.radius ∈ Set.Icc c.leastRadius c.greatestRadius := by
      rw [radius_eq]
      exact nextRadius_mem inRange within.radius_mem
    refine ⟨within.of_reports reports radius_mem, fun q collapsed => ?_⟩
    split_ifs at collapsed with accepted least
    · cases collapsed
    · rw [radius_eq]
      exact nextRadius_of_rejected inRange (inRange.least_pos.trans_le within.radius_mem.1)
        accepted least
    · cases collapsed

theorem Within.departed (inRange : c.InRange) {x : Vector ℝ n} {s : State ℝ}
    {answer : Except (Error ℝ) (Point ℝ n)}
    (ran : outcome (depart f c options x) ⟨s, x, #[], #[]⟩ = (answer, r')) : Within c r' := by
  obtain ⟨radius_eq, events_eq⟩ := depart_radius f ran
  refine ⟨?_, by simp [events_eq]⟩
  rw [radius_eq]
  exact ⟨inRange.least_le_initial, inRange.initial_le_greatest⟩

theorem Within.iterated (inRange : c.InRange) {limit remaining : Nat} {p : Point ℝ n}
    {answer : Except (Error ℝ) (Point ℝ n × Ending ℝ)} (within : Within c r)
    (ran : outcome (iterate f c options limit remaining p) r = (answer, r')) :
    Within c r' ∧ ∀ q ending, answer = .ok (q, ending) → ending.status = .stagnation →
      r'.state.radius = c.leastRadius := by
  induction remaining generalizing p r with
  | zero =>
      cases ran
      refine ⟨within, ?_⟩
      rintro _ _ ⟨⟩ ⟨⟩
  | succ remaining ih =>
      unfold iterate at ran
      rcases refreshed : outcome (refresh f options p) r with ⟨e | model, r₁⟩
      · rw [outcome_bind_of_error refreshed] at ran
        cases ran
        exact ⟨within.of_still ((refresh_still f options p).of_eq refreshed), by simp⟩
      · have within₁ := within.of_still ((refresh_still f options p).of_eq refreshed)
        rw [outcome_bind_of_ok refreshed] at ran
        split at ran
        · cases ran
          refine ⟨within₁, ?_⟩
          rintro _ _ ⟨⟩ ⟨⟩
        · rcases advanced : outcome (advance f c options p model) r₁ with ⟨e | progress, r₂⟩
          · rw [outcome_bind_of_error advanced] at ran
            cases ran
            exact ⟨(within₁.advanced inRange advanced).1, by simp⟩
          · obtain ⟨within₂, least⟩ := within₁.advanced inRange advanced
            rw [outcome_bind_of_ok advanced] at ran
            cases progress with
            | moved next => exact ih within₂ ran
            | collapsed last =>
                cases ran
                exact ⟨within₂, fun _ _ _ _ => least last rfl⟩

theorem run_within (inRange : c.InRange) {limit : Nat} {x : Vector ℝ n} {s : State ℝ}
    {answer : Except (Error ℝ) (RunResult ℝ n)}
    (ran : outcome (run f c options limit x) ⟨s, x, #[], #[]⟩ = (answer, r')) :
    Within c r' ∧ ∀ result, answer = .ok result → result.radius = some r'.state.radius ∧
      (result.status = .stagnation → r'.state.radius = c.leastRadius) := by
  unfold run at ran
  rcases departed : outcome (depart f c options x) ⟨s, x, #[], #[]⟩ with ⟨e | p, r₁⟩
  · rw [outcome_bind_of_error departed] at ran
    cases ran
    exact ⟨.departed inRange departed, by simp⟩
  · rw [outcome_bind_of_ok departed] at ran
    have within₁ := Within.departed inRange departed
    rcases iterated : outcome (iterate f c options limit limit p) r₁ with ⟨e | ⟨q, ending⟩, r₂⟩
    · rw [outcome_bind_of_error iterated] at ran
      cases ran
      exact ⟨(within₁.iterated inRange iterated).1, by simp⟩
    · rw [outcome_bind_of_ok iterated] at ran
      obtain ⟨within₂, least⟩ := within₁.iterated inRange iterated
      obtain ⟨radius_eq, reports, told⟩ := finish_radius f ran
      refine ⟨within₂.of_reports reports (radius_eq ▸ within₂.radius_mem), fun result ok => ?_⟩
      obtain ⟨ending_eq, result_radius⟩ := told result ok
      rw [radius_eq]
      exact ⟨result_radius, fun stagnation => least q ending rfl (ending_eq ▸ stagnation)⟩

theorem Reaches.within (inRange : c.InRange) {limit : Nat} {x : Vector ℝ n} {s : State ℝ}
    {done : List (Iteration ℝ n)} {progress : Progress ℝ n}
    (reached : Reaches f c options limit x s done r progress) : Within c r := by
  induction reached with
  | depart departed => exact .departed inRange departed
  | complete _ _ refreshed _ _ advanced ih =>
      have still := (refresh_still f options _).of_eq refreshed
      exact ((ih.of_still still).advanced inRange advanced).1

theorem Reaches.radius_of_collapsed (inRange : c.InRange) {limit : Nat} {x : Vector ℝ n}
    {s : State ℝ} {done : List (Iteration ℝ n)} {p : Point ℝ n}
    (reached : Reaches f c options limit x s done r (.collapsed p)) :
    r.state.radius = c.leastRadius := by
  cases reached with
  | complete before _ refreshed _ _ advanced =>
      have still := (refresh_still f options _).of_eq refreshed
      exact (((before.within inRange).of_still still).advanced inRange advanced).2 p rfl

/-- A call leaves a radius in range if it finds one, and so do its reports and its result. -/
theorem optimize_within (inRange : c.InRange) {s : State ℝ}
    (within : s.radius ∈ Set.Icc c.leastRadius c.greatestRadius) (dimension : Dimension)
    (start : Tensor ℝ) {call : Call (State ℝ) ℝ n}
    (called : Id.run (optimize f c dimension s start options) = call) :
    call.state.radius ∈ Set.Icc c.leastRadius c.greatestRadius ∧
    (∀ event ∈ call.events, ∀ ρ ∈ event.radius?, ρ ∈ Set.Icc c.leastRadius c.greatestRadius) ∧
    ∀ result, call.result = .ok result → result.radius = some call.state.radius ∧
      (result.status = .stagnation → call.state.radius = c.leastRadius) := by
  unfold optimize at called
  rcases requested : (checkRequest dimension c.iterationCap options.budget start :
    Except (Error ℝ) (Vector ℝ n × Nat)) with e | ⟨x, limit⟩
  · rw [Call.make_of_error requested] at called
    subst called
    exact ⟨within, by simp, by simp⟩
  · rw [Call.make_of_ok requested] at called
    rcases ran : outcome (run f c options limit x) ⟨s, x, #[], #[]⟩ with ⟨answer, r'⟩
    rw [ran] at called
    subst called
    obtain ⟨⟨radius_mem, reported_mem⟩, told⟩ := run_within inRange ran
    exact ⟨radius_mem, reported_mem, told⟩

/-- A state that an optimizer can have: it was created, and then run any number of times, each
time on any function and however the run ended. -/
inductive Used (c : Config ℝ) : State ℝ → Prop
  | create : Used c (.create c)
  | call {n : Nat} (f : Objective Id ℝ n) (dimension : Dimension) (start : Tensor ℝ)
      (options : RunOptions) {s : State ℝ} :
      Used c s → Used c (Id.run (optimize f c dimension s start options)).state

theorem Used.radius_mem (inRange : c.InRange) {s : State ℝ} (used : Used c s) :
    s.radius ∈ Set.Icc c.leastRadius c.greatestRadius := by
  induction used with
  | create => exact ⟨inRange.least_le_initial, inRange.initial_le_greatest⟩
  | call f dimension start options _ ih => exact (optimize_within inRange ih dimension start rfl).1

/-- Whatever an optimizer has been used for, its radius is in range; and it stays there in the
next call: wherever the run comes, in every report and in the result, which tells the radius
that is left.  A run that stagnates leaves the least radius. -/
theorem optimize_keeps_radius (valid : c.check = .ok ()) {s : State ℝ} (used : Used c s)
    (f : Objective Id ℝ n) (dimension : Dimension) (start : Tensor ℝ) (options : RunOptions) :
    s.radius ∈ Set.Icc c.leastRadius c.greatestRadius ∧
    (∀ limit x done r progress, Reaches f c options limit x s done r progress →
      r.state.radius ∈ Set.Icc c.leastRadius c.greatestRadius) ∧
    ∀ call, Id.run (optimize f c dimension s start options) = call →
      (∀ event ∈ call.events, ∀ ρ ∈ event.radius?,
        ρ ∈ Set.Icc c.leastRadius c.greatestRadius) ∧
      call.state.radius ∈ Set.Icc c.leastRadius c.greatestRadius ∧
      ∀ result, call.result = .ok result → result.radius = some call.state.radius ∧
        (result.status = .stagnation → call.state.radius = c.leastRadius) := by
  have inRange := Config.inRange valid
  refine ⟨used.radius_mem inRange, ?_, ?_⟩
  · intro limit x done r progress reached
    exact (reached.within inRange).radius_mem
  · intro call called
    obtain ⟨radius_mem, reported_mem, told⟩ :=
      optimize_within inRange (used.radius_mem inRange) dimension start called
    exact ⟨reported_mem, radius_mem, told⟩

theorem optimize_keeps_radius_square :
    ∃ s result, Used Config.defaults s ∧
      (Id.run (optimize Square.objective .defaults (.whole 1) s
        (.ofVector #v[(1 : ℝ)]) {})).result = .ok result ∧
      ∃ ρ ∈ Set.Icc (1e-10 : ℝ) 1e3, result.radius = some ρ := by
  have resolved : resolveBudget none (Config.defaults : Config ℝ).iterationCap =
      (.ok 100000 : Except (Error ℝ) Int) := rfl
  have accepted : checkRequest (.whole 1) (Config.defaults : Config ℝ).iterationCap
      ({} : RunOptions).budget (.ofVector #v[(1 : ℝ)]) = .ok (#v[1], 100000) :=
    checkRequest_ofVector (x := #v[1]) (fun _ => rfl) resolved
  have used := Used.call Square.objective (.whole 1) (.ofVector #v[(1 : ℝ)]) {}
    (.create (c := Config.defaults))
  obtain ⟨result, ok⟩ := exists_result "square" Square.value
    (Config.inRange Config.defaults_check) accepted (by simp) (by simp)
  obtain ⟨_, _, keeps⟩ := optimize_keeps_radius Config.defaults_check used _ _ _ _
  obtain ⟨_, radius_mem, told⟩ := keeps _ rfl
  exact ⟨_, result, used, ok, _, radius_mem, (told result ok).1⟩

end Range

end Descent.TrustRegion
