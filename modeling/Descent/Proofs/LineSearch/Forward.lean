import Descent.Proofs.LineSearch.Accepted
import Descent.Proofs.LineSearch.Backtracking
/-!
# Steps forward

In exact arithmetic both searches return only steps at which the function is at most the line of
decrease, so that a positive one lowers the function.  The settings decide whether it is positive:
backtracking keeps the sign of its first step, and a strong Wolfe search goes no further than its
longest one.  Neither of the two is checked.
-/

namespace Descent

namespace Wolfe

variable {φ φ' : ℝ → ℝ} {s : Settings ℝ} {start slope : ℝ}

structure Bracket.Within (φ : ℝ → ℝ) (t : Target ℝ) (bound : ℝ) (b : Bracket ℝ) : Prop where
  low_le : b.low ≤ bound
  high_le : b.high ≤ bound
  decreased : φ b.low ≤ t.bound b.low

theorem Bracket.Within.middle_le {t : Target ℝ} {bound : ℝ} {b : Bracket ℝ}
    (within : b.Within φ t bound) : b.middle ≤ bound := by
  have low_le := within.low_le
  have high_le := within.high_le
  unfold Bracket.middle
  norm_num
  linarith

theorem Bracket.Within.narrowed {t : Target ℝ} {bound : ℝ} {b b' : Bracket ℝ}
    (within : b.Within φ t bound) (narrowed : refine (.ofFunctions φ φ') t b = .narrowed b') :
    b'.Within φ t bound := by
  rcases refine_eq_narrowed narrowed with ⟨rfl, _⟩ | ⟨rfl, low, _⟩
  · exact ⟨within.low_le, within.middle_le, within.decreased⟩
  · refine ⟨within.middle_le, ?_, Target.le_bound low⟩
    change (if _ then b.low else b.high) ≤ bound
    split
    · exact within.low_le
    · exact within.high_le

theorem Lengthens.within (start_eq : start = φ 0) {trials : Nat} {isFirst : Bool}
    {previous : Trial ℝ} {step : ℝ}
    (lengthens : Lengthens (.ofFunctions φ φ') s start slope trials isFirst previous step) :
    previous.step ≤ max 0 s.longest ∧ step ≤ max 0 s.longest ∧
      φ previous.step ≤ (s.target start slope).bound previous.step := by
  induction lengthens with
  | first _ =>
      refine ⟨le_max_left _ _, ?_, ?_⟩
      · rw [Scalar.smaller_real]
        exact (min_le_right _ _).trans (le_max_right _ _)
      · simp [Target.bound, Settings.target, start_eq]
  | next _ lengthened ih =>
      obtain ⟨rfl, rfl, low, _⟩ := extend_eq_lengthened lengthened
      refine ⟨ih.2.1, ?_, Target.le_bound low⟩
      rw [Scalar.smaller_real]
      exact (min_le_right _ _).trans (le_max_right _ _)

theorem Zooms.within (start_eq : start = φ 0) {k : Nat} {b : Bracket ℝ}
    (zooms : Zooms (.ofFunctions φ φ') s start slope k b) :
    b.Within φ (s.target start slope) (max 0 s.longest) := by
  induction zooms with
  | opened lengthens bracketed =>
      obtain ⟨before_le, trial_le, decreased⟩ := lengthens.within start_eq
      rcases extend_eq_bracketed bracketed with ⟨rfl, _⟩ | ⟨rfl, low, _⟩
      · exact ⟨before_le, trial_le, decreased⟩
      · exact ⟨trial_le, before_le, Target.le_bound low⟩
  | narrowed _ narrowed _ ih => exact ih.narrowed narrowed

theorem Stops.within (start_eq : start = φ 0) {b : Bracket ℝ}
    (stops : Stops (.ofFunctions φ φ') s start slope b) :
    b.Within φ (s.target start slope) (max 0 s.longest) := by
  cases stops with
  | collapsed zooms narrowed _ => exact (zooms.within start_eq).narrowed narrowed
  | exhausted zooms => exact zooms.within start_eq

theorem Bracket.step?_eq_some {b : Bracket ℝ} {a : ℝ} (found : b.step? = some a) :
    a = b.low ∧ 0 < a := by
  unfold Bracket.step? at found
  split_ifs at found with positive
  cases found
  exact ⟨rfl, positive⟩

theorem Returns.within (start_eq : start = φ 0) {a : ℝ}
    (returns : Returns (.ofFunctions φ φ') s start slope a) :
    a ≤ max 0 s.longest ∧ φ a ≤ (s.target start slope).bound a := by
  cases returns with
  | trial lengthens accepted =>
      obtain ⟨rfl, low, _⟩ := extend_eq_accepted accepted
      exact ⟨(lengthens.within start_eq).2.1, Target.le_bound low⟩
  | middle zooms accepted =>
      obtain ⟨rfl, low, _⟩ := refine_eq_accepted accepted
      exact ⟨(zooms.within start_eq).middle_le, Target.le_bound low⟩
  | stopped stops found =>
      obtain ⟨rfl, _⟩ := Bracket.step?_eq_some found
      exact ⟨(stops.within start_eq).low_le, (stops.within start_eq).decreased⟩

theorem Returns.pos (step_pos : 0 < s.step) (longest_pos : 0 < s.longest) {a : ℝ}
    (returns : Returns (.ofFunctions φ φ') s start slope a) : 0 < a := by
  cases returns with
  | trial lengthens accepted => exact (Accepts.trial lengthens accepted).pos step_pos longest_pos
  | middle zooms accepted => exact (Accepts.middle zooms accepted).pos step_pos longest_pos
  | stopped _ found => exact (Bracket.step?_eq_some found).2

/-- Whether the steps of a search are positive is decided by the longest one. -/
theorem Returns.pos_iff (start_eq : start = φ 0) (step_pos : 0 < s.step) {a : ℝ}
    (returns : Returns (.ofFunctions φ φ') s start slope a) : 0 < a ↔ 0 < s.longest := by
  refine ⟨fun positive => ?_, fun longest_pos => returns.pos step_pos longest_pos⟩
  have le_longest := (returns.within start_eq).1
  exact (lt_max_iff.mp (positive.trans_le le_longest)).resolve_left (lt_irrefl 0)

end Wolfe

theorem lt_of_decrease {v start decrease a slope : ℝ} (decrease_pos : 0 < decrease)
    (slope_neg : slope < 0) (low : v ≤ start + decrease * a * slope) (step_pos : 0 < a) :
    v < start := by
  have share_neg : decrease * a * slope < 0 :=
    mul_neg_of_pos_of_neg (mul_pos decrease_pos step_pos) slope_neg
  linarith

theorem Armijo.forward_of_search {value : ℝ → Id ℝ} {s : Settings ℝ} {start slope : ℝ}
    (inRange : s.InRange) {evaluations : Nat} {found : ℝ × Nat}
    (ok : search value s start slope evaluations = .ok found) :
    (0 < found.1 ↔ 0 < s.step) ∧ (0 < found.1 → (value found.1).run < start) := by
  unfold search at ok
  split_ifs at ok with rises
  · cases ok
  · obtain ⟨k, _, found_eq, accepted⟩ := exists_of_backtrack ok
    have low := (Settings.acceptsAt_iff.mp accepted).2
    refine ⟨?_, lt_of_decrease inRange.decrease_pos (not_le.mp rises) low⟩
    rw [found_eq, Settings.shortened_eq]
    exact mul_pos_iff_of_pos_right (pow_pos inRange.shrink_pos k)

theorem Wolfe.forward_of_search {φ φ' : ℝ → ℝ} {s : Settings ℝ} (valid : s.check = .ok ())
    {known : Option ℝ} (known_eq : known.getD (φ 0) = φ 0) {slope : Id ℝ} {found : ℝ × Nat}
    (ok : search (.ofFunctions φ φ') s known slope = .ok found) :
    (0 < found.1 ↔ 0 < s.longest) ∧ (0 < found.1 → φ found.1 < φ 0) := by
  obtain ⟨slope_neg, returns⟩ := returns_of_search ok
  obtain ⟨descends, step_pos⟩ := s.descends valid (φ 0) slope_neg
  have low := (returns.within known_eq).2
  refine ⟨returns.pos_iff known_eq step_pos, lt_of_decrease descends.decrease_pos slope_neg ?_⟩
  rw [← known_eq]
  exact low

/-! ## A function of several variables -/

section Along

variable {n : Nat} {value : Vector ℝ n → ℝ} {gradient : Vector ℝ n → Vector ℝ n}
  {x direction : Vector ℝ n}

theorem add_zero_hmul (x direction : Vector ℝ n) : x + (0 : ℝ) * direction = x := by
  rw [hmul_eq_smul, zero_smul, add_zero]

theorem Armijo.searchAlong_first {s : Settings ℝ} {atStart : Vector ℝ n} {step : ℝ}
    (falls : dot atStart direction < 0) (trials_pos : 0 < s.trials) (step_eq : s.step = step)
    (low : value (x + step • direction) ≤ value x + s.decrease * step * dot atStart direction) :
    searchAlong value s none x direction atStart = .ok (step, 2) := by
  subst step_eq
  have accepted : s.acceptsAt (fun step => pure (value (x + step * direction))) (value x)
      (dot atStart direction) s.step := decide_eq_true low
  rw [searchAlong_eq, search, if_neg falls.not_ge]
  exact backtrack_of_accepts (fun i less => absurd less (Nat.not_lt_zero i))
    (fun i less => absurd less (Nat.not_lt_zero i)) trials_pos accepted 1

theorem Wolfe.search_first {s : Settings ℝ} {slope step : ℝ} (falls : slope < 0)
    (trials_pos : 0 < s.trials.toNat) (step_eq : min s.step s.longest = step)
    (low : value (x + step • direction) ≤ value x + s.decrease * step * slope)
    (flat : |dot (gradient (x + step • direction)) direction| ≤ -s.curvature * slope) :
    ∃ evaluations, search (.along value gradient x direction) s none (pure slope) =
      .ok (step, evaluations) := by
  refine Accepts.search_eq (.first falls trials_pos ?_ ?_ ?_)
  · rw [Scalar.smaller_real, step_eq]
  · rw [Target.tooHigh_real, decide_eq_false_iff_not, not_lt]
    change value (x + step • direction) ≤ value (x + (0 : ℝ) * direction) + _
    rw [add_zero_hmul]
    exact low
  · exact decide_eq_true flat

end Along

/-- Whatever settings pass their check, the step that a search returns is positive exactly if the
first step of backtracking, or the longest one of a strong Wolfe search, is positive; and where it
is positive the function is lower than at the start. -/
theorem searches_decrease_forward {n : Nat} (value : Vector ℝ n → ℝ)
    (gradient : Vector ℝ n → Vector ℝ n) (x direction : Vector ℝ n) (known : Option ℝ)
    (known_eq : known.getD (value x) = value x) :
    (∀ (s : Armijo.Settings ℝ) (atStart : Vector ℝ n) (a : ℝ) (evaluations : Nat),
      s.check = .ok () →
      Armijo.searchAlong value s known x direction atStart = .ok (a, evaluations) →
        (0 < a ↔ 0 < s.step) ∧ (0 < a → value (x + a • direction) < value x)) ∧
    (∀ (s : Wolfe.Settings ℝ) (slope a : ℝ) (evaluations : Nat), s.check = .ok () →
      Wolfe.search (.along value gradient x direction) s known (pure slope) =
        .ok (a, evaluations) →
        (0 < a ↔ 0 < s.longest) ∧ (0 < a → value (x + a • direction) < value x)) := by
  constructor
  · intro s atStart a evaluations valid ok
    rw [Armijo.searchAlong_eq, known_eq] at ok
    exact Armijo.forward_of_search (Armijo.Settings.inRange_of_check valid) ok
  · intro s slope a evaluations valid ok
    have forward := Wolfe.forward_of_search valid (by simpa only [add_zero_hmul] using known_eq) ok
    simp only [add_zero_hmul] at forward
    exact forward

theorem searches_decrease_forward_square :
    let value : Vector ℝ 1 → ℝ := Square.value
    let gradient : Vector ℝ 1 → Vector ℝ 1 := Square.gradient
    (Armijo.searchAlong value Armijo.defaults none #v[1] #v[-1] (gradient #v[1]) = .ok (1, 2) ∧
      value (#v[1] + (1 : ℝ) • #v[-1]) < value #v[1]) ∧
    (∃ evaluations, Wolfe.search (.along value gradient #v[1] #v[-1]) Wolfe.defaults none
        (pure (dot (gradient #v[1]) #v[-1])) = .ok (1, evaluations)) ∧
      value (#v[1] + (1 : ℝ) • #v[-1]) < value #v[1] := by
  intro value gradient
  have start_eq : value #v[1] = 1 := by norm_num [value, Square.value, dot_eq_sum]
  have end_eq : #v[1] + (1 : ℝ) • #v[(-1 : ℝ)] = #v[0] := by
    ext i hi
    simp
  have value_eq : value #v[0] = 0 := by norm_num [value, Square.value, dot_eq_sum]
  have slope_eq : dot (gradient #v[1]) #v[-1] = -2 := by
    norm_num [gradient, Square.gradient, dot_eq_sum]
  have flat : dot (gradient #v[0]) #v[-1] = 0 := by
    norm_num [gradient, Square.gradient, dot_eq_sum]
  have falls : dot (gradient #v[1]) #v[-1] < 0 := by
    rw [slope_eq]
    norm_num
  have backtracked : Armijo.searchAlong value Armijo.defaults none #v[1] #v[-1]
      (gradient #v[1]) = .ok (1, 2) := by
    refine Armijo.searchAlong_first falls (by norm_num [Armijo.defaults])
      (by norm_num [Armijo.defaults]) ?_
    rw [end_eq, value_eq, start_eq, slope_eq]
    norm_num [Armijo.defaults]
  obtain ⟨evaluations, searched⟩ : ∃ evaluations, Wolfe.search
      (.along value gradient #v[1] #v[-1]) Wolfe.defaults none
      (pure (dot (gradient #v[1]) #v[-1])) = .ok (1, evaluations) := by
    refine Wolfe.search_first falls (by norm_num [Wolfe.defaults])
      (by norm_num [Wolfe.defaults]) ?_ ?_
    · rw [end_eq, value_eq, start_eq, slope_eq]
      norm_num [Wolfe.defaults]
    · rw [end_eq, flat, slope_eq]
      norm_num [Wolfe.defaults]
  obtain ⟨backtracking, wolfe⟩ :=
    searches_decrease_forward value gradient #v[1] #v[-1] none rfl
  exact ⟨⟨backtracked, (backtracking _ _ _ _ (by norm_num [Armijo.Settings.check, Armijo.defaults])
      backtracked).2 one_pos⟩,
    ⟨evaluations, searched⟩, (wolfe _ _ _ _ (by norm_num [Wolfe.Settings.check, Wolfe.defaults])
      searched).2 one_pos⟩

/-- A negative first step, or a negative longest one, is accepted and returned: along minus one
it leads from zero to two, where this function is as high as at the start. -/
theorem searches_return_backward_step :
    let value : Vector ℝ 1 → ℝ := fun y => first y * (2 - first y) ^ 2
    let gradient : Vector ℝ 1 → Vector ℝ 1 := fun y => #v[(2 - first y) * (2 - 3 * first y)]
    let shorter : Armijo.Settings ℝ := { Armijo.defaults with step := -2 }
    let bounded : Wolfe.Settings ℝ := { Wolfe.defaults with longest := -2 }
    (shorter.check = .ok () ∧
      Armijo.searchAlong value shorter none #v[0] #v[-1] (gradient #v[0]) = .ok (-2, 2)) ∧
    (bounded.check = .ok () ∧
      ∃ evaluations, Wolfe.search (.along value gradient #v[0] #v[-1]) bounded none
        (pure (dot (gradient #v[0]) #v[-1])) = .ok (-2, evaluations)) ∧
    ¬ 0 < (-2 : ℝ) ∧ ¬ value (#v[0] + (-2 : ℝ) • #v[-1]) < value #v[0] := by
  intro value gradient shorter bounded
  have end_eq : #v[0] + (-2 : ℝ) • #v[(-1 : ℝ)] = #v[2] := by
    ext i hi
    simp [← hmul_eq_smul]
  have start_eq : value #v[0] = 0 := by norm_num [value, first]
  have value_eq : value #v[2] = 0 := by norm_num [value, first]
  have slope_eq : dot (gradient #v[0]) #v[-1] = -4 := by
    norm_num [gradient, first, dot_eq_sum]
  have flat : dot (gradient #v[2]) #v[-1] = 0 := by
    norm_num [gradient, first, dot_eq_sum]
  have falls : dot (gradient #v[0]) #v[-1] < 0 := by
    rw [slope_eq]
    norm_num
  refine ⟨⟨?_, ?_⟩, ⟨?_, ?_⟩, by norm_num, ?_⟩
  · norm_num [Armijo.Settings.check, Armijo.defaults, shorter]
  · refine Armijo.searchAlong_first falls (by norm_num [Armijo.defaults, shorter]) rfl ?_
    rw [end_eq, value_eq, start_eq, slope_eq]
    norm_num [Armijo.defaults, shorter]
  · norm_num [Wolfe.Settings.check, Wolfe.defaults, bounded]
  · refine Wolfe.search_first falls (by norm_num [Wolfe.defaults, bounded])
      (by norm_num [Wolfe.defaults, bounded]) ?_ ?_
    · rw [end_eq, value_eq, start_eq, slope_eq]
      norm_num [Wolfe.defaults, bounded]
    · rw [end_eq, flat, slope_eq]
      norm_num [Wolfe.defaults, bounded]
  · rw [end_eq, value_eq, start_eq]
    exact lt_irrefl 0

end Descent
