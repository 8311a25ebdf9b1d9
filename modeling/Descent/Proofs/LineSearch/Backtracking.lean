import Descent.Proofs.Extended.Linear
import Descent.Proofs.LineSearch.Decrease
import Descent.Proofs.Square
/-!
# The trials of backtracking

In exact arithmetic a search tries its first step times the powers of its factor, within its
budget and, from the second one on, down to the least step.  It returns the largest one at which
the function is finite and low enough, and fails only if there is none.
-/

namespace Descent.Armijo

open Extended

def Settings.extend (s : Settings ℝ) : Settings Extended where
  step := real s.step
  shrink := real s.shrink
  decrease := real s.decrease
  trials := s.trials

structure Settings.InRange (s : Settings ℝ) : Prop where
  decrease_pos : 0 < s.decrease
  decrease_lt : s.decrease < 1
  shrink_pos : 0 < s.shrink
  shrink_lt : s.shrink < 1

theorem Settings.inRange_of_check {s : Settings ℝ} (valid : s.check = .ok ()) : s.InRange := by
  unfold Settings.check at valid
  split_ifs at valid with decrease shrink
  exact ⟨decrease.1, decrease.2, shrink.1, shrink.2⟩

section Tried

variable (s : Settings ℝ)

/-- The trials within the budget; only the first may be shorter than the least step. -/
noncomputable def Settings.tried : Finset ℕ :=
  {j ∈ Finset.range s.trials | j = 0 ∨ 1e-16 ≤ s.step * s.shrink ^ j}

/-- The trials at which a function is finite and low enough. -/
def Settings.acceptable (φ : ℝ → Extended) (start slope : ℝ) : Set ℕ :=
  {j | j ∈ s.tried ∧ ∃ v : ℝ, φ (s.step * s.shrink ^ j) = real v ∧
    v ≤ start + s.decrease * (s.step * s.shrink ^ j) * slope}

variable {s}

theorem Settings.mem_tried {j : ℕ} :
    j ∈ s.tried ↔ j < s.trials ∧ (j = 0 ∨ 1e-16 ≤ s.step * s.shrink ^ j) := by
  rw [tried, Finset.mem_filter, Finset.mem_range]

theorem Settings.card_tried_le : s.tried.card ≤ s.trials :=
  (Finset.card_filter_le _ _).trans_eq (Finset.card_range _)

variable (inRange : s.InRange) (step_pos : 0 < s.step)

include inRange step_pos

theorem Settings.isLowerSet_tried : IsLowerSet (s.tried : Set ℕ) := by
  intro k j le tried
  obtain ⟨within, first | long⟩ := mem_tried.mp tried
  · exact mem_tried.mpr ⟨le.trans_lt within, .inl (by omega)⟩
  · refine mem_tried.mpr ⟨le.trans_lt within, .inr (long.trans ?_)⟩
    exact mul_le_mul_of_nonneg_left
      (pow_le_pow_of_le_one inRange.shrink_pos.le inRange.shrink_lt.le le) step_pos.le

theorem Settings.mem_tried_iff_lt {j : ℕ} : j ∈ s.tried ↔ j < s.tried.card := by
  obtain everything | ⟨k, below⟩ := (isLowerSet_tried inRange step_pos).eq_univ_or_Iio
  · have unbounded : s.trials ∈ (s.tried : Set ℕ) := everything ▸ Set.mem_univ _
    exact absurd (mem_tried.mp unbounded).1 (lt_irrefl _)
  · have tried_eq : s.tried = Finset.range k := by
      rw [← Finset.coe_inj, below, Finset.coe_range]
    rw [tried_eq, Finset.card_range, Finset.mem_range]

/-- Trials end with the budget or because the next one would be too short. -/
theorem Settings.card_tried : s.tried.card = s.trials ∨
    0 < s.tried.card ∧ s.step * s.shrink ^ s.tried.card < 1e-16 := by
  have ended : s.tried.card ∉ s.tried := fun absurd =>
    lt_irrefl _ ((mem_tried_iff_lt inRange step_pos).mp absurd)
  rw [mem_tried, not_and, not_or, not_le] at ended
  by_cases within : s.tried.card < s.trials
  · obtain ⟨nonzero, short⟩ := ended within
    exact .inr ⟨Nat.pos_of_ne_zero nonzero, short⟩
  · exact .inl (card_tried_le.antisymm (not_lt.mp within))

end Tried

section Search

variable {s : Settings ℝ} {value : Extended → Id Extended} {start slope : ℝ}

theorem shortened_extend (s : Settings ℝ) (k : Nat) :
    s.extend.shortened s.extend.step k = real (s.step * s.shrink ^ k) :=
  Settings.shortened_real rfl s.step k

theorem leastStep_eq : (leastStep : Extended) = real 1e-16 := rfl

theorem acceptsAt_extend {a : ℝ} :
    s.extend.acceptsAt value (real start) (real slope) (real a) = true ↔
      ∃ v : ℝ, (value (real a)).run = real v ∧ v ≤ start + s.decrease * a * slope := by
  rw [Settings.acceptsAt_iff]
  constructor
  · rintro ⟨finite, low⟩
    obtain ⟨v, value_eq⟩ := eq_real_of_isFinite finite
    rw [value_eq] at low
    exact ⟨v, value_eq, low⟩
  · rintro ⟨v, value_eq, low⟩
    rw [value_eq]
    exact ⟨rfl, low⟩

variable (inRange : s.InRange) (step_pos : 0 < s.step)

include inRange step_pos

/-- The first trial that is acceptable is the one that a search returns. -/
theorem backtrack_of_isLeast {j : ℕ}
    (first : IsLeast (s.acceptable (fun a => (value (real a)).run) start slope) j)
    (evaluations : Nat) :
    backtrack value s.extend (real start) (real slope) s.trials s.extend.step evaluations =
      .ok (real (s.step * s.shrink ^ j), evaluations + j + 1) := by
  obtain ⟨⟨tried, accepted⟩, least⟩ := first
  have earlier {i : ℕ} (le : i ≤ j) : i ∈ s.tried :=
    Settings.isLowerSet_tried inRange step_pos le tried
  rw [← shortened_extend]
  refine backtrack_of_accepts (fun i less => ?_) (fun i less => ?_) (Settings.mem_tried.mp tried).1
    ?_ evaluations
  · rw [shortened_extend, acceptsAt_extend]
    exact fun low => less.not_ge (least ⟨earlier less.le, low⟩)
  · rw [shortened_extend, leastStep_eq, real_lt, not_lt]
    exact (Settings.mem_tried.mp (earlier less)).2.resolve_left (Nat.succ_ne_zero i)
  · rw [shortened_extend, acceptsAt_extend]
    exact accepted

theorem backtrack_of_acceptable_eq_empty
    (none : s.acceptable (fun a => (value (real a)).run) start slope = ∅) (evaluations : Nat) :
    backtrack value s.extend (real start) (real slope) s.trials s.extend.step evaluations =
      .fail .noDecrease (real (s.step * s.shrink ^ s.tried.card))
        (evaluations + s.tried.card) := by
  rw [← shortened_extend]
  refine backtrack_of_rejected (fun i less => ?_) (fun i less => ?_) Settings.card_tried_le ?_
    evaluations
  · rw [shortened_extend, acceptsAt_extend]
    exact fun low => none.le ⟨(Settings.mem_tried_iff_lt inRange step_pos).mpr less, low⟩
  · have tried := (Settings.mem_tried_iff_lt inRange step_pos).mpr less
    rw [shortened_extend, leastStep_eq, real_lt, not_lt]
    exact (Settings.mem_tried.mp tried).2.resolve_left (Nat.succ_ne_zero i)
  · rw [shortened_extend, leastStep_eq, real_lt]
    exact Settings.card_tried inRange step_pos

end Search

section Answer

def searchAlong {α : Type} [Scalar α] {n : Nat} (value : Vector α n → α) (s : Settings α)
    (known : Option α) (x direction gradient : Vector α n) : SearchResult α :=
  (searchFrom (fun step => pure (value (x + step * direction))) s known (pure (value x))
    (pure (dot gradient direction)) : Id (SearchResult α)).run

theorem searchAlong_eq {α : Type} [Scalar α] {n : Nat} (value : Vector α n → α) (s : Settings α)
    (known : Option α) (x direction gradient : Vector α n) :
    searchAlong value s known x direction gradient =
      search (fun step => (pure (value (x + step * direction)) : Id α)) s
        (known.getD (value x)) (dot gradient direction) (if known.isSome then 0 else 1) := by
  cases known <;> rfl

variable {n : Nat}

/-- From a finite start and along a falling slope a search returns its first step times the
largest power of its factor that is acceptable, with one evaluation for each power tried; if none
is, it fails after as many evaluations as there are trials.  A start that is not known costs one
more. -/
theorem searchAlong_takes_largest {s : Settings ℝ} (valid : s.check = .ok ())
    (step_pos : 0 < s.step) (value : Vector Extended n → Extended)
    (x direction gradient : Vector ℝ n) (falls : dot gradient direction < 0)
    (known : Option Extended) {start : ℝ}
    (start_eq : known.getD (value (embed x)) = real start) :
    let result := searchAlong value s.extend known (embed x) (embed direction) (embed gradient)
    let acceptable := s.acceptable (fun a => value (embed (x + a • direction))) start
      (dot gradient direction)
    let spent := if known.isSome then 0 else 1
    (acceptable.Nonempty → ∃ j, IsLeast acceptable j ∧
      result = .ok (real (s.step * s.shrink ^ j), j + 1 + spent)) ∧
    (acceptable = ∅ → result = .error
      ⟨.noDecrease, real (s.step * s.shrink ^ s.tried.card), s.tried.card + spent⟩) := by
  intro result acceptable spent
  have inRange := Settings.inRange_of_check valid
  let φ : Extended → Id Extended := fun step => pure (value (embed x + step * embed direction))
  have along : (fun a => (φ (real a)).run) = fun a => value (embed (x + a • direction)) := by
    funext a
    rw [← embed_add, ← real_mul_embed]
    rfl
  have notRising : ¬ (0 : Extended) ≤ real (dot gradient direction) := falls.not_ge
  have result_eq : result = backtrack φ s.extend (real start) (real (dot gradient direction))
      s.trials s.extend.step spent := by
    change searchAlong _ _ _ _ _ _ = _
    rw [searchAlong_eq, dot_embed, start_eq]
    exact if_neg notRising
  have acceptable_eq : acceptable = s.acceptable (fun a => (φ (real a)).run) start
      (dot gradient direction) := by
    rw [along]
  rw [result_eq, acceptable_eq]
  constructor
  · intro nonempty
    have first : IsLeast _ (sInf _) := ⟨Nat.sInf_mem nonempty, fun _ => Nat.sInf_le⟩
    refine ⟨_, first, (backtrack_of_isLeast inRange step_pos first spent).trans ?_⟩
    congr 2
    omega
  · intro none
    rw [backtrack_of_acceptable_eq_empty inRange step_pos none, Nat.add_comm]
    rfl

/-- The square of a number from one along minus four: the first step overshoots, its half comes
back to the value at the start, and its quarter to zero. -/
theorem searchAlong_takes_largest_square :
    (defaults : Settings ℝ).check = .ok () ∧ 0 < (defaults : Settings ℝ).step ∧
      dot (#v[2] : Vector ℝ 1) #v[-4] < 0 ∧
      searchAlong Square.value (defaults : Settings ℝ).extend none (embed #v[1])
        (embed #v[-4]) (embed #v[2]) = .ok (real (1 / 4), 4) := by
  have valid : (defaults : Settings ℝ).check = .ok () := by
    norm_num [Settings.check, defaults]
  have step_pos : 0 < (defaults : Settings ℝ).step := by
    norm_num [defaults]
  have product (y z : Vector ℝ 1) : dot y z = 0 + y.get 0 * z.get 0 := rfl
  have slope_eq : dot (#v[2] : Vector ℝ 1) #v[-4] = -8 := by
    rw [product]
    norm_num
  have falls : dot (#v[2] : Vector ℝ 1) #v[-4] < 0 := by
    rw [slope_eq]
    norm_num
  have values (a : ℝ) : dot (#v[1] + a • #v[-4] : Vector ℝ 1) (#v[1] + a • #v[-4]) =
      (1 - 4 * a) ^ 2 := by
    rw [product]
    simp [← hmul_eq_smul]
    ring
  have start_eq : (none : Option Extended).getD (Square.value (embed #v[1])) = real 1 := by
    rw [Option.getD_none, Square.value, dot_embed, product]
    norm_num
  obtain ⟨found, _⟩ := searchAlong_takes_largest valid step_pos
    Square.value #v[1] #v[-4] #v[2] falls none start_eq
  simp only [Square.value, dot_embed, values, slope_eq] at found
  have second : 2 ∈ (defaults : Settings ℝ).acceptable (fun a => real ((1 - 4 * a) ^ 2)) 1 (-8) :=
    ⟨Settings.mem_tried.mpr ⟨by norm_num [defaults], .inr (by norm_num [defaults])⟩,
      _, rfl, by norm_num [defaults]⟩
  obtain ⟨j, ⟨⟨_, v, value_eq, low⟩, least⟩, result_eq⟩ := found ⟨2, second⟩
  obtain rfl : j = 2 := by
    have le := least second
    interval_cases j
    · cases value_eq
      norm_num [defaults] at low
    · cases value_eq
      norm_num [defaults] at low
    · rfl
  refine ⟨valid, step_pos, falls, result_eq.trans ?_⟩
  norm_num [defaults]

end Answer

end Descent.Armijo
