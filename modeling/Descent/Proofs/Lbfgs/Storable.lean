import Descent.Proofs.Lbfgs.Provenance
/-!
# Pairs that the search makes storable

The strong Wolfe search judges a step by the slope there, and the history judges the pair of the
move by its product.  If the search accepts a step, the slope along its direction has risen by a
fixed share, and the product of the pair is the step times this rise.  So it is positive, whether
or not the gradient is that of the function.
-/

namespace Descent.Lbfgs

open RunM

variable {n : Nat} {c : Config ℝ}

section Product

variable {value : Vector ℝ n → ℝ} {gradient : Vector ℝ n → Vector ℝ n} {p : Point ℝ n}
  {direction : Vector ℝ n} {step : ℝ}

theorem le_dot_of_accepts (valid : c.check = .ok ())
    (accepts : Wolfe.Accepts (.along value gradient p.location direction) c.wolfe p.value
      (dot p.gradient direction) step) :
    0 < (1 - c.curvature) * step * |dot p.gradient direction| ∧
      (1 - c.curvature) * step * |dot p.gradient direction| ≤
        dot (step * direction) (gradient (p.location + step * direction) - p.gradient) := by
  have falls := accepts.slope_neg
  obtain ⟨descends, first_pos⟩ := c.wolfe.descends (Config.wolfe_valid valid) p.value falls
  have step_pos : 0 < step := accepts.pos first_pos c.wolfe_longest_pos
  have curvature_lt : c.curvature < 1 := descends.curvature_lt
  obtain ⟨_, flat⟩ := accepts.meets
  rw [Wolfe.Target.isFlat_real, decide_eq_true_eq] at flat
  have risen : c.curvature * dot p.gradient direction ≤
      dot (gradient (p.location + step * direction)) direction := by
    have lower : -(-c.curvature * dot p.gradient direction) ≤
        dot (gradient (p.location + step * direction)) direction := neg_le_of_abs_le flat
    linarith
  rw [abs_of_neg falls]
  constructor
  · exact mul_pos (mul_pos (sub_pos.mpr curvature_lt) step_pos) (neg_pos.mpr falls)
  · calc (1 - c.curvature) * step * -dot p.gradient direction
        = step * (c.curvature * dot p.gradient direction - dot p.gradient direction) := by ring
      _ ≤ step * (dot (gradient (p.location + step * direction)) direction -
            dot p.gradient direction) :=
          mul_le_mul_of_nonneg_left (sub_le_sub_right risen _) step_pos.le
      _ = dot (step * direction) (gradient (p.location + step * direction) - p.gradient) := by
          rw [hmul_eq_smul, dot_smul_left, dot_comm direction, dot_sub_left]

end Product

section Iterations

variable {s : State ℝ n}

/-- An iteration whose first search accepts a step is completed along it, and the product of its
pair is at least a fixed share of what the slope promised.  If no positive product is too small the
pair is stored, and the history is longer by one unless it is full. -/
theorem optimize_stores_accepted_pairs (valid : c.check = .ok ()) (used : Used c s) (name : String)
    (value : Vector ℝ n → ℝ) (gradient : Vector ℝ n → Vector ℝ n)
    (hessian : Vector ℝ n → SquareMatrix ℝ n) (options : RunOptions) :
    ∀ limit x done r p,
      Reaches (.ofFunctions name value gradient hessian) c options limit x s done r p →
      done.length < limit → isConverged (norm p.gradient) c.gradientTolerance = false →
      ∀ step, Wolfe.Accepts (.along value gradient p.location (firstDirection r p)) c.wolfe p.value
        (dot p.gradient (firstDirection r p)) step →
      ∃ q r', outcome (advance (.ofFunctions name value gradient hessian) c options p) r =
          (.ok (.ok q), r') ∧
        Reaches (.ofFunctions name value gradient hessian) c options limit x s
          (⟨p, ⟨step, firstDirection r p⟩, q⟩ :: done) r' q ∧
        0 < (1 - c.curvature) * step * |dot p.gradient (firstDirection r p)| ∧
        (1 - c.curvature) * step * |dot p.gradient (firstDirection r p)| ≤
          dot (q.location - p.location) (q.gradient - p.gradient) ∧
        (c.curvatureThreshold = 0 →
          r'.state.history.pairs.getLast? =
            some (q.location - p.location, q.gradient - p.gradient) ∧
          r'.state.history.size = min c.historySize.toNat (r.state.history.size + 1)) := by
  intro limit x done r p reached before notConverged step accepts
  have inRange := Config.inRange valid
  obtain ⟨newestFirst, holds⟩ := (reached.sound inRange).holds
  obtain ⟨share_pos, share_le⟩ := le_dot_of_accepts valid accepts
  obtain ⟨y, r', advanced, reached', location_eq, history_eq⟩ :=
    reached.complete_of_accepts inRange before notConverged accepts
  have move_eq : step * firstDirection r p = y - p.location := eq_sub_of_add_eq' location_eq.symm
  rw [← location_eq, move_eq] at share_le
  refine ⟨.at value gradient y, r', advanced, reached', share_pos, share_le, ?_⟩
  intro threshold_eq
  have capacity_eq := (reached.traces inRange used.capacity_eq).capacity_eq
  have room : 0 < r.state.history.capacity := capacity_eq ▸ Config.historySize_pos valid
  have stored := holds.record_of_lt room threshold_eq.ge
    (threshold_eq.trans_lt (share_pos.trans_le share_le))
  rw [history_eq, ← capacity_eq]
  exact stored

theorem optimize_stores_accepted_pair_square :
    let c : Config ℝ := { Config.defaults with curvatureThreshold := 0 }
    c.check = .ok () ∧ Used c unused ∧
      ∃ r r' q move, Reaches Square.objective c {} 100000 #v[3] unused [] r
          (.at Square.value Square.gradient #v[3]) ∧
        Reaches Square.objective c {} 100000 #v[3] unused
          [⟨.at Square.value Square.gradient #v[3], move, q⟩] r' q ∧
        0 < dot (q.location - #v[3]) (q.gradient - Square.gradient #v[3]) ∧
        r'.state.history.size = 1 := by
  intro c
  have valid : c.check = .ok () := by
    norm_num [c, Config.check, Config.defaults, defaultGradientTolerance, defaultIterationCap]
  have used : Used (n := 1) c unused := .create rfl
  let r₀ : Run (State ℝ 1) ℝ 1 := ⟨⟨.running, 0, 1, 1, ⟨10, [], [], []⟩⟩, #v[3], #[], #[]⟩
  have departed : Reaches Square.objective c {} 100000 #v[3] unused [] r₀
      (.at Square.value Square.gradient #v[3]) := .depart rfl
  have large : (1 : ℝ) ≤ 3 := by norm_num
  have accepts : Wolfe.Accepts (.along Square.value Square.gradient #v[3]
      (firstDirection r₀ (.at Square.value Square.gradient #v[3]))) c.wolfe (Square.value #v[3])
      (dot (Square.gradient #v[3]) (firstDirection r₀ (.at Square.value Square.gradient #v[3])))
      1 := by
    rw [firstDirection_square large r₀ rfl]
    exact accepts_square large (by norm_num)
  obtain ⟨q, r', _, reached, share_pos, share_le, stores⟩ := optimize_stores_accepted_pairs valid
    used "square" Square.value Square.gradient Square.hessian {} 100000 #v[3] [] r₀ _
    departed (by norm_num) (notConverged_square large) 1 accepts
  exact ⟨valid, used, r₀, r', q, _, departed, reached, share_pos.trans_le share_le, (stores rfl).2⟩

end Iterations

end Descent.Lbfgs
