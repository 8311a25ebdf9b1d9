import Descent.Lbfgs.Config
import Descent.Proofs.Binary64
import Descent.Proofs.Run
import Descent.TrustRegion.Config
/-!
# Settings that are accepted

The checks of both optimizers accept the settings that are in their ranges and refuse the others
with an error that names a range that is left.  Undefined numbers are the exception: a range that
is tested by what lies outside it, like that of the tolerance, does not keep them out.
-/

namespace Descent

open Binary64

namespace Lbfgs.Config

structure IsOrdered (c : Config Float) : Prop where
  historySize_ge : 1 ≤ c.historySize
  decrease_pos : 0 < c.decrease
  decrease_lt : c.decrease < c.curvature
  curvature_lt : c.curvature < 1
  lineSearchTrials_ge : 1 ≤ c.lineSearchTrials
  iterationCap_ge : 1 ≤ c.iterationCap

structure IsValid (c : Config Float) : Prop extends c.IsOrdered where
  gradientTolerance_pos : 0 < c.gradientTolerance
  curvatureThreshold_nonneg : 0 ≤ c.curvatureThreshold

/-- Valid settings, or such as would be with a number in the place of an undefined one. -/
structure Passes (c : Config Float) : Prop extends c.IsOrdered where
  gradientTolerance_pos : 0 < c.gradientTolerance ∨ c.gradientTolerance.isNaN = true
  curvatureThreshold_nonneg : 0 ≤ c.curvatureThreshold ∨ c.curvatureThreshold.isNaN = true

inductive Breaks (c : Config Float) : SettingFault Float → Prop
  | historySize : c.historySize < 1 → Breaks c (.historySize c.historySize)
  | gradientTolerance : c.gradientTolerance ≤ 0 → Breaks c .gradientTolerance
  | wolfeConstants : ¬(0 < c.decrease ∧ c.decrease < c.curvature ∧ c.curvature < 1) →
      Breaks c (.wolfeConstants c.decrease c.curvature)
  | curvatureThreshold : c.curvatureThreshold < 0 → Breaks c .curvatureThreshold
  | lineSearchBudget : c.lineSearchTrials < 1 → Breaks c .lineSearchBudget
  | iterationCap : c.iterationCap < 1 → Breaks c .iterationCap

variable (c : Config Float)

theorem check_eq_ok_iff : c.check = .ok () ↔ c.Passes := by
  unfold check
  constructor
  · intro accepted
    split_ifs at accepted with size tolerance wolfe threshold trials cap
    exact {
      historySize_ge := not_lt.mp size
      decrease_pos := wolfe.1
      decrease_lt := wolfe.2.1
      curvature_lt := wolfe.2.2
      lineSearchTrials_ge := not_lt.mp trials
      iterationCap_ge := not_lt.mp cap
      gradientTolerance_pos := (not_le_iff rfl).mp tolerance
      curvatureThreshold_nonneg := (not_lt_iff rfl).mp threshold }
  · intro passes
    have wolfe : 0 < c.decrease ∧ c.decrease < c.curvature ∧ c.curvature < 1 :=
      ⟨passes.decrease_pos, passes.decrease_lt, passes.curvature_lt⟩
    rw [if_neg passes.historySize_ge.not_gt,
      if_neg ((not_le_iff rfl).mpr passes.gradientTolerance_pos), if_neg (not_not.mpr wolfe),
      if_neg ((not_lt_iff rfl).mpr passes.curvatureThreshold_nonneg),
      if_neg passes.lineSearchTrials_ge.not_gt, if_neg passes.iterationCap_ge.not_gt]

/-- What is not accepted is refused by the name of a range that is left. -/
theorem check_eq_ok_or_breaks :
    c.check = .ok () ∨ ∃ fault, c.Breaks fault ∧ c.check = .error (.setting fault) := by
  unfold check
  split_ifs with size tolerance wolfe threshold trials cap
  · exact .inr ⟨_, .historySize size, rfl⟩
  · exact .inr ⟨_, .gradientTolerance tolerance, rfl⟩
  · exact .inr ⟨_, .curvatureThreshold threshold, rfl⟩
  · exact .inr ⟨_, .lineSearchBudget trials, rfl⟩
  · exact .inr ⟨_, .iterationCap cap, rfl⟩
  · exact .inl rfl
  · exact .inr ⟨_, .wolfeConstants wolfe, rfl⟩

theorem isValid_iff :
    c.IsValid ↔ c.Passes ∧ c.gradientTolerance.isNaN = false ∧
      c.curvatureThreshold.isNaN = false := by
  constructor
  · intro valid
    exact ⟨⟨valid.toIsOrdered, .inl valid.gradientTolerance_pos,
      .inl valid.curvatureThreshold_nonneg⟩, defined_of_lt valid.gradientTolerance_pos,
      defined_of_le valid.curvatureThreshold_nonneg⟩
  · rintro ⟨passes, tolerance, threshold⟩
    exact ⟨passes.toIsOrdered,
      passes.gradientTolerance_pos.resolve_right (ne_true_of_eq_false tolerance),
      passes.curvatureThreshold_nonneg.resolve_right (ne_true_of_eq_false threshold)⟩

end Lbfgs.Config

namespace TrustRegion.Config

structure IsOrdered (c : Config Float) : Prop where
  leastRadius_pos : 0 < c.leastRadius
  leastRadius_lt : c.leastRadius < c.greatestRadius
  leastRadius_le : c.leastRadius ≤ c.initialRadius
  initialRadius_le : c.initialRadius ≤ c.greatestRadius
  acceptance_nonneg : 0 ≤ c.acceptance
  acceptance_lt : c.acceptance < c.shrinkThreshold
  shrinkThreshold_lt : c.shrinkThreshold < c.growThreshold
  growThreshold_lt : c.growThreshold < 1
  shrinkFactor_pos : 0 < c.shrinkFactor
  shrinkFactor_lt : c.shrinkFactor < 1
  iterationCap_ge : 1 ≤ c.iterationCap

structure IsValid (c : Config Float) : Prop extends c.IsOrdered where
  growFactor_gt : 1 < c.growFactor
  gradientTolerance_pos : 0 < c.gradientTolerance

structure Passes (c : Config Float) : Prop extends c.IsOrdered where
  growFactor_gt : 1 < c.growFactor ∨ c.growFactor.isNaN = true
  gradientTolerance_pos : 0 < c.gradientTolerance ∨ c.gradientTolerance.isNaN = true

inductive Breaks (c : Config Float) : SettingFault Float → Prop
  | radiusRange : ¬(0 < c.leastRadius ∧ c.leastRadius < c.greatestRadius) →
      Breaks c (.radiusRange c.leastRadius c.greatestRadius)
  | initialRadius : ¬(c.leastRadius ≤ c.initialRadius ∧ c.initialRadius ≤ c.greatestRadius) →
      Breaks c .initialRadius
  | ratioThresholds : ¬(0 ≤ c.acceptance ∧ c.acceptance < c.shrinkThreshold ∧
      c.shrinkThreshold < c.growThreshold ∧ c.growThreshold < 1) → Breaks c .ratioThresholds
  | shrinkFactor : ¬(0 < c.shrinkFactor ∧ c.shrinkFactor < 1) → Breaks c .shrinkFactor
  | growFactor : c.growFactor ≤ 1 → Breaks c .growFactor
  | gradientTolerance : c.gradientTolerance ≤ 0 → Breaks c .gradientTolerance
  | iterationCap : c.iterationCap < 1 → Breaks c .iterationCap

section Check

variable (c : Config Float)

theorem check_eq_ok_iff : c.check = .ok () ↔ c.Passes := by
  unfold check
  constructor
  · intro accepted
    split_ifs at accepted with radii initial ratios shrink grow tolerance cap
    exact {
      leastRadius_pos := radii.1
      leastRadius_lt := radii.2
      leastRadius_le := initial.1
      initialRadius_le := initial.2
      acceptance_nonneg := ratios.1
      acceptance_lt := ratios.2.1
      shrinkThreshold_lt := ratios.2.2.1
      growThreshold_lt := ratios.2.2.2
      shrinkFactor_pos := shrink.1
      shrinkFactor_lt := shrink.2
      iterationCap_ge := not_lt.mp cap
      growFactor_gt := (not_le_iff rfl).mp grow
      gradientTolerance_pos := (not_le_iff rfl).mp tolerance }
  · intro passes
    have radii : 0 < c.leastRadius ∧ c.leastRadius < c.greatestRadius :=
      ⟨passes.leastRadius_pos, passes.leastRadius_lt⟩
    have initial : c.leastRadius ≤ c.initialRadius ∧ c.initialRadius ≤ c.greatestRadius :=
      ⟨passes.leastRadius_le, passes.initialRadius_le⟩
    have ratios : 0 ≤ c.acceptance ∧ c.acceptance < c.shrinkThreshold ∧
        c.shrinkThreshold < c.growThreshold ∧ c.growThreshold < 1 :=
      ⟨passes.acceptance_nonneg, passes.acceptance_lt, passes.shrinkThreshold_lt,
        passes.growThreshold_lt⟩
    have shrink : 0 < c.shrinkFactor ∧ c.shrinkFactor < 1 :=
      ⟨passes.shrinkFactor_pos, passes.shrinkFactor_lt⟩
    rw [if_neg (not_not.mpr radii), if_neg (not_not.mpr initial), if_neg (not_not.mpr ratios),
      if_neg (not_not.mpr shrink), if_neg ((not_le_iff rfl).mpr passes.growFactor_gt),
      if_neg ((not_le_iff rfl).mpr passes.gradientTolerance_pos),
      if_neg passes.iterationCap_ge.not_gt]

theorem check_eq_ok_or_breaks :
    c.check = .ok () ∨ ∃ fault, c.Breaks fault ∧ c.check = .error (.setting fault) := by
  unfold check
  split_ifs with radii initial ratios shrink grow tolerance cap
  · exact .inr ⟨_, .growFactor grow, rfl⟩
  · exact .inr ⟨_, .gradientTolerance tolerance, rfl⟩
  · exact .inr ⟨_, .iterationCap cap, rfl⟩
  · exact .inl rfl
  · exact .inr ⟨_, .shrinkFactor shrink, rfl⟩
  · exact .inr ⟨_, .ratioThresholds ratios, rfl⟩
  · exact .inr ⟨_, .initialRadius initial, rfl⟩
  · exact .inr ⟨_, .radiusRange radii, rfl⟩

theorem isValid_iff :
    c.IsValid ↔ c.Passes ∧ c.growFactor.isNaN = false ∧ c.gradientTolerance.isNaN = false := by
  constructor
  · intro valid
    exact ⟨⟨valid.toIsOrdered, .inl valid.growFactor_gt, .inl valid.gradientTolerance_pos⟩,
      defined_of_lt valid.growFactor_gt, defined_of_lt valid.gradientTolerance_pos⟩
  · rintro ⟨passes, grow, tolerance⟩
    exact ⟨passes.toIsOrdered, passes.growFactor_gt.resolve_right (ne_true_of_eq_false grow),
      passes.gradientTolerance_pos.resolve_right (ne_true_of_eq_false tolerance)⟩

end Check

section Name

variable (name : String) (c : Config Float)

def Names (name : String) (m : SearchMethod) : Prop := Text.lowercase name = m.name

theorem method?_eq_some_iff {m : SearchMethod} : method? name = some m ↔ Names name m := by
  unfold method? SearchMethod.ofName? Names
  constructor
  · intro found
    have named := List.find?_some found
    exact (of_decide_eq_true named).symm
  · intro named
    rw [named]
    cases m <;> rfl

theorem ofName_of_names {m : SearchMethod} (known : Names name m) :
    ofName name c = c.check.map fun _ => { c with method := m } := by
  unfold ofName
  rw [(method?_eq_some_iff name).mpr known]
  rfl

theorem ofName_of_unknown (unknown : ¬ ∃ m, Names name m) :
    ofName name c = .error (.setting (.searchMethod name)) := by
  have missing : method? name = none := by
    refine Option.eq_none_iff_forall_ne_some.mpr fun m found => ?_
    exact unknown ⟨m, (method?_eq_some_iff name).mp found⟩
  unfold ofName
  rw [missing]
  rfl

theorem ofName_eq_ok_iff {c' : Config Float} :
    ofName name c = .ok c' ↔
      (∃ m, Names name m ∧ c' = { c with method := m }) ∧ c.Passes := by
  rw [← check_eq_ok_iff]
  by_cases known : ∃ m, Names name m
  · obtain ⟨m, names⟩ := known
    rw [ofName_of_names name c names]
    have unique (m') : Names name m' ↔ m' = m := by
      rw [← method?_eq_some_iff, (method?_eq_some_iff name).mpr names, Option.some_inj, eq_comm]
    simp only [unique, exists_eq_left]
    cases c.check with
    | error e => simp [Except.map]
    | ok u => simp [Except.map, eq_comm]
  · rw [ofName_of_unknown name c known]
    simp only [reduceCtorEq, false_iff, not_and]
    rintro ⟨m, names, -⟩
    exact absurd ⟨m, names⟩ known

theorem ofName_eq_ok_or_breaks :
    (∃ c', ofName name c = .ok c') ∨
      (¬ ∃ m, Names name m) ∧ ofName name c = .error (.setting (.searchMethod name)) ∨
      ∃ fault, c.Breaks fault ∧ ofName name c = .error (.setting fault) := by
  by_cases known : ∃ m, Names name m
  · obtain ⟨m, names⟩ := known
    rw [ofName_of_names name c names]
    rcases c.check_eq_ok_or_breaks with accepted | ⟨fault, broken, refused⟩
    · exact .inl ⟨_, congrArg _ accepted⟩
    · exact .inr (.inr ⟨fault, broken, congrArg _ refused⟩)
  · exact .inr (.inl ⟨known, ofName_of_unknown name c known⟩)

end Name

end TrustRegion.Config

open TrustRegion.Config (ofName Names)

/-- The settings that a check accepts are the valid ones and those that would be valid but for an
undefined tolerance, growth factor or threshold of the curvature; a method may be given by its name
in letters of either case.  All others are refused as settings, by a fault that they have. -/
theorem settings_accepted_iff (line : Lbfgs.Config Float) (region : TrustRegion.Config Float)
    (name : String) :
    ((line.check = .ok () ↔ line.Passes) ∧
      (line.check = .ok () ∨
        ∃ fault, line.Breaks fault ∧ line.check = .error (.setting fault)) ∧
      (line.IsValid ↔ line.Passes ∧ line.gradientTolerance.isNaN = false ∧
        line.curvatureThreshold.isNaN = false)) ∧
    ((region.check = .ok () ↔ region.Passes) ∧
      (region.check = .ok () ∨
        ∃ fault, region.Breaks fault ∧ region.check = .error (.setting fault)) ∧
      (region.IsValid ↔ region.Passes ∧ region.growFactor.isNaN = false ∧
        region.gradientTolerance.isNaN = false)) ∧
    (∀ c, ofName name region = .ok c ↔
      (∃ m, Names name m ∧ c = { region with method := m }) ∧ region.Passes) ∧
    ((∃ c, ofName name region = .ok c) ∨
      (¬ ∃ m, Names name m) ∧ ofName name region = .error (.setting (.searchMethod name)) ∨
      ∃ fault, region.Breaks fault ∧ ofName name region = .error (.setting fault)) := by
  refine ⟨⟨line.check_eq_ok_iff, line.check_eq_ok_or_breaks, line.isValid_iff⟩,
    ⟨region.check_eq_ok_iff, region.check_eq_ok_or_breaks, region.isValid_iff⟩, fun c => ?_,
    region.ofName_eq_ok_or_breaks name⟩
  exact region.ofName_eq_ok_iff name

/-- An undefined tolerance passes both checks, as does an undefined growth factor. -/
theorem undefined_settings_accepted :
    let line : Lbfgs.Config Float := { Lbfgs.Config.defaults with gradientTolerance := 0 / 0 }
    let region : TrustRegion.Config Float :=
      { TrustRegion.Config.defaults with gradientTolerance := 0 / 0, growFactor := 0 / 0 }
    line.check = .ok () ∧ ¬ line.IsValid ∧
      ofName "cauchy" region = .ok region ∧ ¬ region.IsValid := by
  intro line region
  have undefined : ¬ (0 : Float) < 0 / 0 := by decide +kernel
  have named : Names "cauchy" .cauchy := by
    unfold Names
    cbv
  obtain ⟨⟨⟩, line_accepted⟩ := exists_of_toBool (x := line.check) (by decide +kernel)
  obtain ⟨⟨⟩, region_accepted⟩ := exists_of_toBool (x := region.check) (by decide +kernel)
  exact ⟨line_accepted, fun valid => undefined valid.gradientTolerance_pos,
    (region.ofName_eq_ok_iff "cauchy").mpr
      ⟨⟨.cauchy, named, rfl⟩, region.check_eq_ok_iff.mp region_accepted⟩,
    fun valid => undefined valid.gradientTolerance_pos⟩

end Descent
