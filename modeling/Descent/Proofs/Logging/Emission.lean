import Descent.Proofs.Logging.Registry
import Descent.Proofs.Logging.Validity
/-!
# Records that are written

A logger of a uniform registry does not pass its records on, so that only its own handler sees them.
From which level on they are written is up to the settings; a level that is not set is sought in the
logger's ancestors, none of which has one, up to the root.  A record that the pattern cannot show is
not written at any level.
-/

namespace Descent.Logging

/-- The level from which on records are written: the root's, unless one is set. -/
def Settings.threshold (s : Settings) : Level :=
  if s.level = Level.notSet then Level.warning else s.level

theorem Settings.level_le_of_threshold_le (s : Settings) {level : Level} (pos : 0 < level)
    (above : s.threshold ≤ level) : s.level ≤ level := by
  unfold threshold at above
  split_ifs at above with unset
  · rw [unset]
    exact pos.le
  · exact above

theorem Request.IsStandard.revise {request : Request} (standard : request.IsStandard)
    {s : Settings} (before : s.IsStandard) : (request.revise s).IsStandard := by
  cases request with
  | get name => exact before
  | setLevel request =>
      obtain ⟨level, level_eq, nonneg⟩ := LevelRequest.IsStandard.level_eq standard
      rw [Request.revise, level_eq]
      exact ⟨nonneg, before.pattern_valid⟩
  | configure request =>
      obtain ⟨t, settings_eq, after⟩ := SettingsRequest.IsStandard.settings_eq standard
      rw [Request.revise, settings_eq]
      exact after

theorem Settings.IsStandard.latest {s : Settings} (first : s.IsStandard) {requests : List Request}
    (standard : ∀ request ∈ requests, request.IsStandard) : (s.latest requests).IsStandard := by
  unfold Settings.latest
  induction requests generalizing s with
  | nil => exact first
  | cons request requests ih =>
      obtain ⟨here, later⟩ := List.forall_mem_cons.mp standard
      exact ih (here.revise first) later

theorem Settings.IsStandard.threshold_pos {s : Settings} (standard : s.IsStandard) :
    0 < s.threshold := by
  unfold threshold
  split_ifs with unset
  · decide
  · exact lt_of_le_of_ne standard.level_nonneg (Ne.symm unset)

theorem Settings.IsStandard.exists_write? {s : Settings} (standard : s.IsStandard)
    (record : Record) : ∃ line, s.handler.write? record = some ⟨s.sink, line⟩ := by
  obtain ⟨line, shown⟩ := Option.isSome_iff_exists.mp (standard.pattern_valid record)
  exact ⟨line ++ "\n", congrArg (Option.map _) shown⟩

namespace Registry

variable {r : Registry} {s : Settings} {key : String}

theorem exists_lineage_eq_cons (r : Registry) (fuel : Nat) (l : Logger) :
    ∃ ancestors, r.lineage fuel l = l :: ancestors := by
  cases fuel with
  | zero => exact ⟨_, rfl⟩
  | succ fuel =>
      rw [lineage]
      split
      · exact ⟨_, rfl⟩
      · exact ⟨_, rfl⟩

namespace Uniform

variable (uniform : Uniform r s)

include uniform

theorem find?_lineage (unset : s.level = Level.notSet) (fuel : Nat) {l : Logger}
    (level_eq : l.level = Level.notSet) :
    (r.lineage fuel l).find? (·.level ≠ Level.notSet) = some r.root := by
  have root_level : r.root.level ≠ Level.notSet := by
    rw [uniform.root_eq]
    decide
  induction fuel generalizing l with
  | zero => simp [lineage, level_eq, root_level]
  | succ fuel ih =>
      rw [lineage]
      split
      case h_1 parent found =>
        obtain ⟨name, -, found⟩ := List.exists_of_findSome?_eq_some found
        have parent_level : parent.level = Level.notSet := by
          rw [(uniform.eq_of_find? found).2]
          exact unset
        rw [List.find?_cons_of_neg (by simp [level_eq])]
        exact ih parent_level
      case h_2 => simp [level_eq, root_level]

theorem effectiveLevel_logger (key : String) :
    r.effectiveLevel (s.logger key) = s.threshold := by
  unfold effectiveLevel ancestry Settings.threshold
  by_cases unset : s.level = Level.notSet
  · rw [uniform.find?_lineage unset _ unset, if_pos unset, uniform.root_eq]
    rfl
  · obtain ⟨ancestors, split⟩ := r.exists_lineage_eq_cons (s.logger key).name.length (s.logger key)
    rw [split, List.find?_cons_of_pos (by simp [unset]), if_neg unset]
    rfl

omit uniform in
theorem handlersOf_ancestry (r : Registry) (s : Settings) (key : String) :
    handlersOf (r.ancestry (s.logger key)) = [s.handler] := by
  obtain ⟨ancestors, split⟩ := r.exists_lineage_eq_cons (s.logger key).name.length (s.logger key)
  rw [ancestry, split]
  rfl

/-- A record is written once, to the sink of the settings and in their pattern, or not at all. -/
theorem emit_logger (key : String) (level : Level) (message : String) (context : Context) :
    r.emit (s.logger key) level message context =
      if 0 < level ∧ s.threshold ≤ level then
        (s.handler.write? ⟨key, level, message, context⟩).toList
      else [] := by
  have enabled : r.isEnabled (s.logger key) level =
      decide (0 < level ∧ s.threshold ≤ level) := by
    rw [isEnabled, uniform.effectiveLevel_logger, Bool.decide_and]
    rfl
  unfold emit
  rw [enabled, handlersOf_ancestry]
  by_cases written : 0 < level ∧ s.threshold ≤ level
  · have handled : s.handler.level ≤ level := s.level_le_of_threshold_le written.1 written.2
    rw [if_pos written, if_pos (decide_eq_true written)]
    dsimp only
    rw [List.filter_cons_of_pos (by simpa using handled), List.filter_nil]
    cases wrote : s.handler.write? ⟨key, level, message, context⟩ with
    | none => exact List.filterMap_cons_none wrote
    | some line => exact List.filterMap_cons_some wrote
  · rw [if_neg written, if_neg (by simpa using written)]

end Uniform

/-- From the start on, whatever is asked for in whatever order, the loggers that were handed out
are those of the two optimizers and of the names asked for, one for each, and all have the level
and the one handler of the most recent settings.  Names lead to one logger only if they are the
same or one, which is outside of the package, is the other without the package's name in front.
If only standard levels and valid patterns are asked for, a record from the threshold on is written
once, and no other is; otherwise one that the pattern cannot show is not written either. -/
theorem loggers_stay_uniform (level : Level) (requests : List Request) :
    let r := requests.foldl handle (startAt level)
    let s := (Settings.standard level).latest requests
    r.cached.Nodup ∧
    (∀ key, key ∈ r.cached ↔ (key = lineMethodLogger ∨ key = regionMethodLogger) ∨
      ∃ name, .get name ∈ requests ∧ fullName name = key) ∧
    (∀ key ∈ r.cached, InPackage key ∧ ∃ l, r.find? key = some l ∧ r.get (some key) = (r, l) ∧
      l = ⟨key, s.level, false, [⟨s.level, s.pattern, s.sink⟩]⟩ ∧
      (∀ k message context, r.emit l k message context =
        if 0 < k ∧ s.threshold ≤ k then
          (Handler.write? ⟨s.level, s.pattern, s.sink⟩ ⟨key, k, message, context⟩).toList
        else []) ∧
      (0 ≤ level → (∀ request ∈ requests, request.IsStandard) → ∀ k message context, ∃ line,
        r.emit l k message context = if s.threshold ≤ k then [⟨s.sink, line⟩] else [])) ∧
    ∀ a b : Option String,
      (r.get a).2 = (r.get b).2 ↔ Shares (a.getD packageName) (b.getD packageName) := by
  intro r s
  have uniform : Uniform r s := (uniform_startAt level).foldl requests
  refine ⟨uniform.nodup, fun key => ?_, fun key cached => ?_, fun a b => ?_⟩
  · rw [mem_cached_foldl, mem_cached_startAt]
  · have inside := uniform.inPackage key cached
    refine ⟨inside, s.logger key, uniform.find?_of_mem cached, ?_, rfl, uniform.emit_logger key, ?_⟩
    · rw [get, fullName_of_inPackage inside]
      exact uniform.getFull_of_mem cached
    · intro nonneg standard k message context
      have first : (Settings.standard level).IsStandard := ⟨nonneg, Pattern.isValid_defaultPattern⟩
      have positive := (first.latest standard).threshold_pos
      obtain ⟨line, wrote⟩ := (first.latest standard).exists_write? ⟨key, k, message, context⟩
      refine ⟨line, ?_⟩
      rw [uniform.emit_logger, wrote]
      by_cases above : s.threshold ≤ k
      · rw [if_pos ⟨positive.trans_le above, above⟩, if_pos above]
        rfl
      · rw [if_neg fun written => above written.2, if_neg above]
  · rw [uniform.get_snd, uniform.get_snd, Settings.logger_inj, ← fullName_eq_iff, fullName_getD,
      fullName_getD]

/-- The level is that of the last request, and pattern and sink are those of the second, also for
the logger that was there before it. -/
theorem loggers_stay_uniform_two :
    let requests : List Request :=
      [.get (some "a"),
        .configure { level := .name "info", pattern := some "%(message)s", sink := "A" },
        .get (some "b"), .setLevel (.name "error")]
    let r := requests.foldl handle fresh
    (∀ request ∈ requests, request.IsStandard) ∧
    "unconopt.a" ∈ r.cached ∧ ∃ l, r.find? "unconopt.a" = some l ∧
      l = ⟨"unconopt.a", 40, false, [⟨40, Pattern.messageOnly, "A"⟩]⟩ ∧
      ∀ context, r.emit l 30 "m" context = [] ∧ r.emit l 50 "m" context = [⟨"A", "m\n"⟩] := by
  intro requests r
  have upper_info : Text.uppercase "info" = "INFO" := by decide +kernel
  have upper_error : Text.uppercase "error" = "ERROR" := by decide +kernel
  have named : ∀ name ∈ ["INFO", "ERROR"], name ∈ Level.names.map Prod.fst := by decide
  have info_named : Text.uppercase "info" ∈ Level.names.map Prod.fst :=
    named _ (by simp [upper_info])
  have error_named : Text.uppercase "error" ∈ Level.names.map Prod.fst :=
    named _ (by simp [upper_error])
  have info : (Level.ofName "info" : Except (Error Float) Level) = .ok 20 := by
    rw [Level.ofName_of_mem info_named, upper_info]
    rfl
  have error : (Level.ofName "error" : Except (Error Float) Level) = .ok 40 := by
    rw [Level.ofName_of_mem error_named, upper_error]
    rfl
  have pattern : (Pattern.ofText "%(message)s" : Except (Error Float) Pattern) =
      .ok Pattern.messageOnly := by
    rw [Pattern.ofText, if_neg (by decide +kernel), if_pos (by decide +kernel)]
    rfl
  have standard : ∀ request ∈ requests, request.IsStandard := by
    have valid : Pattern.messageOnly.IsValid := by decide
    simp only [requests, List.forall_mem_cons]
    refine ⟨trivial, ⟨info_named, ?_⟩, trivial, error_named, by simp⟩
    rintro _ ⟨⟩
    exact ⟨_, pattern, valid⟩
  have latest : (Settings.standard Level.warning).latest requests =
      ⟨40, Pattern.messageOnly, "A"⟩ := by
    simp [requests, Settings.latest, Request.revise, LevelRequest.level,
      SettingsRequest.settings, info, error, pattern, bind, Except.bind, pure, Except.pure]
  obtain ⟨-, keys, uniform, -⟩ := loggers_stay_uniform Level.warning requests
  have cached : "unconopt.a" ∈ r.cached :=
    (keys _).mpr (.inr ⟨some "a", List.mem_cons_self, by decide +kernel⟩)
  obtain ⟨-, l, found, -, l_eq, emits, -⟩ := uniform _ cached
  rw [latest] at l_eq emits
  refine ⟨standard, cached, l, found, l_eq, fun context => ⟨emits 30 "m" context, ?_⟩⟩
  refine (emits 50 "m" context).trans ?_
  rw [if_pos (by decide), Handler.write?, Record.render?_messageOnly]
  rfl

/-- The package's name put below itself is that of another logger, and where the level is not set a
record above it may be written nowhere. -/
theorem exists_unshared_prefix_and_withheld_record :
    (fresh.get (some "unconopt")).2 ≠ (fresh.get (some "unconopt.unconopt")).2 ∧
    let r := fresh.handle (.configure { level := .name "NOTSET", sink := "A" })
    ∃ l, r.find? lineMethodLogger = some l ∧ l.level ≤ 10 ∧
      ∀ context, r.emit l 10 "m" context = [] := by
  have uniform := uniform_startAt Level.warning
  rw [← fresh_eq_startAt] at uniform
  constructor
  · rw [uniform.get_snd, uniform.get_snd, ne_eq, Settings.logger_inj]
    decide +kernel
  · intro r
    have unset : (Level.ofName "NOTSET" : Except (Error Float) Level) = .ok Level.notSet := by
      have upper : Text.uppercase "NOTSET" = "NOTSET" := by decide +kernel
      rw [Level.ofName_of_mem (by rw [upper]; decide), upper]
      rfl
    have revised : Request.revise (.standard Level.warning)
        (.configure { level := .name "NOTSET", sink := "A" }) =
        ⟨Level.notSet, Pattern.defaultPattern, "A"⟩ := by
      simp [Request.revise, LevelRequest.level, SettingsRequest.settings, unset, bind, Except.bind,
        pure, Except.pure]
    have after := uniform.handle (.configure { level := .name "NOTSET", sink := "A" })
    rw [revised] at after
    have cached : lineMethodLogger ∈ r.cached := by
      rw [mem_cached_handle, fresh_eq_startAt, mem_cached_startAt]
      exact .inl (.inl rfl)
    refine ⟨_, after.find?_of_mem cached, by decide, fun context => ?_⟩
    rw [after.emit_logger]
    rfl

end Registry

end Descent.Logging
