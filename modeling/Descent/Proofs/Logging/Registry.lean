import Descent.Logging.Request
import Descent.Proofs.Logging.Names
import Mathlib.Data.List.Nodup
/-!
# Uniform loggers

Whatever the registry is asked for, it holds one logger for each name that was handed out, all of
them with the level and the one handler of the most recent settings.  These are followed through the
requests without the registry.
-/

namespace Descent.Logging

/-- The settings after a request; one that is refused leaves them as they are. -/
def Request.revise (s : Settings) : Request → Settings
  | .get _ => s
  | .setLevel level =>
    match level.level with
    | .ok level => { s with level := level }
    | .error _ => s
  | .configure settings =>
    match settings.settings with
    | .ok settings => settings
    | .error _ => s

def Settings.latest (s : Settings) (requests : List Request) : Settings :=
  requests.foldl Request.revise s

@[simp] theorem Settings.logger_name (s : Settings) (key : String) :
    (s.logger key).name = key := rfl

@[simp] theorem Settings.logger_level (s : Settings) (key : String) :
    (s.logger key).level = s.level := rfl

theorem Settings.logger_inj {s : Settings} {key key' : String} :
    s.logger key = s.logger key' ↔ key = key' :=
  ⟨congrArg Logger.name, congrArg s.logger⟩

namespace Registry

def startAt (level : Level) : Registry :=
  (((withLevel level).getFull lineMethodLogger).1.getFull regionMethodLogger).1

theorem fresh_eq_startAt : fresh = startAt Level.warning := rfl

variable {r : Registry} {s : Settings} {key : String}

theorem mem_cached_getFull {k : String} :
    k ∈ (r.getFull key).1.cached ↔ k ∈ r.cached ∨ k = key := by
  unfold getFull
  by_cases cached : r.cached.contains key = true
  · rw [if_pos cached]
    refine ⟨.inl, fun member => member.elim id ?_⟩
    rintro rfl
    exact List.contains_iff_mem.mp cached
  · rw [if_neg cached]
    simp

theorem mem_cached_startAt {level : Level} :
    key ∈ (startAt level).cached ↔ key = lineMethodLogger ∨ key = regionMethodLogger := by
  simp [startAt, mem_cached_getFull, withLevel]

/-- What a request does to a registry, beside what it does to the settings. -/
inductive Handles (r : Registry) (s : Settings) : Request → Registry → Settings → Prop
  | get (name : Option String) : Handles r s (.get name) (r.get name).1 s
  | setLevel (request : LevelRequest) (level : Level) :
      Handles r s (.setLevel request) (r.setLevel level) { s with level := level }
  | configure (request : SettingsRequest) (t : Settings) :
      Handles r s (.configure request) (r.configure t) t
  | refused {request : Request} : (∀ name, request ≠ .get name) → Handles r s request r s

theorem handle_of_ok {request : Request} {r' : Registry} (answered : r.answer request = .ok r') :
    r.handle request = r' := by
  rw [handle, answered]

theorem handle_of_error {request : Request} {e : Error Float}
    (refused : r.answer request = .error e) : r.handle request = r := by
  rw [handle, refused]

theorem handles (r : Registry) (s : Settings) (request : Request) :
    Handles r s request (r.handle request) (request.revise s) := by
  cases request with
  | get name => exact .get name
  | setLevel request =>
      rcases read : request.level with e | level
      · have refused : r.answer (.setLevel request) = .error e := congrArg (r.setLevel <$> ·) read
        rw [handle_of_error refused, Request.revise, read]
        exact .refused (by simp)
      · have answered : r.answer (.setLevel request) = .ok (r.setLevel level) :=
          congrArg (r.setLevel <$> ·) read
        rw [handle_of_ok answered, Request.revise, read]
        exact .setLevel request level
  | configure request =>
      rcases read : request.settings with e | t
      · have refused : r.answer (.configure request) = .error e := congrArg (r.configure <$> ·) read
        rw [handle_of_error refused, Request.revise, read]
        exact .refused (by simp)
      · have answered : r.answer (.configure request) = .ok (r.configure t) :=
          congrArg (r.configure <$> ·) read
        rw [handle_of_ok answered, Request.revise, read]
        exact .configure request t

/-- The names handed out are those that were before and those that were asked for. -/
theorem mem_cached_handle (request : Request) {k : String} :
    k ∈ (r.handle request).cached ↔
      k ∈ r.cached ∨ ∃ name, request = .get name ∧ fullName name = k := by
  have handled := r.handles r.settings request
  generalize r.handle request = r', request.revise r.settings = s' at handled
  cases handled with
  | get name =>
      rw [get, mem_cached_getFull]
      simp [eq_comm]
  | setLevel | configure => simp [Registry.setLevel, Registry.configure, mapCached]
  | refused other => simp [other]

theorem mem_cached_foldl (requests : List Request) {k : String} :
    k ∈ (requests.foldl handle r).cached ↔
      k ∈ r.cached ∨ ∃ name, .get name ∈ requests ∧ fullName name = k := by
  induction requests generalizing r with
  | nil => simp
  | cons request requests ih =>
      rw [List.foldl_cons, ih, mem_cached_handle, or_assoc]
      simp only [List.mem_cons, or_and_right, exists_or, eq_comm]

/-- The loggers are those of the names handed out, as the settings say. -/
structure Uniform (r : Registry) (s : Settings) : Prop where
  settings_eq : r.settings = s
  loggers_eq : r.loggers = r.cached.map s.logger
  nodup : r.cached.Nodup
  inPackage : ∀ key ∈ r.cached, InPackage key
  root_eq : r.root = ⟨"root", Level.warning, false, []⟩

namespace Uniform

theorem withLevel (level : Level) : Uniform (withLevel level) (.standard level) where
  settings_eq := rfl
  loggers_eq := rfl
  nodup := List.nodup_nil
  inPackage _ member := absurd member List.not_mem_nil
  root_eq := rfl

variable (uniform : Uniform r s)

include uniform

theorem eq_logger_of_mem {l : Logger} (member : l ∈ r.loggers) :
    l.name ∈ r.cached ∧ l = s.logger l.name := by
  rw [uniform.loggers_eq] at member
  obtain ⟨key, cached, rfl⟩ := List.mem_map.mp member
  exact ⟨cached, rfl⟩

theorem eq_of_find? {l : Logger} (found : r.find? key = some l) :
    key ∈ r.cached ∧ l = s.logger key := by
  unfold find? at found
  have named := List.find?_some found
  rw [← of_decide_eq_true named]
  exact uniform.eq_logger_of_mem (List.mem_of_find?_eq_some found)

theorem find?_of_mem (member : key ∈ r.cached) : r.find? key = some (s.logger key) := by
  rcases found : r.find? key with _ | l
  · have here : s.logger key ∈ r.loggers := by
      rw [uniform.loggers_eq]
      exact List.mem_map_of_mem member
    exact absurd (decide_eq_true rfl) (List.find?_eq_none.mp found _ here)
  · rw [(uniform.eq_of_find? found).2]

theorem find?_of_not_mem (missing : key ∉ r.cached) : r.find? key = none := by
  rcases found : r.find? key with _ | l
  · rfl
  · exact absurd (uniform.eq_of_find? found).1 missing

theorem getFull_of_mem (member : key ∈ r.cached) : r.getFull key = (r, s.logger key) := by
  unfold getFull
  rw [if_pos (List.contains_iff_mem.mpr member), uniform.find?_of_mem member]
  rfl

theorem put_of_not_mem (missing : key ∉ r.cached) :
    r.put (s.logger key) = { r with loggers := r.loggers ++ [s.logger key] } := by
  refine if_neg fun named => ?_
  obtain ⟨l, member, same⟩ := List.any_eq_true.mp named
  have cached := (uniform.eq_logger_of_mem member).1
  rw [of_decide_eq_true same] at cached
  exact missing cached

theorem getFull_of_not_mem (missing : key ∉ r.cached) :
    r.getFull key =
      ({ r with loggers := r.loggers ++ [s.logger key], cached := r.cached ++ [key] },
        s.logger key) := by
  have added := uniform.put_of_not_mem missing
  rw [← uniform.settings_eq] at added ⊢
  unfold getFull
  rw [if_neg (by rwa [List.contains_iff_mem]), uniform.find?_of_not_mem missing]
  change ({ r.put (r.settings.logger key) with cached := r.cached ++ [key] }, _) = _
  rw [added]
  rfl

/-- Asking for a name in the package hands out its logger and keeps the others. -/
theorem getFull (inside : InPackage key) :
    Uniform (r.getFull key).1 s ∧ (r.getFull key).2 = s.logger key := by
  by_cases member : key ∈ r.cached
  · rw [uniform.getFull_of_mem member]
    exact ⟨uniform, rfl⟩
  · rw [uniform.getFull_of_not_mem member]
    refine ⟨?_, rfl⟩
    exact {
      settings_eq := uniform.settings_eq
      loggers_eq := by
        rw [List.map_append, ← uniform.loggers_eq]
        rfl
      nodup := List.nodup_append.mpr ⟨uniform.nodup, List.nodup_singleton key, by
        rintro k cached _ new rfl
        exact member (List.mem_singleton.mp new ▸ cached)⟩
      inPackage := fun k cached => by
        rcases List.mem_append.mp cached with earlier | new
        · exact uniform.inPackage k earlier
        · rwa [List.mem_singleton.mp new]
      root_eq := uniform.root_eq }

theorem get_snd (name : Option String) : (r.get name).2 = s.logger (fullName name) :=
  (uniform.getFull (inPackage_fullName name)).2

theorem loggers_mapCached (change : Logger → Logger) :
    (r.mapCached change).loggers = r.cached.map fun key => change (s.logger key) := by
  unfold mapCached
  rw [uniform.loggers_eq, List.map_map]
  refine List.map_congr_left fun key cached => ?_
  exact if_pos (List.contains_iff_mem.mpr cached)

theorem setLevel (level : Level) : Uniform (r.setLevel level) { s with level := level } where
  settings_eq := by
    rw [← uniform.settings_eq]
    rfl
  loggers_eq := uniform.loggers_mapCached _
  nodup := uniform.nodup
  inPackage := uniform.inPackage
  root_eq := uniform.root_eq

theorem configure (t : Settings) : Uniform (r.configure t) t where
  settings_eq := rfl
  loggers_eq := uniform.loggers_mapCached _
  nodup := uniform.nodup
  inPackage := uniform.inPackage
  root_eq := uniform.root_eq

/-- Each request keeps the loggers uniform, at the settings after it. -/
theorem handle (request : Request) : Uniform (r.handle request) (request.revise s) := by
  have handled := r.handles s request
  generalize r.handle request = r', request.revise s = s' at handled
  cases handled with
  | get name => exact (uniform.getFull (inPackage_fullName name)).1
  | setLevel request level => exact uniform.setLevel level
  | configure request => exact uniform.configure _
  | refused => exact uniform

theorem foldl (requests : List Request) :
    Uniform (requests.foldl Registry.handle r) (s.latest requests) := by
  unfold Settings.latest
  induction requests generalizing r s with
  | nil => exact uniform
  | cons request requests ih => exact ih (uniform.handle request)

end Uniform

theorem uniform_startAt (level : Level) : Uniform (startAt level) (.standard level) := by
  have line : InPackage lineMethodLogger := .inr ⟨"optimize.quasi_newton", by decide⟩
  have region : InPackage regionMethodLogger := .inr ⟨"optimize.trust_region", by decide⟩
  have first := (Uniform.withLevel level).getFull line
  exact (first.1.getFull region).1

end Registry

end Descent.Logging
