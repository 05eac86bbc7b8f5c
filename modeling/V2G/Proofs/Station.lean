import V2G.Settings.Station

/-!
# Loads that fail

What a load that fails leaves behind. The level is as before, and what the file adds to the
environment stays. Settings that cannot be read change nothing. Settings that are read are stored
before their level is looked up, so that they stay if it is unknown (`verbose_stored`), until a
later load reads others; no load otherwise depends on the settings before it (`load_failed`).
-/

namespace V2G.Station

variable {s t : Station} {file : String} {fault : LoadFault}

/-! ### One load -/

/-- What a load does, by what can be read. -/
inductive Loads (s : Station) (file : String) : Station × Option LoadFault → Prop where
  | unread {names : List String} :
      readSettings (EnvFile.extend s.environment file) = .error (.notBoolean names) →
      Loads s file (⟨s.settings, s.level, EnvFile.extend s.environment file⟩,
        some (.notBoolean names))
  | unnamed {new : Settings} : readSettings (EnvFile.extend s.environment file) = .ok new →
      Level.ofName? new.logLevel = none →
      Loads s file (⟨new, s.level, EnvFile.extend s.environment file⟩,
        some (.unknownLevel new.logLevel))
  | done {new : Settings} {level : Int} :
      readSettings (EnvFile.extend s.environment file) = .ok new →
      Level.ofName? new.logLevel = some level →
      Loads s file (⟨new, level, EnvFile.extend s.environment file⟩, none)

theorem notBoolean_of_readSettings {environment : Keyed String}
    (h : readSettings environment = .error fault) : ∃ names, fault = .notBoolean names := by
  unfold readSettings at h
  split at h <;> cases h <;> exact ⟨_, rfl⟩

theorem loads (s : Station) (file : String) : Loads s file (s.load file) := by
  cases read : readSettings (EnvFile.extend s.environment file) with
  | error fault =>
    obtain ⟨names, rfl⟩ := notBoolean_of_readSettings read
    simp only [load, read]
    exact .unread read
  | ok new =>
    cases known : Level.ofName? new.logLevel with
    | none =>
      simp only [load, read, setLevel, known]
      exact .unnamed read known
    | some level =>
      simp only [load, read, setLevel, known]
      exact .done read known

/-- The two ways for a load to fail, and where each leaves the station. -/
theorem load_eq_some (h : (s.load file).2 = some fault) :
    (∃ names, fault = .notBoolean names ∧
      (s.load file).1 = ⟨s.settings, s.level, EnvFile.extend s.environment file⟩) ∨
    ∃ new, fault = .unknownLevel new.logLevel ∧
      readSettings (EnvFile.extend s.environment file) = .ok new ∧
      Level.ofName? new.logLevel = none ∧
      (s.load file).1 = ⟨new, s.level, EnvFile.extend s.environment file⟩ := by
  have loaded := loads s file
  generalize s.load file = r at h loaded
  cases loaded with
  | unread =>
    cases h
    exact .inl ⟨_, rfl, rfl⟩
  | unnamed read unknown =>
    cases h
    exact .inr ⟨_, rfl, read, unknown, rfl⟩
  | done => cases h

/-- The settings could be read, whatever came of their level. -/
def Read (outcome : Option LoadFault) : Prop := ∀ names, outcome ≠ some (.notBoolean names)

/-- The settings before a load matter to the settings after it only, and only if none are read. -/
theorem load_congr (level : s.level = t.level) (environment : s.environment = t.environment)
    (file : String) : (s.load file).2 = (t.load file).2 ∧
      (s.load file).1.level = (t.load file).1.level ∧
      (s.load file).1.environment = (t.load file).1.environment ∧
      (s.settings = t.settings ∨ Read (s.load file).2 →
        (s.load file).1.settings = (t.load file).1.settings) := by
  obtain ⟨settings, _, _⟩ := t
  cases level
  cases environment
  have before := loads s file
  have after := loads ⟨settings, s.level, s.environment⟩ file
  generalize s.load file = r at before
  generalize load ⟨settings, s.level, s.environment⟩ file = r' at after
  -- Both loads read the same, so that only the cases of one constructor are left.
  cases before <;> cases after <;> simp_all [Read]

/-! ### Any number of loads -/

/-- A load, and what is done to the environment before it. -/
structure Attempt where
  prepare : Keyed String → Keyed String
  file : String

def attempt (s : Station) (a : Attempt) : Station × Option LoadFault :=
  load { s with environment := a.prepare s.environment } a.file

/-- Loads one after the other, with what comes of each. -/
def attempts (s : Station) : List Attempt → Station × List (Option LoadFault)
  | [] => (s, [])
  | a :: as =>
    let (t, outcome) := s.attempt a
    let (u, outcomes) := t.attempts as
    (u, outcome :: outcomes)

theorem attempts_cons (a : Attempt) (as : List Attempt) : s.attempts (a :: as) =
    (((s.attempt a).1.attempts as).1, (s.attempt a).2 :: ((s.attempt a).1.attempts as).2) := rfl

/-- What comes of the loads of two stations is the same, settings aside as long as none are read. -/
structure SameLoads (s t : Station) (as : List Attempt) : Prop where
  outcomes : (s.attempts as).2 = (t.attempts as).2
  level : (s.attempts as).1.level = (t.attempts as).1.level
  environment : (s.attempts as).1.environment = (t.attempts as).1.environment
  settings : (s.settings = t.settings ∨ ∃ outcome ∈ (s.attempts as).2, Read outcome) →
    (s.attempts as).1.settings = (t.attempts as).1.settings

theorem attempt_congr {a : Attempt} (level : s.level = t.level)
    (prepared : a.prepare s.environment = a.prepare t.environment) :
    (s.attempt a).2 = (t.attempt a).2 ∧ (s.attempt a).1.level = (t.attempt a).1.level ∧
      (s.attempt a).1.environment = (t.attempt a).1.environment ∧
      (s.settings = t.settings ∨ Read (s.attempt a).2 →
        (s.attempt a).1.settings = (t.attempt a).1.settings) :=
  load_congr (s := { s with environment := a.prepare s.environment })
    (t := { t with environment := a.prepare t.environment }) level prepared a.file

/-- After a load from the same environment, stations differ in their settings at most. -/
theorem sameLoads_cons {a : Attempt} {as : List Attempt}
    (rest : ∀ {s t : Station}, s.level = t.level → s.environment = t.environment →
      SameLoads s t as)
    (level : s.level = t.level) (prepared : a.prepare s.environment = a.prepare t.environment) :
    SameLoads s t (a :: as) := by
  obtain ⟨outcome, level, environment, settings⟩ := attempt_congr level prepared
  have rest := rest level environment
  constructor <;> simp only [attempts_cons]
  · rw [outcome, rest.outcomes]
  · exact rest.level
  · exact rest.environment
  · rintro (same | ⟨o, ho, read⟩)
    · exact rest.settings (.inl (settings (.inl same)))
    · rcases List.mem_cons.mp ho with rfl | ho
      · exact rest.settings (.inl (settings (.inr read)))
      · exact rest.settings (.inr ⟨o, ho, read⟩)

theorem sameLoads (level : s.level = t.level) (environment : s.environment = t.environment)
    (as : List Attempt) : SameLoads s t as := by
  -- Level and environment agree before each load; the settings may differ until some are read.
  induction as generalizing s t with
  | nil =>
    refine ⟨rfl, level, environment, ?_⟩
    rintro (same | ⟨_, ho, -⟩)
    · exact same
    · cases ho
  | cons a as ih => exact sameLoads_cons ih level (congrArg a.prepare environment)

/-- A load that fails leaves the level as it was, and the settings unless they were read and their
level is unknown. The loads after it come out as if it had only added the variables of its file, or
had not been made at all where these are gone by then; and so do the settings if they were left, or
once others are read. -/
theorem load_failed (h : (s.load file).2 = some fault) :
    (s.load file).1.level = s.level ∧
      (s.load file).1.environment = EnvFile.extend s.environment file ∧
      (∀ names, fault = .notBoolean names → (s.load file).1.settings = s.settings) ∧
      (∀ name, fault = .unknownLevel name →
        readSettings (EnvFile.extend s.environment file) = .ok (s.load file).1.settings ∧
          (s.load file).1.settings.logLevel = name ∧ Level.ofName? name = none) ∧
      (∀ as, SameLoads (s.load file).1
        ⟨s.settings, s.level, EnvFile.extend s.environment file⟩ as) ∧
      ∀ a as, a.prepare (EnvFile.extend s.environment file) = a.prepare s.environment →
        SameLoads (s.load file).1 s (a :: as) := by
  have later {t : Station} (a : Attempt) (as : List Attempt) (level : t.level = s.level)
      (prepared : a.prepare t.environment = a.prepare s.environment) : SameLoads t s (a :: as) :=
    sameLoads_cons (fun level environment => sameLoads level environment as) level prepared
  rcases load_eq_some h with ⟨names, rfl, after⟩ | ⟨new, rfl, read, unknown, after⟩
  · rw [after]
    exact ⟨rfl, rfl, fun _ _ => rfl, nofun, sameLoads rfl rfl,
      fun a as prepared => later a as (by rfl) prepared⟩
  · rw [after]
    refine ⟨rfl, rfl, nofun, ?_, sameLoads rfl rfl,
      fun a as prepared => later a as (by rfl) prepared⟩
    rintro _ ⟨⟩
    exact ⟨read, rfl, unknown⟩

/-- A station whose environment asks for a level that there is not. -/
def verbose : Station := { environment := [("LOG_LEVEL", "verbose")] }

theorem verbose_stored : (verbose.load "").2 = some (.unknownLevel "verbose") ∧
    (verbose.load "").1.settings = { logLevel := "verbose" } ∧
    verbose.settings = { logLevel := "INFO" } ∧ (verbose.load "").1.level = verbose.level ∧
    ∀ as, SameLoads (verbose.load "").1 verbose (⟨id, ""⟩ :: as) := by
  have failed : (verbose.load "").2 = some (.unknownLevel "verbose") := by decide
  have asked : readSettings (EnvFile.extend verbose.environment "") =
      .ok { logLevel := "verbose" } := by rfl
  obtain ⟨level, -, -, stored, -, later⟩ := load_failed failed
  obtain ⟨read, -⟩ := stored _ rfl
  cases asked.symm.trans read
  exact ⟨failed, rfl, rfl, level, fun as => later _ as (by rfl)⟩

end V2G.Station
