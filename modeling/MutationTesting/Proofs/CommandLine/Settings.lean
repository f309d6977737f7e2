import MutationTesting.CommandLine.Request
import MutationTesting.Proofs.Coverage.Reader
/-!
# Settings of a run

The settings of the device are options of a run, and they can be left to the environment. They are
then taken as they are written there, while `DeviceConfig.ofEnvironment?` takes what is empty for
missing and drops the blanks around the beginnings of test paths.

## Main definitions

* `DeviceConfig.written?` — the settings as they are written
* `DeviceConfig.IsTidy` — the environments that are read alike

## Main results

* `readRun_of_leavesSettings` — what becomes of a run that leaves its settings to the environment
* `run_works_with_written_settings`
-/

namespace MutationTesting

namespace DeviceConfig

/-- The parts of a list with commas, as they are. -/
def cutAtCommas (value : String) : List String := (splitAt ',' value.toList).map String.ofList

/-- The settings of an environment as they are written. Only the directory of classes must not be
empty. -/
def written? (env : Environment) : Option DeviceConfig := do
  let classesDir ← value? env classesKey
  let testPackage ← env.lookup packageKey
  let testedAppId ← env.lookup testedAppKey
  some {
    classesDir := Octets.ofString classesDir
    testPackage, testedAppId
    runner := (env.lookup runnerKey).getD defaultRunner
    instrumentedTestPaths := ((env.lookup testPathsKey).map cutAtCommas).getD []
    bridge := (env.lookup bridgeKey).getD defaultBridge }

/-- Nothing in the environment is set but empty, and the beginnings of test paths are written
without blanks around them. -/
structure IsTidy (env : Environment) : Prop where
  set : ∀ key ∈ [packageKey, testedAppKey, runnerKey, bridgeKey], env.lookup key ≠ some ""
  parts : ∀ value, env.lookup testPathsKey = some value →
    ∀ part ∈ splitAt ',' value.toList, part ≠ [] ∧ trim part = part

/-! ### Two readers of an environment -/

section

variable {env : Environment} {key : String} {device : DeviceConfig}

theorem value?_eq_lookup (h : env.lookup key ≠ some "") : value? env key = env.lookup key := by
  rw [value?]
  cases hvalue : env.lookup key with
  | none => rfl
  | some value =>
    have hne : value ≠ "" := fun heq => h (heq ▸ hvalue)
    simp [hne]

theorem value?_eq_none_of_empty (h : env.lookup key = some "") : value? env key = none := by
  rw [value?, h]
  rfl

/-- A setting with a default is read alike unless it is set but empty. -/
theorem getD_value?_eq_iff (env : Environment) (key : String) {default : String}
    (hdefault : default ≠ "") :
    (value? env key).getD default = (env.lookup key).getD default ↔ env.lookup key ≠ some "" := by
  by_cases h : env.lookup key = some ""
  · rw [value?_eq_none_of_empty h, h]
    simpa using hdefault
  · rw [value?_eq_lookup h]
    exact iff_of_true rfl h

/-- Cutting at commas is enough iff there are no blanks and no empty parts to drop. -/
theorem splitPrefixes_eq_cutAtCommas_iff {value : String} :
    splitPrefixes value = cutAtCommas value ↔
      ∀ part ∈ splitAt ',' value.toList, part ≠ [] ∧ trim part = part := by
  rw [splitPrefixes, cutAtCommas]
  generalize splitAt ',' value.toList = parts
  rw [List.map_inj_right fun _ _ => String.ofList_inj.mp]
  constructor
  · intro h
    -- no part was dropped, so all of them are as they were
    have hkept : (parts.map trim).filter (!·.isEmpty) = parts.map trim :=
      List.filter_sublist.eq_of_length (by rw [h, List.length_map])
    rw [hkept] at h
    have htrim : ∀ part ∈ parts, trim part = part :=
      List.map_inj_left.mp (h.trans parts.map_id.symm)
    refine fun part hpart => ⟨?_, htrim part hpart⟩
    have hne := List.filter_eq_self.mp hkept (trim part) (List.mem_map_of_mem hpart)
    rw [htrim part hpart] at hne
    simpa using hne
  · intro h
    have htrim : parts.map trim = parts :=
      (List.map_inj_left.mpr fun part hpart => (h part hpart).2).trans parts.map_id
    rw [htrim, List.filter_eq_self]
    exact fun part hpart => by simpa using (h part hpart).1

theorem testPaths_eq_iff :
    ((value? env testPathsKey).map splitPrefixes).getD [] =
        ((env.lookup testPathsKey).map cutAtCommas).getD [] ↔
      ∀ value, env.lookup testPathsKey = some value →
        ∀ part ∈ splitAt ',' value.toList, part ≠ [] ∧ trim part = part := by
  cases hvalue : env.lookup testPathsKey with
  | none => simp [value?, hvalue]
  | some value =>
    have hread : ((value? env testPathsKey).map splitPrefixes).getD [] = splitPrefixes value := by
      by_cases h : value = ""
      · subst h
        rw [value?_eq_none_of_empty hvalue]
        rfl
      · rw [value?_eq_lookup (by simpa [hvalue] using h), hvalue]
        rfl
    rw [hread]
    simpa using splitPrefixes_eq_cutAtCommas_iff

theorem written?_eq_some_iff : written? env = some device ↔
    ∃ classes package tested, value? env classesKey = some classes ∧
      env.lookup packageKey = some package ∧ env.lookup testedAppKey = some tested ∧
      device = {
        classesDir := Octets.ofString classes
        testPackage := package
        testedAppId := tested
        runner := (env.lookup runnerKey).getD defaultRunner
        instrumentedTestPaths := ((env.lookup testPathsKey).map cutAtCommas).getD []
        bridge := (env.lookup bridgeKey).getD defaultBridge } := by
  simp only [written?, Option.bind_eq_bind, Option.bind_eq_some_iff, Option.some.injEq]
  constructor
  · rintro ⟨classes, hclasses, package, hpackage, tested, htested, rfl⟩
    exact ⟨classes, package, tested, hclasses, hpackage, htested, rfl⟩
  · rintro ⟨classes, package, tested, hclasses, hpackage, htested, rfl⟩
    exact ⟨classes, hclasses, package, hpackage, tested, htested, rfl⟩

theorem ofEnvironment?_eq_ok_iff : ofEnvironment? env = .ok device ↔
    ∃ classes package tested, value? env classesKey = some classes ∧
      value? env packageKey = some package ∧ value? env testedAppKey = some tested ∧
      device = {
        classesDir := Octets.ofString classes
        testPackage := package
        testedAppId := tested
        runner := (value? env runnerKey).getD defaultRunner
        instrumentedTestPaths := ((value? env testPathsKey).map splitPrefixes).getD []
        bridge := (value? env bridgeKey).getD defaultBridge } := by
  rw [ofEnvironment?, required, required, required]
  cases value? env classesKey with
  | none => simp [bind, Except.bind]
  | some classes =>
    cases value? env packageKey with
    | none => simp [bind, Except.bind]
    | some package =>
      cases value? env testedAppKey with
      | none => simp [bind, Except.bind]
      | some tested => simp [bind, Except.bind, eq_comm]

/-- What is set and not empty is set. -/
theorem lookup_of_value? {value : String} (h : value? env key = some value) :
    env.lookup key = some value :=
  (Option.filter_eq_some_iff.mp h).1

/-- **The two readers agree** in tidy environments alone. -/
theorem ofEnvironment?_eq_ok_iff_isTidy (h : written? env = some device) :
    ofEnvironment? env = .ok device ↔ IsTidy env := by
  obtain ⟨classes, package, tested, hclasses, hpackage, htested, rfl⟩ := written?_eq_some_iff.mp h
  have hrunner := getD_value?_eq_iff env runnerKey (show defaultRunner ≠ "" by decide)
  have hbridge := getD_value?_eq_iff env bridgeKey (show defaultBridge ≠ "" by decide)
  rw [ofEnvironment?_eq_ok_iff]
  constructor
  · rintro ⟨classes', package', tested', hclasses', hpackage', htested', heq⟩
    injection heq with _ _ _ hr hp hb
    refine ⟨?_, testPaths_eq_iff.mp hp.symm⟩
    simp only [List.forall_mem_cons]
    refine ⟨fun hempty => ?_, fun hempty => ?_, hrunner.mp hr.symm, hbridge.mp hb.symm,
      List.forall_mem_nil _⟩
    · exact nomatch (value?_eq_none_of_empty hempty).symm.trans hpackage'
    · exact nomatch (value?_eq_none_of_empty hempty).symm.trans htested'
  · rintro ⟨hset, hparts⟩
    simp only [List.forall_mem_cons] at hset
    obtain ⟨hp, ht, hr, hb, -⟩ := hset
    refine ⟨classes, package, tested, hclasses, (value?_eq_lookup hp).trans hpackage,
      (value?_eq_lookup ht).trans htested, ?_⟩
    rw [hrunner.mpr hr, hbridge.mpr hb, testPaths_eq_iff.mpr hparts]

/-- What is missing where all is written is a package that is empty. -/
theorem exists_empty_of_ofEnvironment?_eq_error {e : Failure} (h : written? env = some device)
    (he : ofEnvironment? env = .error e) :
    ∃ key ∈ [packageKey, testedAppKey], env.lookup key = some "" ∧ e = .missingConfig key := by
  obtain ⟨classes, package, tested, hclasses, hpackage, htested, -⟩ := written?_eq_some_iff.mp h
  by_cases hp : env.lookup packageKey = some ""
  · have hnone := value?_eq_none_of_empty hp
    simp only [ofEnvironment?, required, hclasses, hnone, bind, Except.bind] at he
    exact ⟨packageKey, by simp, hp, (Except.error.inj he).symm⟩
  have hpackage := (value?_eq_lookup hp).trans hpackage
  by_cases ht : env.lookup testedAppKey = some ""
  · have hnone := value?_eq_none_of_empty ht
    simp only [ofEnvironment?, required, hclasses, hpackage, hnone, bind, Except.bind] at he
    exact ⟨testedAppKey, by simp, ht, (Except.error.inj he).symm⟩
  have htested := (value?_eq_lookup ht).trans htested
  simp only [ofEnvironment?, required, hclasses, hpackage, htested, bind, Except.bind] at he
  cases he

end

end DeviceConfig

namespace CommandLine

/-! ### Options that are not given -/

namespace Arguments

variable {a : Arguments} {form : OptionForm}

/-- The value that an option has where it is not given. -/
def implied? (env : Environment) (form : OptionForm) : Option String :=
  (form.variableName.bind (List.lookup · env)).or form.default

theorem written_of_not_has (h : a.has form.name = false) (env : Environment) :
    a.written env form = (implied? env form).toList := by
  have hnone : a.options.filter (·.1 == form.name) = [] := by
    rw [List.filter_eq_nil_iff]
    exact List.any_eq_false.mp h
  rw [written, hnone, implied?]
  cases form.variableName.bind (List.lookup · env) <;> rfl

theorem required_of_not_has (h : a.has form.name = false) (env : Environment) :
    a.required env form =
      match (implied? env form).filter form.accepts with
      | some value => .ok value
      | none => .error .usage := by
  rw [required, optional, written_of_not_has h]
  cases himplied : implied? env form with
  | none => rfl
  | some value =>
    cases haccepts : form.accepts value <;>
      simp only [Option.toList_some, List.head?_cons, Option.filter_some, haccepts] <;> rfl

/-- Without a default it is the variable that has to be set. -/
theorem required_of_variable {key : String} (h : a.has form.name = false) (env : Environment)
    (hkey : form.variableName = some key) (hdefault : form.default = none) :
    a.required env form =
      match (env.lookup key).filter form.accepts with
      | some value => .ok value
      | none => .error .usage := by
  rw [required_of_not_has h, implied?, hkey, hdefault, Option.or_none, Option.bind_some]

theorem required_of_default {key default : String} (h : a.has form.name = false)
    (env : Environment) (hkey : form.variableName = some key)
    (hdefault : form.default = some default) (haccepts : form.accepts = fun _ => true) :
    a.required env form = .ok ((env.lookup key).getD default) := by
  rw [required_of_not_has h, implied?, hkey, hdefault, Option.bind_some, Option.or_some, haccepts]
  rfl

theorem listed_of_variable {key : String} (h : a.has form.name = false) (env : Environment)
    (hkey : form.variableName = some key) (hdefault : form.default = none) :
    a.listed env form = ((env.lookup key).map DeviceConfig.cutAtCommas).getD [] := by
  rw [listed, written_of_not_has h, implied?, hkey, hdefault, Option.or_none, Option.bind_some]
  cases env.lookup key with
  | none => rfl
  | some value => exact List.append_nil _

/-- The environment says nothing of an option without a variable. -/
theorem written_congr (h : form.variableName = none) (env env' : Environment) :
    a.written env form = a.written env' form := by
  rw [written, written, h]
  rfl

theorem optional_congr (h : form.variableName = none) (env env' : Environment) :
    a.optional env form = a.optional env' form := by
  rw [optional, optional, written_congr h env env']

theorem required_congr (h : form.variableName = none) (env env' : Environment) :
    a.required env form = a.required env' form := by
  rw [required, required, optional_congr h env env']

theorem listed_congr (h : form.variableName = none) (env env' : Environment) :
    a.listed env form = a.listed env' form := by
  rw [listed, listed, written_congr h env env']

end Arguments

/-- The options of a run. -/
def runForms : List OptionForm :=
  [classesForm, packageForm, testedAppForm, runnerForm, testPathsForm, bridgeForm, testClassesForm,
    policiesForm, filterForm, packageCommandForm, noPackageForm, timeoutForm, jsonForm, quietForm,
    sessionForm]

/-- The options of a run that are settings of the device. -/
def deviceForms : List OptionForm :=
  [classesForm, packageForm, testedAppForm, runnerForm, testPathsForm, bridgeForm]

/-- The words of a run leave all settings of the device to the environment. -/
def LeavesSettings (words : List String) : Prop :=
  ∀ a, Arguments.read runForms 0 words .empty = .ok a →
    ∀ form ∈ deviceForms, a.has form.name = false

/-- The settings that are read where none is given. -/
theorem readDevice_of_not_has {a : Arguments} (h : ∀ form ∈ deviceForms, a.has form.name = false)
    (env : Environment) :
    readDevice a env =
      match DeviceConfig.written? env with
      | some device => .ok device
      | none => .error .usage := by
  simp only [deviceForms, List.forall_mem_cons] at h
  obtain ⟨hclasses, hpackage, htested, hrunner, hpaths, hbridge, -⟩ := h
  have hlookup : ∀ key, (env.lookup key).filter (fun _ => true) = env.lookup key := fun key => by
    cases env.lookup key <;> rfl
  rw [readDevice, Arguments.required_of_variable hclasses env rfl rfl,
    Arguments.required_of_variable hpackage env rfl rfl,
    Arguments.required_of_variable htested env rfl rfl,
    Arguments.required_of_default hrunner env rfl rfl rfl,
    Arguments.required_of_default hbridge env rfl rfl rfl,
    Arguments.listed_of_variable hpaths env rfl rfl, DeviceConfig.written?]
  change (match DeviceConfig.value? env DeviceConfig.classesKey with
    | some _ => _
    | none => _) >>= _ = _
  simp only [packageForm, testedAppForm, hlookup]
  cases DeviceConfig.value? env DeviceConfig.classesKey with
  | none => rfl
  | some classes =>
    cases env.lookup DeviceConfig.packageKey with
    | none => rfl
    | some package => cases env.lookup DeviceConfig.testedAppKey <;> rfl

/-- **What becomes of a run that leaves its settings to the environment**: the words are enough for
a run if they are in any environment, and then the settings are those that are written. -/
theorem readRun_of_leavesSettings {words : List String} (hwords : LeavesSettings words)
    {env₀ : Environment} {r₀ : RunRequest} (h₀ : readRun words env₀ = .ok r₀) (env : Environment) :
    readRun words env =
      match DeviceConfig.written? env with
      | some device => .ok { r₀ with device }
      | none => .error .usage := by
  rw [readRun] at h₀ ⊢
  obtain ⟨a, hread, h₀⟩ := Coverage.exists_of_bind_eq_ok h₀
  obtain ⟨device₀, -, h₀⟩ := Coverage.exists_of_bind_eq_ok h₀
  obtain ⟨testClasses, htestClasses, h₀⟩ := Coverage.exists_of_bind_eq_ok h₀
  obtain ⟨filter, hfilter, h₀⟩ := Coverage.exists_of_bind_eq_ok h₀
  obtain ⟨command, hcommand, h₀⟩ := Coverage.exists_of_bind_eq_ok h₀
  obtain ⟨session, hsession, h₀⟩ := Coverage.exists_of_bind_eq_ok h₀
  obtain ⟨timeout, htimeout, h₀⟩ := Coverage.exists_of_bind_eq_ok h₀
  -- no other option has a variable
  rw [Arguments.required_congr rfl env₀ env] at htestClasses hcommand htimeout
  rw [Arguments.optional_congr rfl env₀ env] at hfilter hsession
  rw [Arguments.listed_congr rfl env₀ env] at h₀
  simp only [hread, readDevice_of_not_has (hwords a hread), htestClasses, hfilter, hcommand,
    hsession, htimeout, bind, Except.bind]
  cases hcount : count? timeout with
  | none => rw [hcount] at h₀; cases h₀
  | some timeoutMs =>
    rw [hcount] at h₀
    cases h₀
    cases DeviceConfig.written? env <;> rfl

/-- **A run works with the settings as they are written** in its environment, and is refused if one
that it needs is not there. They are what the reader of the environment finds iff the environment is
tidy; what this reader misses in other environments is a package that is set but empty. Where it
misses nothing, a run is not refused and works with the same directory and the same packages. -/
theorem run_works_with_written_settings {words : List String} (hwords : LeavesSettings words)
    {env₀ : Environment} {r₀ : RunRequest}
    (h₀ : Request.read env₀ ("run" :: words) = .ok (.run r₀)) (env : Environment) :
    (Request.read env ("run" :: words) =
      match DeviceConfig.written? env with
      | some device => .ok (.run { r₀ with device })
      | none => .error .usage) ∧
    (∀ device, DeviceConfig.written? env = some device →
      (DeviceConfig.ofEnvironment? env = .ok device ↔ DeviceConfig.IsTidy env) ∧
        ∀ e, DeviceConfig.ofEnvironment? env = .error e →
          ∃ key ∈ [DeviceConfig.packageKey, DeviceConfig.testedAppKey],
            env.lookup key = some "" ∧ e = .missingConfig key) ∧
    ∀ device, DeviceConfig.ofEnvironment? env = .ok device →
      ∃ device', DeviceConfig.written? env = some device' ∧
        device'.classesDir = device.classesDir ∧ device'.testPackage = device.testPackage ∧
          device'.testedAppId = device.testedAppId := by
  refine ⟨?_, fun device h => ⟨DeviceConfig.ofEnvironment?_eq_ok_iff_isTidy h, fun e he =>
    DeviceConfig.exists_empty_of_ofEnvironment?_eq_error h he⟩, fun device h => ?_⟩
  · have hrun : readRun words env₀ = .ok r₀ := by
      change (readRun words env₀).map Request.run = _ at h₀
      cases hr : readRun words env₀ with
      | error e => rw [hr] at h₀; cases h₀
      | ok r => rw [hr] at h₀; cases h₀; rfl
    change (readRun words env).map Request.run = _
    rw [readRun_of_leavesSettings hwords hrun]
    cases DeviceConfig.written? env <;> rfl
  · obtain ⟨classes, package, tested, hclasses, hpackage, htested, rfl⟩ :=
      DeviceConfig.ofEnvironment?_eq_ok_iff.mp h
    exact ⟨_, DeviceConfig.written?_eq_some_iff.mpr ⟨classes, package, tested, hclasses,
      DeviceConfig.lookup_of_value? hpackage, DeviceConfig.lookup_of_value? htested, rfl⟩, rfl, rfl,
      rfl⟩

/-- A run whose test paths are written without blanks works with what the reader of the environment
finds. -/
theorem run_works_with_tidy_settings :
    let words : List String := ["--test-classes", "t", "--no-package"]
    let packages : Environment := [(DeviceConfig.packageKey, "com.example.test"),
      (DeviceConfig.testedAppKey, "com.example")]
    let env₀ : Environment := (DeviceConfig.classesKey, "build") :: packages
    let env : Environment := (DeviceConfig.classesKey, "classes") ::
      (DeviceConfig.testPathsKey, "src/device,src/long run") :: packages
    let r₀ : RunRequest := ⟨⟨Octets.ofString "build", "com.example.test", "com.example",
      DeviceConfig.defaultRunner, [], DeviceConfig.defaultBridge⟩, Octets.ofString "t", [], none,
      ⟨none, 120000⟩, false, false, none⟩
    let device : DeviceConfig := ⟨Octets.ofString "classes", "com.example.test", "com.example",
      DeviceConfig.defaultRunner, ["src/device", "src/long run"], DeviceConfig.defaultBridge⟩
    LeavesSettings words ∧ Request.read env₀ ("run" :: words) = .ok (.run r₀) ∧
      DeviceConfig.IsTidy env ∧
      Request.read env ("run" :: words) = .ok (.run { r₀ with device }) ∧
      DeviceConfig.ofEnvironment? env = .ok device := by
  intro words packages env₀ env r₀ device
  have hread : Arguments.read runForms 0 words .empty =
      .ok ⟨[("test-classes", "t"), ("no-package", "")], []⟩ := by rfl
  have hwords : LeavesSettings words := by
    intro a ha
    rw [hread] at ha
    cases ha
    decide
  have h₀ : Request.read env₀ ("run" :: words) = .ok (.run r₀) := by rfl
  have htidy : DeviceConfig.IsTidy env := by
    refine ⟨by decide, fun value hvalue => ?_⟩
    obtain rfl : "src/device,src/long run" = value := Option.some.inj hvalue
    decide
  obtain ⟨hrun, hagree, -⟩ := run_works_with_written_settings hwords h₀ env
  have hwritten : DeviceConfig.written? env = some device := by rfl
  rw [hwritten] at hrun
  exact ⟨hwords, h₀, htidy, hrun, (hagree device hwritten).1.mpr htidy⟩

/-- A run takes an empty part behind a comma for the beginning of a path, and an empty name for a
package. -/
theorem run_works_with_empty_settings :
    let words : List String := ["--test-classes", "t", "--no-package"]
    let env : Environment := [(DeviceConfig.classesKey, "classes"),
      (DeviceConfig.packageKey, "com.example.test"), (DeviceConfig.testedAppKey, "com.example"),
      (DeviceConfig.testPathsKey, "src/device,")]
    let env' : Environment := [(DeviceConfig.classesKey, "classes"), (DeviceConfig.packageKey, ""),
      (DeviceConfig.testedAppKey, "com.example")]
    LeavesSettings words ∧
      (∃ r device, Request.read env ("run" :: words) = .ok (.run r) ∧
        DeviceConfig.ofEnvironment? env = .ok device ∧
        r.device.instrumentedTestPaths = ["src/device", ""] ∧
        device.instrumentedTestPaths = ["src/device"]) ∧
      ∃ r, Request.read env' ("run" :: words) = .ok (.run r) ∧
        DeviceConfig.ofEnvironment? env' = .error (.missingConfig DeviceConfig.packageKey) := by
  intro words env env'
  have hread : Arguments.read runForms 0 words .empty =
      .ok ⟨[("test-classes", "t"), ("no-package", "")], []⟩ := by rfl
  refine ⟨fun a ha => ?_, ⟨_, _, rfl, rfl, rfl, rfl⟩, _, rfl, rfl⟩
  rw [hread] at ha
  cases ha
  decide

end CommandLine

end MutationTesting
