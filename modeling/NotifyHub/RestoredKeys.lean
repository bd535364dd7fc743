import NotifyHub.SecretsFile
import NotifyHub.TransitionMachine
import Mathlib.Tactic

/-!
# The key of a restored database

The webhooks of the channels are encrypted under `NOTIFYHUB_SECRET_KEY`, which
is not in the dump of the database but in the secrets archived beside it.  The
machine is one installation of the all-in-one image over its starts and stops:
the API writes webhooks under the key which supervisord had when the container
started, and `notifyhub-restore` brings back the webhooks of a backup and the
key they need.  Services which run with another key would give up every
delivery that was restored.

The environment of the container and `overrides.env` stay the same all the time;
the latter wins over the former.  A start sources that file, whereas a restore
looks for its first line which assigns to the key.
-/

namespace NotifyHub.Restore

open Secrets

/-- The key under which the webhook of each channel is encrypted. -/
abbrev Webhooks (Id : Type) := Id → Option Text

def AllUnder {Id : Type} (webhooks : Webhooks Id) (key : Text) : Prop :=
  ∀ id, ∀ used ∈ webhooks id, used = key

/-- A dump with the `secrets.env` of its configuration archive. -/
structure Backup (Id : Type) where
  webhooks : Webhooks Id
  secrets : Text

def Backup.key {Id : Type} (backup : Backup Id) : Text :=
  secretValue secretKeyName backup.secrets

/-- How far `notifyhub-restore` is; `newKey` is the key of the archive when
`KEY_CHANGE` is set. -/
inductive Phase (Id : Type)
  | idle
  | checked (backup : Backup Id) (newKey : Option Text)
  | loaded (newKey : Option Text)
  | written (newKey : Option Text)

structure Installation (Id : Type) where
  secrets : Text
  webhooks : Webhooks Id
  supervisor : Option Text
  serving : Bool
  backups : List (Backup Id)
  phase : Phase Id

/-- What became of a channel when the dump was loaded with errors. -/
inductive Fate
  | kept
  | lost
  | restored
  deriving DecidableEq

/-- The operator, the API and the steps of the script.  `refuse` is a script
which finds open sessions, `kill` one which ends without its trap. -/
inductive Action (Id : Type)
  | boot (fresh : Generator)
  | shutdown
  | save (id : Id)
  | remove (id : Id)
  | backup
  | restore (index : ℕ) (archive skipConfig : Bool)
  | refuse
  | load (errors : Option (Id → Fate))
  | writeKey
  | finish
  | kill

/-- What does not change from one start to the next. -/
structure Settings where
  environment : Environment
  overridesFile : Text
  overrides : Overrides
  newline : ∀ name ∈ secretVars, '\n' ∉ environment name

variable {Id : Type}

/-- `OVERRIDES_KEY`. -/
def Settings.overridesKey (settings : Settings) : Text :=
  secretValue secretKeyName settings.overridesFile

/-- A key which the environment or the overrides fix must be that of the
backup. -/
def Settings.allows (settings : Settings) (key : Text) : Prop :=
  (settings.environment secretKeyName = [] ∨
      settings.environment secretKeyName = key) ∧
    (settings.overridesKey = [] ∨ settings.overridesKey = key)

instance (settings : Settings) (key : Text) :
    Decidable (settings.allows key) :=
  inferInstanceAs (Decidable (_ ∧ _))

/-- The key which supervisord gets if `overrides.env` says what a restore reads
from it. -/
def Settings.exported (settings : Settings) (env : Environment) : Text :=
  if settings.overridesKey = [] then env secretKeyName
  else settings.overridesKey

/-- Sourcing `overrides.env` fixes the key which a restore finds there, or no
key at all. -/
def Settings.Plain (settings : Settings) : Prop :=
  ∀ env, ∀ exported ∈ settings.overrides env,
    exported secretKeyName = settings.exported env

def fateOf (before restored : Option Text) : Fate → Option Text
  | .kept => before
  | .lost => none
  | .restored => restored

/-- `secrets.env` once a new key has been written. -/
def writtenSecrets (file : Text) : Option Text → Text
  | none => file
  | some key => setSecretKey file key

namespace Installation

/-- The checks of the script before it changes anything; they end it or give
the key to write. -/
def check (settings : Settings) (state : Installation Id) (backup : Backup Id)
    (archive skipConfig : Bool) : Option (Option Text) :=
  if archive = false then
    if skipConfig then some none else none
  else if backup.key = [] ∨ ¬settings.allows backup.key then none
  else if secretValue secretKeyName state.secrets = backup.key then some none
  else some (some backup.key)

/-- `restart_services` once the dump has been loaded, also when the passwords
could not be realigned before. -/
def restartServices (state : Installation Id) (newKey : Option Text) :
    Installation Id :=
  { state with serving := newKey.isNone, phase := .idle }

variable [DecidableEq Id]

def step (settings : Settings) (state : Installation Id) :
    Action Id → Option (Installation Id)
  | .boot fresh =>
      if state.supervisor.isSome then none
      else
        let (exported, written) := loadSecrets settings.overrides fresh
          settings.environment state.secrets
        some { state with
          secrets := written
          supervisor := exported.map fun env => env secretKeyName
          serving := exported.isSome }
  | .shutdown =>
      some { state with supervisor := none, serving := false, phase := .idle }
  | .save id =>
      if state.serving then
        some { state with
          webhooks := Function.update state.webhooks id state.supervisor }
      else none
  | .remove id =>
      if state.serving then
        some { state with webhooks := Function.update state.webhooks id none }
      else none
  | .backup =>
      if state.supervisor.isSome then
        some { state with
          backups := ⟨state.webhooks, state.secrets⟩ :: state.backups }
      else none
  | .restore index archive skipConfig =>
      match state.phase with
      | .idle =>
          if state.supervisor.isSome then
            state.backups[index]?.bind fun backup =>
              (state.check settings backup archive skipConfig).map
                fun newKey =>
                  { state with
                    serving := false
                    phase := .checked backup newKey }
          else none
      | _ => none
  | .refuse =>
      match state.phase with
      | .checked _ _ => some { state with serving := true, phase := .idle }
      | _ => none
  | .load errors =>
      match state.phase with
      | .checked backup newKey =>
          some { state with
            webhooks := match errors with
              | none => backup.webhooks
              | some fate => fun id =>
                  fateOf (state.webhooks id) (backup.webhooks id) (fate id)
            phase := .loaded newKey }
      | _ => none
  | .writeKey =>
      match state.phase with
      | .loaded newKey =>
          some { state with
            secrets := writtenSecrets state.secrets newKey
            phase := .written newKey }
      | _ => none
  | .finish =>
      match state.phase with
      | .written newKey => some (state.restartServices newKey)
      | _ => none
  | .kill =>
      match state.phase with
      | .idle => none
      | _ => some { state with phase := .idle }

omit [DecidableEq Id] in
/-- A new installation, with backups of others at most. -/
structure New (state : Installation Id) : Prop where
  secrets : state.secrets = []
  webhooks : ∀ id, state.webhooks id = none
  supervisor : state.supervisor = none
  serving : state.serving = false
  backups : ∀ backup ∈ state.backups, AllUnder backup.webhooks backup.key
  phase : state.phase = .idle

omit [DecidableEq Id] in
/-- The key which the next start exports, unless it has to draw one. -/
def currentKey (settings : Settings) (state : Installation Id) : Text :=
  if settings.overridesKey ≠ [] then settings.overridesKey
  else if settings.environment secretKeyName ≠ [] then
    settings.environment secretKeyName
  else secretValue secretKeyName state.secrets

end Installation

def restoreMachine
    (settings : Settings) (Id : Type) [DecidableEq Id] :
    Machine (Installation Id) (Action Id) where
  Initial := Installation.New
  step := Installation.step settings

/-! ## Attended restores -/

/-- The webhooks are those of the backup, and the key is still to be
written. -/
def Phase.keyPending : Phase Id → Bool
  | .loaded (some _) => true
  | _ => false

/-- A restore has the archive, loads the whole dump, and starts when the
services would get the key of the next start; until its key is written nothing
else happens. -/
def Attended (settings : Settings) (state : Installation Id) :
    Action Id → Prop
  | .restore _ archive _ =>
      archive = true ∧ state.supervisor = some (state.currentKey settings)
  | .load errors => errors.isNone = true
  | .shutdown | .kill | .backup => state.phase.keyPending = false
  | _ => True

instance (settings : Settings) (state : Installation Id)
    (action : Action Id) : Decidable (Attended settings state action) :=
  match action with
  | .restore _ _ _ => inferInstanceAs (Decidable (_ ∧ _))
  | .load _ => inferInstanceAs (Decidable (_ = _))
  | .shutdown | .kill | .backup => inferInstanceAs (Decidable (_ = _))
  | .boot _ | .save _ | .remove _ | .refuse | .writeKey | .finish =>
      .isTrue trivial

/-! ## The invariant -/

/-- What a restore under way has checked and done. -/
def Phase.Sound (settings : Settings) (state : Installation Id) :
    Phase Id → Prop
  | .idle => True
  | .checked backup newKey =>
      state.serving = false ∧
        state.supervisor = some (state.currentKey settings) ∧
        settings.allows backup.key ∧ backup.key ≠ [] ∧
        AllUnder backup.webhooks backup.key ∧
        (newKey = none ∧
            secretValue secretKeyName state.secrets = backup.key ∨
          newKey = some backup.key)
  | .loaded none =>
      state.serving = false ∧
        state.supervisor = some (state.currentKey settings)
  | .loaded (some key) =>
      state.serving = false ∧ settings.allows key ∧ '\n' ∉ key ∧
        AllUnder state.webhooks key
  | .written newKey =>
      state.serving = false ∧
        (newKey = none → state.supervisor = some (state.currentKey settings))

structure Sound (settings : Settings) (state : Installation Id) : Prop where
  bare : secretKeyName ∉ linesOf state.secrets
  supervised : ∀ key ∈ state.supervisor, key ≠ []
  nonempty : ∀ id, ∀ used ∈ state.webhooks id, used ≠ []
  current : state.phase.keyPending = false →
    AllUnder state.webhooks (state.currentKey settings)
  serving : state.serving = true →
    state.supervisor = some (state.currentKey settings)
  backups : ∀ backup ∈ state.backups, settings.allows backup.key →
    AllUnder backup.webhooks backup.key
  up : state.supervisor = none → state.phase = .idle
  phase : state.phase.Sound settings state

section Keys

variable {settings : Settings} {state next : Installation Id}

theorem AllUnder.of_eq
    {webhooks : Webhooks Id} {key other : Text} (hall : AllUnder webhooks key)
    (hsame : other = key) : AllUnder webhooks other :=
  hsame ▸ hall

/-- A key which nothing else fixes is the one of the file. -/
theorem currentKey_of_allows
    {key : Text} (hallows : settings.allows key)
    (hvalue : secretValue secretKeyName state.secrets = key) :
    state.currentKey settings = key := by
  obtain ⟨henvironment, hoverrides⟩ := hallows
  unfold Installation.currentKey
  split
  next hfixed => exact hoverrides.resolve_left hfixed
  split
  next hgiven => exact henvironment.resolve_left hgiven
  · exact hvalue

/-- The key of the next start becomes that of supervisord, and stays the key
of the next start. -/
theorem exported_eq_currentKey
    {fresh : Generator} {loaded : Environment} {written : Text}
    (hbare : secretKeyName ∉ linesOf state.secrets)
    (hboot : persistSecrets fresh settings.environment state.secrets =
      some (loaded, written)) :
    settings.exported loaded ≠ [] ∧
      secretKeyName ∉ linesOf written ∧
      (∀ next : Installation Id, next.secrets = written →
        next.currentKey settings = settings.exported loaded) ∧
      (state.currentKey settings ≠ [] →
        settings.exported loaded = state.currentKey settings) := by
  obtain ⟨read, hload, hpair⟩ := Option.map_eq_some_iff.mp hboot
  obtain ⟨rfl, rfl⟩ := Prod.mk.inj hpair
  have hlines := newline_notMem_secrets fresh settings.newline hload
  have hset := generateMissing_ne fresh read secretKeyName_mem
  have hgiven : settings.environment secretKeyName ≠ [] →
      generateMissing fresh read secretKeyName =
        settings.environment secretKeyName := by
    intro hgiven
    have hkept := loadLines_of_ne hload hgiven
    rw [generateMissing_apply, if_neg (by simp [hkept, hgiven]), hkept]
  refine ⟨?_, bare_notMem_persisted hlines, ?_, ?_⟩
  · unfold Settings.exported
    split
    · exact hset
    next hfixed => exact hfixed
  · intro next hsecrets
    unfold Installation.currentKey Settings.exported
    rw [hsecrets, secretValue_persisted hlines]
    by_cases hfixed : settings.overridesKey = []
    · by_cases hunset : settings.environment secretKeyName = []
      · simp [hfixed, hunset]
      · simp [hfixed, hunset, hgiven hunset]
    · simp [hfixed]
  · unfold Installation.currentKey Settings.exported
    by_cases hfixed : settings.overridesKey = []
    · by_cases hunset : settings.environment secretKeyName = []
      · intro hvalue
        simp only [hfixed, hunset, ne_eq, not_true_eq_false,
          if_false] at hvalue
        have hread := loadLines_secretValue hload hbare hvalue
        rw [if_pos hunset] at hread
        simp [hfixed, hunset, generateMissing_apply, hread, hvalue]
      · simp [hfixed, hunset, hgiven hunset]
    · simp [hfixed]

end Keys

/-! ## Steps -/

section Steps

variable {settings : Settings} {state next : Installation Id}

theorem Sound.new (hnew : state.New) : Sound settings state where
  bare := by simp [hnew.secrets, linesOf, linesFrom]
  supervised := by simp [hnew.supervisor]
  nonempty := by simp [hnew.webhooks]
  current _ := by simp [AllUnder, hnew.webhooks]
  serving hserving := by simp [hnew.serving] at hserving
  backups backup hmem _ := hnew.backups backup hmem
  up _ := hnew.phase
  phase := by
    rw [hnew.phase]
    trivial

/-- `load_secrets` has written the file; `overrides.env` may still end the
start. -/
theorem Sound.boot
    (hplain : settings.Plain) (hsound : Sound settings state)
    (hdown : state.supervisor = none) {fresh : Generator}
    {loaded : Environment} {written : Text}
    (hboot : persistSecrets fresh settings.environment state.secrets =
      some (loaded, written)) :
    Sound settings
      { state with
        secrets := written
        supervisor := (settings.overrides loaded).map
          fun env => env secretKeyName
        serving := (settings.overrides loaded).isSome } := by
  have hphase := hsound.up hdown
  obtain ⟨hset, hbare, hnext, hsame⟩ :=
    exported_eq_currentKey hsound.bare hboot
  have hstarted := hnext
    { state with
      secrets := written
      supervisor := (settings.overrides loaded).map
        fun env => env secretKeyName
      serving := (settings.overrides loaded).isSome } rfl
  refine ⟨hbare, ?_, hsound.nonempty, fun _ => ?_, fun hserves => ?_,
    hsound.backups, fun _ => hphase, ?_⟩
  · intro key hkey
    obtain ⟨exported, hexported, rfl⟩ := Option.map_eq_some_iff.mp hkey
    rw [hplain loaded exported hexported]
    exact hset
  · have hcurrent := hsound.current (by rw [hphase]; rfl)
    intro id used hused
    have hkey := hcurrent id used hused
    rw [hkey, hstarted]
    exact (hsame (hkey ▸ hsound.nonempty id used hused)).symm
  · obtain ⟨exported, hexported⟩ := Option.isSome_iff_exists.mp hserves
    rw [hstarted, hexported, Option.map_some,
      hplain loaded exported hexported]
  · change Phase.Sound settings _ state.phase
    rw [hphase]
    trivial

/-- A line of `secrets.env` has ended the start. -/
theorem Sound.halt
    (hsound : Sound settings state) (hdown : state.supervisor = none) :
    Sound settings { state with supervisor := none, serving := false } := by
  refine ⟨hsound.bare, nofun, hsound.nonempty, hsound.current, nofun,
    hsound.backups, fun _ => hsound.up hdown, ?_⟩
  change Phase.Sound settings _ state.phase
  rw [hsound.up hdown]
  trivial

theorem Sound.idle_of_serving
    (hsound : Sound settings state) (hserving : state.serving = true) :
    state.phase = .idle := by
  have hphase := hsound.phase
  cases hcase : state.phase with
  | idle => rfl
  | checked backup newKey =>
      rw [hcase] at hphase
      rw [hphase.1] at hserving
      contradiction
  | loaded newKey =>
      rw [hcase] at hphase
      cases newKey with
      | none =>
          rw [hphase.1] at hserving
          contradiction
      | some key =>
          rw [hphase.1] at hserving
          contradiction
  | written newKey =>
      rw [hcase] at hphase
      rw [hphase.1] at hserving
      contradiction

variable [DecidableEq Id]

theorem mem_update
    {webhooks : Webhooks Id} {id other : Id} {webhook : Option Text}
    {used : Text} (hused : used ∈ Function.update webhooks id webhook other) :
    used ∈ webhook ∨ used ∈ webhooks other := by
  by_cases hother : other = id
  · subst hother
    rw [Function.update_self] at hused
    exact .inl hused
  · rw [Function.update_of_ne hother] at hused
    exact .inr hused

/-- The API writes a webhook under the key of supervisord, or deletes one. -/
theorem Sound.update
    (hsound : Sound settings state) (hserving : state.serving = true)
    (id : Id) {webhook : Option Text}
    (hwebhook : webhook = state.supervisor ∨ webhook = none) :
    Sound settings
      { state with webhooks := Function.update state.webhooks id webhook } := by
  have hphase := hsound.idle_of_serving hserving
  have hsupervisor := hsound.serving hserving
  have hvalue : ∀ used ∈ webhook, used ≠ [] ∧
      used = state.currentKey settings := by
    intro used hused
    rcases hwebhook with rfl | rfl
    · refine ⟨hsound.supervised used hused, ?_⟩
      rw [hsupervisor] at hused
      exact (Option.some.inj hused).symm
    · contradiction
  refine ⟨hsound.bare, hsound.supervised, fun other used hused => ?_,
    fun hpending other used hused => ?_, hsound.serving, hsound.backups,
    hsound.up, ?_⟩
  · rcases mem_update hused with hnew | hold
    · exact (hvalue used hnew).1
    · exact hsound.nonempty other used hold
  · rcases mem_update hused with hnew | hold
    · exact (hvalue used hnew).2
    · exact hsound.current hpending other used hold
  · change Phase.Sound settings _ state.phase
    rw [hphase]
    trivial

omit [DecidableEq Id] in
theorem Sound.shutdown
    (hsound : Sound settings state) (hpending : state.phase.keyPending = false) :
    Sound settings
      { state with supervisor := none, serving := false, phase := .idle } :=
  ⟨hsound.bare, nofun, hsound.nonempty, fun _ => hsound.current hpending,
    nofun, hsound.backups, fun _ => rfl, trivial⟩

omit [DecidableEq Id] in
/-- The script ends without its trap. -/
theorem Sound.kill
    (hsound : Sound settings state) (hpending : state.phase.keyPending = false) :
    Sound settings { state with phase := .idle } :=
  ⟨hsound.bare, hsound.supervised, hsound.nonempty,
    fun _ => hsound.current hpending, hsound.serving, hsound.backups,
    fun _ => rfl, trivial⟩

omit [DecidableEq Id] in
/-- A backup which may be restored here has the key of its webhooks. -/
theorem Sound.backup
    (hsound : Sound settings state) (hpending : state.phase.keyPending = false) :
    Sound settings
      { state with
        backups := ⟨state.webhooks, state.secrets⟩ :: state.backups } := by
  refine ⟨hsound.bare, hsound.supervised, hsound.nonempty, hsound.current,
    hsound.serving, fun backup hmem hallows => ?_, hsound.up, hsound.phase⟩
  rcases List.mem_cons.mp hmem with rfl | hmem
  · exact (hsound.current hpending).of_eq
      (currentKey_of_allows hallows rfl).symm
  · exact hsound.backups backup hmem hallows

omit [DecidableEq Id] in
theorem check_eq_some
    {backup : Backup Id} {skipConfig : Bool} {newKey : Option Text}
    (hcheck : state.check settings backup true skipConfig = some newKey) :
    settings.allows backup.key ∧ backup.key ≠ [] ∧
      (newKey = none ∧
          secretValue secretKeyName state.secrets = backup.key ∨
        newKey = some backup.key) := by
  unfold Installation.check at hcheck
  rw [if_neg (by simp)] at hcheck
  split at hcheck
  · contradiction
  next hfits =>
    rw [not_or, not_not] at hfits
    refine ⟨hfits.2, hfits.1, ?_⟩
    split at hcheck
    next hsame => exact .inl ⟨(Option.some.inj hcheck).symm, hsame⟩
    · exact .inr (Option.some.inj hcheck).symm

omit [DecidableEq Id] in
theorem Sound.restore
    (hsound : Sound settings state) {backup : Backup Id} {skipConfig : Bool}
    {newKey : Option Text} (hmem : backup ∈ state.backups)
    (hsupervisor : state.supervisor = some (state.currentKey settings))
    (hcheck : state.check settings backup true skipConfig = some newKey)
    (hphase : state.phase = .idle) :
    Sound settings
      { state with serving := false, phase := .checked backup newKey } := by
  obtain ⟨hallows, hkey, hnew⟩ := check_eq_some hcheck
  refine ⟨hsound.bare, hsound.supervised, hsound.nonempty, fun _ => ?_, nofun,
    hsound.backups, fun hdown => ?_, rfl, hsupervisor, hallows, hkey,
    hsound.backups backup hmem hallows, hnew⟩
  · exact hsound.current (by rw [hphase]; rfl)
  · rw [show state.supervisor = none from hdown] at hsupervisor
    contradiction

omit [DecidableEq Id] in
theorem Sound.refuse
    (hsound : Sound settings state) {backup : Backup Id}
    {newKey : Option Text} (hphase : state.phase = .checked backup newKey) :
    Sound settings { state with serving := true, phase := .idle } := by
  have hchecked := hsound.phase
  rw [hphase] at hchecked
  exact ⟨hsound.bare, hsound.supervised, hsound.nonempty,
    fun _ => hsound.current (by rw [hphase]; rfl), fun _ => hchecked.2.1,
    hsound.backups, fun _ => rfl, trivial⟩

omit [DecidableEq Id] in
theorem Sound.load
    (hsound : Sound settings state) {backup : Backup Id}
    {newKey : Option Text} (hphase : state.phase = .checked backup newKey) :
    Sound settings
      { state with webhooks := backup.webhooks, phase := .loaded newKey } := by
  have hchecked := hsound.phase
  rw [hphase] at hchecked
  obtain ⟨hserving, hsupervisor, hallows, hkey, hall, hnew⟩ := hchecked
  have hup : state.supervisor ≠ none := by
    rw [hsupervisor]
    exact Option.some_ne_none _
  refine ⟨hsound.bare, hsound.supervised, fun id used hused => ?_,
    fun hpending => ?_, fun hserves => ?_, hsound.backups,
    fun hdown => absurd hdown hup, ?_⟩
  · exact hall id used hused ▸ hkey
  · rcases hnew with ⟨rfl, hvalue⟩ | rfl
    · exact hall.of_eq (currentKey_of_allows hallows hvalue)
    · contradiction
  · exact absurd hserves (by simp [hserving])
  · rcases hnew with ⟨rfl, hvalue⟩ | rfl
    · exact ⟨hserving, hsupervisor⟩
    · exact ⟨hserving, hallows, newline_notMem_secretValue _ _, hall⟩

omit [DecidableEq Id] in
/-- From the moment the key is written the next start decrypts what has been
restored. -/
theorem Sound.writeKey
    (hsound : Sound settings state) {newKey : Option Text}
    (hphase : state.phase = .loaded newKey) :
    Sound settings
      { state with
        secrets := writtenSecrets state.secrets newKey
        phase := .written newKey } := by
  have hloaded := hsound.phase
  rw [hphase] at hloaded
  have hup : state.supervisor ≠ none := by
    intro hdown
    have hidle := hsound.up hdown
    rw [hphase] at hidle
    contradiction
  cases newKey with
  | none =>
      obtain ⟨hserving, hsupervisor⟩ := hloaded
      exact ⟨hsound.bare, hsound.supervised, hsound.nonempty,
        fun _ => hsound.current (by rw [hphase]; rfl), hsound.serving,
        hsound.backups, fun hdown => absurd hdown hup, hserving,
        fun _ => hsupervisor⟩
  | some key =>
      obtain ⟨hserving, hallows, hnewline, hall⟩ := hloaded
      refine ⟨bare_notMem_setSecretKey hnewline hsound.bare,
        hsound.supervised, hsound.nonempty, fun _ => ?_, fun hserves => ?_,
        hsound.backups, fun hdown => absurd hdown hup, hserving, nofun⟩
      · refine hall.of_eq (currentKey_of_allows hallows ?_)
        exact secretValue_setSecretKey hnewline state.secrets
      · exact absurd hserves (by simp [hserving])

omit [DecidableEq Id] in
theorem Sound.finish
    (hsound : Sound settings state) {newKey : Option Text}
    (hphase : state.phase = .written newKey) :
    Sound settings (state.restartServices newKey) := by
  have hwritten := hsound.phase
  rw [hphase] at hwritten
  refine ⟨hsound.bare, hsound.supervised, hsound.nonempty,
    fun _ => hsound.current (by rw [hphase]; rfl), fun hserves => ?_,
    hsound.backups, fun _ => rfl, trivial⟩
  exact hwritten.2 (Option.isNone_iff_eq_none.mp hserves)

theorem Sound.step
    (hplain : settings.Plain) (hsound : Sound settings state)
    {action : Action Id}
    (hattended : Attended settings state action)
    (hstep : state.step settings action = some next) : Sound settings next := by
  cases action with
  | boot fresh =>
      simp only [Installation.step] at hstep
      split at hstep
      · contradiction
      next hup =>
        have hdown : state.supervisor = none := by simpa using hup
        cases hboot : persistSecrets fresh settings.environment
            state.secrets with
        | none =>
            simp only [loadSecrets, hboot] at hstep
            exact Option.some.inj hstep ▸ hsound.halt hdown
        | some result =>
            rw [loadSecrets_eq hboot] at hstep
            exact Option.some.inj hstep ▸ hsound.boot hplain hdown hboot
  | shutdown => exact Option.some.inj hstep ▸ hsound.shutdown hattended
  | save id =>
      simp only [Installation.step] at hstep
      split at hstep
      next hserving =>
        exact Option.some.inj hstep ▸ hsound.update hserving id (.inl rfl)
      · contradiction
  | remove id =>
      simp only [Installation.step] at hstep
      split at hstep
      next hserving =>
        exact Option.some.inj hstep ▸ hsound.update hserving id (.inr rfl)
      · contradiction
  | backup =>
      simp only [Installation.step] at hstep
      split at hstep
      · exact Option.some.inj hstep ▸ hsound.backup hattended
      · contradiction
  | restore index archive skipConfig =>
      obtain ⟨rfl, hsupervisor⟩ := hattended
      cases hphase : state.phase with
      | idle =>
          simp only [Installation.step, hphase] at hstep
          split at hstep
          · obtain ⟨backup, hbackup, hchecked⟩ :=
              Option.bind_eq_some_iff.mp hstep
            obtain ⟨newKey, hcheck, rfl⟩ := Option.map_eq_some_iff.mp hchecked
            exact hsound.restore (List.mem_of_getElem? hbackup) hsupervisor
              hcheck hphase
          · contradiction
      | _ => simp [Installation.step, hphase] at hstep
  | refuse =>
      cases hphase : state.phase with
      | checked backup newKey =>
          simp only [Installation.step, hphase, Option.some.injEq] at hstep
          exact hstep ▸ hsound.refuse hphase
      | _ => simp [Installation.step, hphase] at hstep
  | load errors =>
      cases hphase : state.phase with
      | checked backup newKey =>
          obtain rfl := Option.isNone_iff_eq_none.mp hattended
          simp only [Installation.step, hphase, Option.some.injEq] at hstep
          exact hstep ▸ hsound.load hphase
      | _ => simp [Installation.step, hphase] at hstep
  | writeKey =>
      cases hphase : state.phase with
      | loaded newKey =>
          simp only [Installation.step, hphase, Option.some.injEq] at hstep
          exact hstep ▸ hsound.writeKey hphase
      | _ => simp [Installation.step, hphase] at hstep
  | finish =>
      cases hphase : state.phase with
      | written newKey =>
          simp only [Installation.step, hphase, Option.some.injEq] at hstep
          exact hstep ▸ hsound.finish hphase
      | _ => simp [Installation.step, hphase] at hstep
  | kill =>
      simp only [Installation.step] at hstep
      split at hstep
      · contradiction
      · exact Option.some.inj hstep ▸ hsound.kill hattended

end Steps

/-! ## The services decrypt every webhook -/

variable [DecidableEq Id]

/-- Nothing is fixed outside the volume. -/
def unset : Settings where
  environment _ := []
  overridesFile := []
  overrides := some
  newline := by simp

/-- An empty volume beside the backup of another installation, whose channel 1
needs the key `k`. -/
def emptyVolume : Installation ℕ where
  secrets := []
  webhooks _ := none
  supervisor := none
  serving := false
  backups := [⟨fun id => if id = 1 then some ['k'] else none,
    setSecretKey [] ['k']⟩]
  phase := .idle

/-- A restore of the first backup from its checks to its end. -/
def restoreFirst : List (Action ℕ) :=
  [.restore 0 true false, .load none, .writeKey, .finish]

/-- `export NOTIFYHUB_SECRET_KEY=q`, which no restore sees. -/
def exportsKey : Settings where
  environment _ := []
  overridesFile := "export NOTIFYHUB_SECRET_KEY=q\n".toList
  overrides := fixesKey ['q']
  newline := by simp

/-- The backup is restored again before the container is restarted; the dump
is corrupt from its first byte; the container stops before the key is written;
`overrides.env` exports another key. -/
def mishaps : List (Settings × List (Action ℕ)) :=
  [(unset, [.boot zeros] ++ restoreFirst ++ restoreFirst),
    (unset, [.boot zeros, .save 2, .restore 0 true false,
      .load (some fun _ => .kept), .writeKey, .finish, .shutdown,
      .boot zeros]),
    (unset, [.boot zeros, .restore 0 true false, .load none, .shutdown,
      .boot zeros]),
    (exportsKey, [.boot zeros] ++ restoreFirst ++ [.shutdown, .boot zeros])]

/-- Each of them ends with services which run with a key that is not the one
of a webhook. -/
theorem services_decrypt_mishaps :
    ∀ mishap ∈ mishaps, ∃ state,
      (restoreMachine mishap.1 ℕ).run emptyVolume mishap.2 = some state ∧
      state.serving = true ∧
      ∃ id used key, state.webhooks id = some used ∧
        state.supervisor = some key ∧ used ≠ key := by
  intro mishap hmem
  simp only [mishaps, List.mem_cons, List.not_mem_nil, or_false] at hmem
  rcases hmem with rfl | rfl | rfl | rfl
  · exact ⟨_, rfl, by decide, 1, ['k'], ['0'], by decide⟩
  · exact ⟨_, rfl, by decide, 2, ['0'], ['k'], by decide⟩
  · exact ⟨_, rfl, by decide, 1, ['k'], ['0'], by decide⟩
  · exact ⟨_, rfl, by decide, 1, ['k'], ['q'], by decide⟩

end NotifyHub.Restore
