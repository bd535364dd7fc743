import NotifyHub.IngestInputs
import Mathlib.Tactic

/-!
# The catalogue of the builtin presets

A catalogue is a list of presets with distinct keys and names, all of whose
texts fit the columns into which a tenant copies them.
-/

namespace NotifyHub.Presets

structure PresetRuleSpec where
  pattern : Text
  severity : Severity
  caseInsensitive : Bool := true
  deriving DecidableEq

structure PresetSpec where
  key : Text
  name : Text
  description : Text
  rules : List PresetRuleSpec
  deriving DecidableEq

/-- The column `String(limit)` holds the text; Postgres refuses NUL. -/
def FitsColumn (limit : ℕ) (text : Text) : Prop :=
  text.length ≤ limit ∧ Ingestion.nul ∉ text

instance (limit : ℕ) (text : Text) : Decidable (FitsColumn limit text) :=
  inferInstanceAs (Decidable (_ ∧ _))

/-- The widths of the columns of a preset and of its rules, and the largest
priority of a rule. -/
structure PresetSpec.FitsColumns (spec : PresetSpec) : Prop where
  key : FitsColumn 64 spec.key
  name : FitsColumn 120 spec.name
  description : FitsColumn 500 spec.description
  patterns : ∀ rule ∈ spec.rules, FitsColumn 200 rule.pattern
  priorities : spec.rules.length ≤ 214748364

structure Catalogue where
  specs : List PresetSpec
  keys_nodup : (specs.map PresetSpec.key).Nodup
  names_nodup : (specs.map PresetSpec.name).Nodup
  fits : ∀ spec ∈ specs, spec.FitsColumns

/-- `BUILTIN_BY_KEY.get`. -/
def Catalogue.byKey (catalogue : Catalogue) (key : Text) : Option PresetSpec :=
  catalogue.specs.find? fun spec => spec.key = key

/-- A literal fits by its characters, without decoding it. -/
theorem fitsColumn_literal {text : String} {chars : List Char} {limit : ℕ}
    (htext : text = String.ofList chars) (hfits : FitsColumn limit chars) :
    FitsColumn limit text.toList := by
  rw [htext, String.toList_ofList]
  exact hfits

theorem fitsColumn_literals {first second : String} {chars others : List Char}
    {limit : ℕ} (hfirst : first = String.ofList chars)
    (hsecond : second = String.ofList others)
    (hfits : FitsColumn limit (chars ++ others)) :
    FitsColumn limit (first.toList ++ second.toList) := by
  rw [hfirst, hsecond, String.toList_ofList, String.toList_ofList]
  exact hfits

/-! ## The presets -/



def bashGeneric : PresetSpec where
  key := "bash-generic".toList
  name := "Bash generico".toList
  description :=
    "Errori comuni di shell e coreutils: comando assente, permessi, disco pieno, ".toList
      ++ "segmentation fault, rete irraggiungibile. Da applicare a quasi tutti gli script.".toList
  rules := [
    { pattern :=
        "No space left on device|Spazio esaurito sul dispositivo|Disk quota exceeded".toList
      severity := .critical },
    { pattern := "Segmentation fault|core dumped|Bus error|Aborted \\(core".toList
      severity := .critical },
    { pattern :=
        "Out of memory|Cannot allocate memory|oom.kill|".toList
          ++ "Killed process|Impossibile allocare".toList
      severity := .critical },
    { pattern := "Input/output error|Errore di input/output|Structure needs cleaning".toList
      severity := .critical },
    { pattern := "Read-only file system|File system in sola lettura|Stale file handle".toList
      severity := .error },
    { pattern :=
        "command not found|comando non trovato|: not found|".toList
          ++ "Exec format error|cannot execute binary file".toList
      severity := .error },
    { pattern :=
        "Permission denied|Permesso negato|Operation not permitted|".toList
          ++ "Operazione non permessa".toList
      severity := .error },
    { pattern := "No such file or directory|File o directory non esistente".toList
      severity := .error },
    { pattern :=
        "syntax error near unexpected token|unexpected EOF while looking for|".toList
          ++ "unbound variable|bad substitution".toList
      severity := .error },
    { pattern :=
        "Connection refused|Connection timed out|No route to host|".toList
          ++ "Network is unreachable|Name or service not known".toList
      severity := .error },
    { pattern := "Too many open files|Argument list too long|Cannot fork|Resource deadlock".toList
      severity := .error },
    { pattern := "\\b(ERROR|ERRORE|FATAL|FATALE|FAILED|FAILURE|FALLITO|FALLIMENTO)\\b".toList
      severity := .error },
    { pattern := "Device or resource busy|Text file busy|Resource temporarily unavailable".toList
      severity := .warning },
    { pattern := "\\b(WARNING|WARN|ATTENZIONE|AVVISO|deprecated|deprecato)\\b".toList
      severity := .warning }]

def postgres : PresetSpec where
  key := "postgres".toList
  name := "PostgreSQL".toList
  description :=
    "Livelli di log del server (PANIC, FATAL, ERROR, WARNING) più gli ".toList
      ++ "errori tipici di psql, pg_dump e pg_restore.".toList
  rules := [
    { pattern := "PANIC:".toList
      severity := .critical
      caseInsensitive := false },
    { pattern := "FATAL:".toList
      severity := .critical
      caseInsensitive := false },
    { pattern :=
        "could not write to file|could not fsync file|invalid page in block|".toList
          ++ "data directory .* is not accessible".toList
      severity := .critical },
    { pattern :=
        "No space left on device|could not extend file|database is not accepting commands".toList
      severity := .critical },
    { pattern :=
        "could not connect to server|server closed the connection unexpectedly|".toList
          ++ "could not translate host name".toList
      severity := .error },
    { pattern :=
        "pg_dump: error|pg_restore: error|pg_basebackup: error|".toList
          ++ "psql: error|pg_dumpall: error".toList
      severity := .error },
    { pattern := "deadlock detected|deadlock rilevato".toList
      severity := .error },
    { pattern :=
        "permission denied for|must be owner of|role .* does not exist|".toList
          ++ "database .* does not exist".toList
      severity := .error },
    { pattern :=
        "violates unique constraint|violates foreign key constraint|".toList
          ++ "violates not-null constraint|violates check constraint".toList
      severity := .error },
    { pattern := "too many clients already|remaining connection slots are reserved".toList
      severity := .error },
    { pattern := "ERROR:".toList
      severity := .error
      caseInsensitive := false },
    { pattern :=
        "canceling statement due to statement timeout|".toList
          ++ "canceling statement due to lock timeout|terminating connection due to".toList
      severity := .warning },
    { pattern :=
        "checkpoints are occurring too frequently|".toList
          ++ "using stale statistics|skipping vacuum of".toList
      severity := .warning },
    { pattern := "WARNING:".toList
      severity := .warning
      caseInsensitive := false }]

def mongodb : PresetSpec where
  key := "mongodb".toList
  name := "MongoDB".toList
  description :=
    "Log del server (campo di severità F/E/W del formato JSON), errori di connessione ".toList
      ++ "e autenticazione, esiti di mongodump e mongorestore.".toList
  rules := [
    { pattern :=
        "Fatal assertion|invariant failure|Unrecoverable error|".toList
          ++ "WiredTiger error|Got signal: [0-9]+".toList
      severity := .critical },
    { pattern := "\"s\":\"F\"".toList
      severity := .critical
      caseInsensitive := false },
    { pattern := "out of memory|Cannot allocate memory|exceeded memory limit|OOM".toList
      severity := .critical },
    { pattern :=
        "MongoNetworkError|No suitable servers found|server selection timed out|".toList
          ++ "connection refused|couldn't connect to server".toList
      severity := .error },
    { pattern :=
        "Authentication failed|AuthenticationFailed|requires authentication|".toList
          ++ "not authorized on|Unauthorized".toList
      severity := .error },
    { pattern := "E11000 duplicate key error".toList
      severity := .error },
    { pattern :=
        "NotPrimaryError|not master|ReplicaSetNoPrimary|No primary detected|".toList
          ++ "InterruptedDueToReplStateChange".toList
      severity := .error },
    { pattern :=
        "Failed: |failed to restore|failed to dump|error writing data|error connecting".toList
      severity := .error },
    { pattern := "\"s\":\"E\"".toList
      severity := .error
      caseInsensitive := false },
    { pattern := "MaxTimeMSExpired|operation exceeded time limit|WriteConflict|slow query".toList
      severity := .warning },
    { pattern := "\"s\":\"W\"".toList
      severity := .warning
      caseInsensitive := false }]

def tar : PresetSpec where
  key := "tar".toList
  name := "tar".toList
  description :=
    "Archiviazione con tar e gzip: archivi danneggiati, file illeggibili, ".toList
      ++ "spazio esaurito, uscita con errori differiti.".toList
  rules := [
    { pattern := "No space left on device|Wrote only .* of .* bytes|Cannot write".toList
      severity := .critical },
    { pattern :=
        "Unexpected EOF in archive|Damaged tar archive|[Cc]hecksum error|".toList
          ++ "invalid compressed data|unexpected end of file".toList
      severity := .critical },
    { pattern :=
        "Error is not recoverable|Skipping to next header|".toList
          ++ "This does not look like a tar archive".toList
      severity := .error },
    { pattern := "Error exit delayed from previous errors|Exiting with failure status".toList
      severity := .error },
    { pattern :=
        "Cannot open|Cannot stat|Cannot read|Cannot mkdir|Cannot hard link|Cannot symlink".toList
      severity := .error },
    { pattern := "Permission denied|Permesso negato".toList
      severity := .error },
    { pattern := "Not found in archive|Required occurrence not found".toList
      severity := .error },
    { pattern :=
        "Cowardly refusing to create an empty archive|".toList
          ++ "Refusing to read archive contents from terminal".toList
      severity := .error },
    { pattern :=
        "file changed as we read it|socket ignored|Cannot utime|".toList
          ++ "Cannot change mode|Cannot change ownership".toList
      severity := .warning }]

def rclone : PresetSpec where
  key := "rclone".toList
  name := "rclone".toList
  description :=
    "Sincronizzazioni con rclone: livelli di log CRITICAL/ERROR, quota esaurita, ".toList
      ++ "credenziali scadute, file corrotti in transito, riga finale di statistiche.".toList
  rules := [
    { pattern := "CRITICAL".toList
      severity := .critical
      caseInsensitive := false },
    { pattern :=
        "corrupted on transfer|sizes differ|hashes differ|".toList
          ++ "md5 differ|failed to authenticate".toList
      severity := .critical },
    { pattern :=
        "quota exceeded|storageQuotaExceeded|insufficient space|".toList
          ++ "No space left on device|over quota".toList
      severity := .critical },
    { pattern := "\\bERROR\\b".toList
      severity := .error
      caseInsensitive := false },
    { pattern := "Failed to (copy|sync|move|check|delete|purge|mkdir|rmdir|transfer)".toList
      severity := .error },
    { pattern :=
        "didn't find section in config file|couldn't connect|".toList
          ++ "couldn't fetch token|config file not found".toList
      severity := .error },
    { pattern :=
        "401 Unauthorized|403 Forbidden|invalid_grant|token expired|authentication failed".toList
      severity := .error },
    { pattern := "Errors: +[1-9]".toList
      severity := .error
      caseInsensitive := false },
    { pattern := "directory not found|object not found|not found in source".toList
      severity := .error },
    { pattern :=
        "429 Too Many Requests|rate limit|connection reset by peer|".toList
          ++ "i/o timeout|context deadline exceeded".toList
      severity := .warning },
    { pattern := "Attempt [0-9]+/[0-9]+ failed|Can't transfer non file|will retry".toList
      severity := .warning },
    { pattern := "\\bWARNING\\b".toList
      severity := .warning
      caseInsensitive := false }]

/-! ## Their columns -/

theorem patterns_nil :
    ∀ rule ∈ ([] : List PresetRuleSpec), FitsColumn 200 rule.pattern :=
  List.forall_mem_nil _

theorem patterns_cons {text : String} {chars : List Char} {severity : Severity}
    {caseInsensitive : Bool} {rules : List PresetRuleSpec}
    (hrules : ∀ rule ∈ rules, FitsColumn 200 rule.pattern)
    (htext : text = String.ofList chars) (hfits : FitsColumn 200 chars) :
    ∀ rule ∈ ⟨text.toList, severity, caseInsensitive⟩ :: rules,
      FitsColumn 200 rule.pattern :=
  List.forall_mem_cons.mpr ⟨fitsColumn_literal htext hfits, hrules⟩

theorem patterns_append {first second : String} {chars others : List Char}
    {severity : Severity} {caseInsensitive : Bool}
    {rules : List PresetRuleSpec}
    (hrules : ∀ rule ∈ rules, FitsColumn 200 rule.pattern)
    (hfirst : first = String.ofList chars)
    (hsecond : second = String.ofList others)
    (hfits : FitsColumn 200 (chars ++ others)) :
    ∀ rule ∈ ⟨first.toList ++ second.toList, severity, caseInsensitive⟩ :: rules,
      FitsColumn 200 rule.pattern :=
  List.forall_mem_cons.mpr ⟨fitsColumn_literals hfirst hsecond hfits, hrules⟩

set_option maxRecDepth 1000 in
theorem bashGeneric_fits : bashGeneric.FitsColumns where
  key := fitsColumn_literal rfl (by decide +kernel)
  name := fitsColumn_literal rfl (by decide +kernel)
  description := fitsColumn_literals rfl rfl (by decide +kernel)
  patterns := by
    iterate 14
      first
      | with_reducible refine patterns_append ?_ rfl rfl (by decide +kernel)
      | refine patterns_cons ?_ rfl (by decide +kernel)
    exact patterns_nil
  priorities := by decide

theorem postgres_fits : postgres.FitsColumns where
  key := fitsColumn_literal rfl (by decide +kernel)
  name := fitsColumn_literal rfl (by decide +kernel)
  description := fitsColumn_literals rfl rfl (by decide +kernel)
  patterns := by
    iterate 14
      first
      | with_reducible refine patterns_append ?_ rfl rfl (by decide +kernel)
      | refine patterns_cons ?_ rfl (by decide +kernel)
    exact patterns_nil
  priorities := by decide

set_option maxRecDepth 1000 in
theorem mongodb_fits : mongodb.FitsColumns where
  key := fitsColumn_literal rfl (by decide +kernel)
  name := fitsColumn_literal rfl (by decide +kernel)
  description := fitsColumn_literals rfl rfl (by decide +kernel)
  patterns := by
    refine patterns_append ?_ rfl rfl (by decide +kernel)
    iterate 10
      first
      | with_reducible refine patterns_append ?_ rfl rfl (by decide +kernel)
      | refine patterns_cons ?_ rfl (by decide +kernel)
    exact patterns_nil
  priorities := by decide

theorem tar_fits : tar.FitsColumns where
  key := fitsColumn_literal rfl (by decide +kernel)
  name := fitsColumn_literal rfl (by decide +kernel)
  description := fitsColumn_literals rfl rfl (by decide +kernel)
  patterns := by
    iterate 9
      first
      | with_reducible refine patterns_append ?_ rfl rfl (by decide +kernel)
      | refine patterns_cons ?_ rfl (by decide +kernel)
    exact patterns_nil
  priorities := by decide

set_option maxRecDepth 1000 in
theorem rclone_fits : rclone.FitsColumns where
  key := fitsColumn_literal rfl (by decide +kernel)
  name := fitsColumn_literal rfl (by decide +kernel)
  description := fitsColumn_literals rfl rfl (by decide +kernel)
  patterns := by
    iterate 12
      first
      | with_reducible refine patterns_append ?_ rfl rfl (by decide +kernel)
      | refine patterns_cons ?_ rfl (by decide +kernel)
    exact patterns_nil
  priorities := by decide

/-- `BUILTIN_PRESETS`. -/
def builtinPresets : Catalogue where
  specs := [bashGeneric, postgres, mongodb, tar, rclone]
  keys_nodup := by decide +kernel
  names_nodup := by decide +kernel
  fits := List.forall_mem_cons.mpr ⟨bashGeneric_fits,
    List.forall_mem_cons.mpr ⟨postgres_fits,
    List.forall_mem_cons.mpr ⟨mongodb_fits,
    List.forall_mem_cons.mpr ⟨tar_fits,
    List.forall_mem_cons.mpr ⟨rclone_fits, List.forall_mem_nil _⟩⟩⟩⟩⟩

end NotifyHub.Presets
