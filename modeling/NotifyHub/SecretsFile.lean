import NotifyHub.DomainTypes
import Mathlib.Logic.Function.Basic
import Mathlib.Tactic

/-!
# The file of the secrets

`/data/config/secrets.env` as the scripts of the all-in-one image read and
write it: `load_secrets` at the start of the container, `secret_value` and
`set_secret_key` in a restore.  A variable of the environment wins over the
file, and an empty one counts as unset.  `overrides.env`, which a start sources
after it has written the secrets, may set any variable or end the start.
-/

namespace NotifyHub.Secrets

/-- The value of every variable; an unset one is empty. -/
abbrev Environment := Text → Text

/-- What sourcing `overrides.env` makes of the variables, unless it ends the
script.  Without the file it is `some`. -/
abbrev Overrides := Environment → Option Environment

/-! ## Lines -/

/-- The lines of a text, behind what has been read of the first one; the last
one needs no newline. -/
def linesFrom : Text → Text → List Text
  | pending, [] => if pending = [] then [] else [pending]
  | pending, char :: rest =>
      if char = '\n' then pending :: linesFrom [] rest
      else linesFrom (pending ++ [char]) rest

def linesOf (text : Text) : List Text := linesFrom [] text

def unlines (lines : List Text) : Text :=
  (lines.map fun line => line ++ ['\n']).flatten

theorem linesFrom_append
    {line : Text} (hline : '\n' ∉ line) (pending rest : Text) :
    linesFrom pending (line ++ '\n' :: rest) =
      (pending ++ line) :: linesOf rest := by
  induction line generalizing pending with
  | nil => simp [linesFrom, linesOf]
  | cons char line ih =>
      rw [List.mem_cons, not_or] at hline
      rw [List.cons_append, linesFrom, if_neg (Ne.symm hline.1), ih hline.2]
      simp

theorem linesOf_unlines
    {lines : List Text} (hlines : ∀ line ∈ lines, '\n' ∉ line) :
    linesOf (unlines lines) = lines := by
  induction lines with
  | nil => rfl
  | cons line lines ih =>
      have hrest := ih fun other hmem => hlines other (List.mem_cons_of_mem _ hmem)
      have hline := hlines line List.mem_cons_self
      rw [unlines, List.map_cons, List.flatten_cons, List.append_assoc,
        List.singleton_append, linesOf, linesFrom_append hline, ← unlines,
        hrest, List.nil_append]

theorem newline_notMem_of_mem_linesFrom
    {pending text line : Text} (hpending : '\n' ∉ pending)
    (hmem : line ∈ linesFrom pending text) : '\n' ∉ line := by
  induction text generalizing pending with
  | nil =>
      unfold linesFrom at hmem
      split at hmem
      · simp at hmem
      · rw [List.mem_singleton] at hmem
        exact hmem ▸ hpending
  | cons char text ih =>
      unfold linesFrom at hmem
      split at hmem
      · rcases List.mem_cons.mp hmem with rfl | hmem
        · exact hpending
        · exact ih (by simp) hmem
      next hchar =>
        refine ih ?_ hmem
        simp [hpending, Ne.symm hchar]

theorem newline_notMem_of_mem_linesOf
    {text line : Text} (hmem : line ∈ linesOf text) : '\n' ∉ line :=
  newline_notMem_of_mem_linesFrom (by simp) hmem

/-! ## Reading -/

/-- `${line%%=*}`. -/
def keyOf (line : Text) : Text := line.takeWhile (· ≠ '=')

/-- `${line#*=}`. -/
def valueOf (line : Text) : Text :=
  if '=' ∈ line then (line.dropWhile (· ≠ '=')).tail else line

def nameStart (char : Char) : Bool := char.isAlpha || char = '_'

def nameRest (char : Char) : Bool := char.isAlphanum || char = '_'

/-- A name whose value `${!key}` can give. -/
def isName : Text → Bool
  | [] => false
  | char :: rest => nameStart char && rest.all nameRest

/-- One line of the file; a key which is no name ends the script. -/
def loadLine (env : Environment) (line : Text) : Option Environment :=
  if line = [] ∨ line.head? = some '#' then some env
  else if (keyOf line).head?.any nameStart = false then some env
  else if isName (keyOf line) = false then none
  else if env (keyOf line) = [] then
    some (Function.update env (keyOf line) (valueOf line))
  else some env

def loadLines (env : Environment) (lines : List Text) : Option Environment :=
  lines.foldlM loadLine env

def secretKeyName : Text := "NOTIFYHUB_SECRET_KEY".toList

def secretVars : List Text :=
  [secretKeyName, "POSTGRES_SUPERUSER_PASSWORD".toList,
    "PG_OWNER_PASSWORD".toList, "PG_APP_PASSWORD".toList,
    "PG_AUTH_PASSWORD".toList, "PG_INGEST_PASSWORD".toList,
    "NOTIFYHUB_S3_ACCESS_KEY".toList, "NOTIFYHUB_S3_SECRET_KEY".toList]

/-- `secret_value`: the first line with the name counts. -/
def secretValue (name file : Text) : Text :=
  match (linesOf file).find? fun line => (name ++ ['=']).isPrefixOf line with
  | none => []
  | some line => line.drop (name.length + 1)

/-! ## Writing -/

/-- The values drawn by `gen_secret`, none of them empty. -/
structure Generator where
  value : Text → Text
  nonempty : ∀ name, value name ≠ []
  newline : ∀ name, '\n' ∉ value name

def generateMissing (fresh : Generator) (env : Environment) : Environment :=
  secretVars.foldl
    (fun env name =>
      if env name = [] then Function.update env name (fresh.value name)
      else env) env

def assignment (name value : Text) : Text := name ++ '=' :: value

def header : List Text :=
  ["# NotifyHub - segreti generati automaticamente.".toList,
    "# Precedenza alle variabili d'ambiente: cambiarle qui ha effetto solo".toList,
    "# se la corrispondente variabile non e' impostata sul container.".toList]

def persistedLines (env : Environment) : List Text :=
  header ++ secretVars.map fun name => assignment name (env name)

/-- `load_secrets` at the start of the container up to the file it writes. -/
def persistSecrets (fresh : Generator) (env : Environment) (file : Text) :
    Option (Environment × Text) :=
  (loadLines env (linesOf file)).map fun loaded =>
    let env := generateMissing fresh loaded
    (env, unlines (persistedLines env))

/-- `load_secrets` at the start of the container: the variables, unless the
script ends, and the file it leaves. -/
def loadSecrets
    (overrides : Overrides) (fresh : Generator) (env : Environment)
    (file : Text) : Option Environment × Text :=
  match persistSecrets fresh env file with
  | none => (none, file)
  | some (persisted, written) => (overrides persisted, written)

/-- `set_secret_key`, which leaves the other lines. -/
def setSecretKey (file key : Text) : Text :=
  unlines
    ((linesOf file).filter
        (fun line => !(assignment secretKeyName []).isPrefixOf line) ++
      [assignment secretKeyName key])

/-! ## Assignments -/

section Assignments

variable {name line value : Text}

theorem kept_of_notMem (hname : '=' ∉ name) :
    ∀ char ∈ name, decide (char ≠ '=') = true := by
  intro char hchar
  rw [decide_eq_true_eq]
  rintro rfl
  exact hname hchar

theorem keyOf_assignment (hname : '=' ∉ name) (value : Text) :
    keyOf (assignment name value) = name := by
  rw [keyOf, assignment, List.takeWhile_append_of_pos (kept_of_notMem hname)]
  simp

theorem valueOf_assignment (hname : '=' ∉ name) (value : Text) :
    valueOf (assignment name value) = value := by
  rw [valueOf, if_pos (by simp [assignment]), assignment,
    List.dropWhile_append_of_pos (kept_of_notMem hname)]
  simp

/-- A line either assigns to its key or has no `=` at all. -/
theorem eq_assignment_or_eq_keyOf (line : Text) :
    line = assignment (keyOf line) (valueOf line) ∨ line = keyOf line := by
  have hsplit := List.takeWhile_append_dropWhile
    (p := fun char : Char => decide (char ≠ '=')) (l := line)
  cases hrest : line.dropWhile fun char : Char => decide (char ≠ '=') with
  | nil =>
      rw [hrest, List.append_nil] at hsplit
      exact .inr hsplit.symm
  | cons char rest =>
      have hne : (line.dropWhile fun char : Char => decide (char ≠ '=')) ≠
          [] := by
        rw [hrest]
        exact List.cons_ne_nil _ _
      have hhead := List.head_dropWhile_not _ hne
      simp only [hrest, List.head_cons, decide_eq_false_iff_not,
        not_not] at hhead
      subst hhead
      left
      rw [hrest] at hsplit
      have hmem : '=' ∈ line := by
        rw [← hsplit]
        simp
      rw [valueOf, if_pos hmem, hrest]
      exact hsplit.symm

theorem isPrefixOf_iff_keyOf (hname : '=' ∉ name) :
    (assignment name []).isPrefixOf line = true ↔
      keyOf line = name ∧ line ≠ name := by
  rw [List.isPrefixOf_iff_prefix]
  constructor
  · rintro ⟨rest, rfl⟩
    have hline : assignment name [] ++ rest = assignment name rest := by
      simp [assignment]
    rw [hline]
    refine ⟨keyOf_assignment hname rest, fun hbare => ?_⟩
    have hlength := congrArg List.length hbare
    simp [assignment] at hlength
  · rintro ⟨rfl, hbare⟩
    rcases eq_assignment_or_eq_keyOf line with hline | hline
    · refine ⟨valueOf line, ?_⟩
      conv_rhs => rw [hline]
      simp [assignment]
    · exact absurd hline hbare

theorem drop_assignment (name value : Text) :
    (assignment name value).drop (name.length + 1) = value := by
  rw [assignment, List.drop_append]
  simp

end Assignments

/-! ## What the file gives -/

section Loading

variable {env loaded : Environment} {lines : List Text} {name : Text}

/-- A line which does not end the script assigns to its key, or nothing. -/
theorem loadLine_cases
    {line : Text} (hload : loadLine env line = some loaded) :
    loaded = env ∨ env (keyOf line) = [] ∧
      loaded = Function.update env (keyOf line) (valueOf line) := by
  unfold loadLine at hload
  split at hload
  · exact .inl (Option.some.inj hload).symm
  split at hload
  · exact .inl (Option.some.inj hload).symm
  split at hload
  · contradiction
  split at hload
  next hunset => exact .inr ⟨hunset, (Option.some.inj hload).symm⟩
  · exact .inl (Option.some.inj hload).symm

/-- A value which is there stays. -/
theorem loadLines_of_ne
    (hload : loadLines env lines = some loaded) (hset : env name ≠ []) :
    loaded name = env name := by
  induction lines generalizing env with
  | nil =>
      obtain rfl := Option.some.inj hload
      rfl
  | cons line lines ih =>
      obtain ⟨next, hline, hrest⟩ := Option.bind_eq_some_iff.mp hload
      rcases loadLine_cases hline with rfl | ⟨hunset, rfl⟩
      · exact ih hrest hset
      · have hne : name ≠ keyOf line := by
          rintro rfl
          exact hset hunset
        have hkept : Function.update env (keyOf line) (valueOf line) name =
            env name := Function.update_of_ne hne _ _
        rw [ih hrest (by rw [hkept]; exact hset), hkept]

/-- Every value is one of the environment or of a line. -/
theorem loadLines_value
    (hload : loadLines env lines = some loaded) (name : Text) :
    loaded name = env name ∨ ∃ line ∈ lines, loaded name = valueOf line := by
  induction lines generalizing env with
  | nil =>
      obtain rfl := Option.some.inj hload
      exact .inl rfl
  | cons line lines ih =>
      obtain ⟨next, hline, hrest⟩ := Option.bind_eq_some_iff.mp hload
      rcases ih hrest with hsame | ⟨other, hmem, hvalue⟩
      · rcases loadLine_cases hline with rfl | ⟨-, rfl⟩
        · exact .inl hsame
        · by_cases hname : name = keyOf line
          · subst hname
            rw [Function.update_self] at hsame
            exact .inr ⟨line, List.mem_cons_self, hsame⟩
          · rw [Function.update_of_ne hname] at hsame
            exact .inl hsame
      · exact .inr ⟨other, List.mem_cons_of_mem _ hmem, hvalue⟩

theorem loadLine_assignment
    {value : Text} (hname : isName name = true) (hequals : '=' ∉ name) :
    loadLine env (assignment name value) =
      some (if env name = [] then Function.update env name value else env) := by
  obtain ⟨first, rest, rfl⟩ : ∃ first rest, name = first :: rest := by
    cases name with
    | nil => contradiction
    | cons first rest => exact ⟨first, rest, rfl⟩
  have hstart : nameStart first = true := (Bool.and_eq_true_iff.mp hname).1
  have hcomment : first ≠ '#' := by
    rintro rfl
    exact absurd hstart (by decide)
  have hline : ¬(assignment (first :: rest) value = [] ∨
      (assignment (first :: rest) value).head? = some '#') := by
    simp [assignment, hcomment]
  rw [loadLine, if_neg hline, keyOf_assignment hequals,
    valueOf_assignment hequals]
  simp only [List.head?_cons, Option.any_some, hstart, hname, if_false,
    Bool.true_eq_false]
  split <;> rfl

end Loading

/-! ## The persisted file -/

theorem secretVars_names :
    ∀ name ∈ secretVars, isName name = true ∧ '=' ∉ name := by
  decide

theorem newline_notMem_secretVars : ∀ name ∈ secretVars, '\n' ∉ name := by
  decide

theorem secretKeyName_mem : secretKeyName ∈ secretVars := List.mem_cons_self

theorem secretKeyName_isName : isName secretKeyName = true :=
  (secretVars_names _ secretKeyName_mem).1

theorem secretKeyName_equals : '=' ∉ secretKeyName :=
  (secretVars_names _ secretKeyName_mem).2

theorem secretKeyName_newline : '\n' ∉ secretKeyName :=
  newline_notMem_secretVars _ secretKeyName_mem

/-- The missing secrets are drawn. -/
theorem generateMissing_apply
    (fresh : Generator) (env : Environment) (name : Text) :
    generateMissing fresh env name =
      if name ∈ secretVars ∧ env name = [] then fresh.value name
      else env name := by
  unfold generateMissing
  induction secretVars generalizing env with
  | nil => simp
  | cons first names ih =>
      rw [List.foldl_cons, ih]
      by_cases hfirst : name = first
      · subst hfirst
        by_cases hunset : env name = []
        · simp [hunset, fresh.nonempty]
        · simp [hunset]
      · by_cases hunset : env first = [] <;> simp [hfirst, hunset]

theorem newline_notMem_valueOf {line : Text} (hline : '\n' ∉ line) :
    '\n' ∉ valueOf line := by
  unfold valueOf
  split
  · exact fun hmem =>
      hline ((List.dropWhile_suffix _).subset (List.mem_of_mem_tail hmem))
  · exact hline

/-- No value of a secret has a newline, unless one comes from outside. -/
theorem newline_notMem_secrets
    (fresh : Generator) {env loaded : Environment} {file : Text}
    (henv : ∀ name ∈ secretVars, '\n' ∉ env name)
    (hload : loadLines env (linesOf file) = some loaded) :
    ∀ name ∈ secretVars, '\n' ∉ generateMissing fresh loaded name := by
  intro name hname
  rw [generateMissing_apply]
  split
  · exact fresh.newline name
  · rcases loadLines_value hload name with hsame | ⟨line, hmem, hvalue⟩
    · rw [hsame]
      exact henv name hname
    · rw [hvalue]
      exact newline_notMem_valueOf (newline_notMem_of_mem_linesOf hmem)

theorem newline_notMem_header : ∀ line ∈ header, '\n' ∉ line := by decide

theorem linesOf_persisted
    {env : Environment} (henv : ∀ name ∈ secretVars, '\n' ∉ env name) :
    linesOf (unlines (persistedLines env)) = persistedLines env := by
  apply linesOf_unlines
  intro line hline
  rcases List.mem_append.mp hline with hheader | hsecret
  · exact newline_notMem_header line hheader
  · obtain ⟨name, hname, rfl⟩ := List.mem_map.mp hsecret
    simp [assignment, newline_notMem_secretVars name hname, henv name hname]

/-- All secrets are set after a start. -/
theorem generateMissing_ne
    (fresh : Generator) (env : Environment) {name : Text}
    (hname : name ∈ secretVars) : generateMissing fresh env name ≠ [] := by
  rw [generateMissing_apply]
  split
  · exact fresh.nonempty name
  next hfound => exact fun hempty => hfound ⟨hname, hempty⟩

theorem loadSecrets_eq
    {fresh : Generator} {env persisted : Environment} {file written : Text}
    (hpersist : persistSecrets fresh env file = some (persisted, written))
    (overrides : Overrides) :
    loadSecrets overrides fresh env file = (overrides persisted, written) := by
  rw [loadSecrets, hpersist]

def zeros : Generator where
  value _ := ['0']
  nonempty := by simp
  newline := by simp

/-- `overrides.env` which fixes the key. -/
def fixesKey (key : Text) : Overrides := fun env =>
  some (Function.update env secretKeyName key)

section NewKey

variable {env loaded first second : Environment} {file key line : Text}
  {lines : List Text}

/-- The line assigns to the key; the other lines are kept. -/
def setsKey (line : Text) : Bool :=
  (assignment secretKeyName []).isPrefixOf line

theorem setsKey_iff :
    setsKey line = true ↔ keyOf line = secretKeyName ∧ line ≠ secretKeyName :=
  isPrefixOf_iff_keyOf secretKeyName_equals

theorem eq_assignment_of_setsKey (hset : setsKey line = true) :
    line = assignment secretKeyName (valueOf line) := by
  obtain ⟨hkey, hbare⟩ := setsKey_iff.mp hset
  rcases eq_assignment_or_eq_keyOf line with hline | hline
  · rwa [hkey] at hline
  · exact absurd (hline.trans hkey) hbare

theorem loadLine_newKey (env : Environment) (key : Text) :
    loadLine env (assignment secretKeyName key) =
      some (if env secretKeyName = [] then
        Function.update env secretKeyName key else env) :=
  loadLine_assignment secretKeyName_isName secretKeyName_equals

theorem linesOf_setSecretKey (hkey : '\n' ∉ key) (file : Text) :
    linesOf (setSecretKey file key) =
      (linesOf file).filter (fun line => !setsKey line) ++
        [assignment secretKeyName key] := by
  apply linesOf_unlines
  intro line hline
  rcases List.mem_append.mp hline with hkept | hset
  · exact newline_notMem_of_mem_linesOf (List.mem_of_mem_filter hkept)
  · rw [List.mem_singleton.mp hset]
    simp [assignment, secretKeyName_newline, hkey]

theorem setsKey_newKey (key : Text) :
    setsKey (assignment secretKeyName key) = true := by
  rw [setsKey_iff]
  refine ⟨keyOf_assignment secretKeyName_equals key, fun hbare => ?_⟩
  have hlength := congrArg List.length hbare
  simp [assignment] at hlength

theorem newline_notMem_secretValue (name file : Text) :
    '\n' ∉ secretValue name file := by
  unfold secretValue
  split
  · simp
  next line hline =>
    intro hmem
    exact newline_notMem_of_mem_linesOf (List.mem_of_find?_eq_some hline)
      ((List.drop_sublist _ _).subset hmem)

theorem find?_setsKey_header : header.find? setsKey = none := by decide

theorem secretKeyName_notMem_header : secretKeyName ∉ header := by decide

theorem secretValue_persisted
    (henv : ∀ name ∈ secretVars, '\n' ∉ env name) :
    secretValue secretKeyName (unlines (persistedLines env)) =
      env secretKeyName := by
  have hfind : ((linesOf (unlines (persistedLines env))).find? fun line =>
      (secretKeyName ++ ['=']).isPrefixOf line) =
      some (assignment secretKeyName (env secretKeyName)) := by
    change (linesOf (unlines (persistedLines env))).find? setsKey = _
    rw [linesOf_persisted henv, persistedLines, List.find?_append,
      find?_setsKey_header, secretVars, List.map_cons,
      List.find?_cons_of_pos (setsKey_newKey _)]
    rfl
  rw [secretValue, hfind]
  exact drop_assignment secretKeyName _

theorem bare_notMem_persisted
    (henv : ∀ name ∈ secretVars, '\n' ∉ env name) :
    secretKeyName ∉ linesOf (unlines (persistedLines env)) := by
  rw [linesOf_persisted henv, persistedLines, List.mem_append, not_or]
  refine ⟨secretKeyName_notMem_header, fun hmem => ?_⟩
  obtain ⟨name, -, hline⟩ := List.mem_map.mp hmem
  apply secretKeyName_equals
  rw [← hline]
  simp [assignment]

theorem bare_notMem_setSecretKey
    (hkey : '\n' ∉ key) (hbare : secretKeyName ∉ linesOf file) :
    secretKeyName ∉ linesOf (setSecretKey file key) := by
  rw [linesOf_setSecretKey hkey, List.mem_append, not_or]
  refine ⟨fun hmem => hbare (List.mem_of_mem_filter hmem), fun hmem => ?_⟩
  apply secretKeyName_equals
  rw [List.mem_singleton.mp hmem]
  simp [assignment]

theorem secretValue_setSecretKey (hkey : '\n' ∉ key) (file : Text) :
    secretValue secretKeyName (setSecretKey file key) = key := by
  have hnone : ((linesOf file).filter fun line => !setsKey line).find?
      setsKey = none := by
    rw [List.find?_eq_none]
    intro line hline
    simpa using (List.mem_filter.mp hline).2
  have hfind : ((linesOf (setSecretKey file key)).find? fun line =>
      (secretKeyName ++ ['=']).isPrefixOf line) =
      some (assignment secretKeyName key) := by
    change (linesOf (setSecretKey file key)).find? setsKey = _
    rw [linesOf_setSecretKey hkey, List.find?_append, hnone]
    simp [setsKey_newKey]
  rw [secretValue, hfind]
  exact drop_assignment secretKeyName key

/-- The key which a start takes from the file is the one `secret_value`
reads. -/
theorem loadLines_secretValue
    (hload : loadLines env (linesOf file) = some loaded)
    (hbare : secretKeyName ∉ linesOf file)
    (hvalue : secretValue secretKeyName file ≠ []) :
    loaded secretKeyName = if env secretKeyName = [] then
      secretValue secretKeyName file else env secretKeyName := by
  split
  next hunset =>
    have hnamed : (fun line => (secretKeyName ++ ['=']).isPrefixOf line) =
        setsKey := rfl
    rw [secretValue, hnamed] at hvalue ⊢
    generalize linesOf file = lines at hload hbare hvalue ⊢
    induction lines generalizing env with
    | nil => simp at hvalue
    | cons line lines ih =>
        rw [List.mem_cons, not_or] at hbare
        obtain ⟨next, hline, hrest⟩ := Option.bind_eq_some_iff.mp hload
        by_cases hset : setsKey line = true
        · rw [List.find?_cons_of_pos hset] at hvalue ⊢
          have hassigned := eq_assignment_of_setsKey hset
          rw [hassigned, loadLine_newKey, if_pos hunset] at hline
          obtain rfl := Option.some.inj hline
          rw [hassigned] at hvalue ⊢
          simp only [drop_assignment] at hvalue ⊢
          rw [loadLines_of_ne hrest (by rw [Function.update_self]; exact hvalue),
            Function.update_self]
        · have hkey : keyOf line ≠ secretKeyName := fun hkey =>
            hset (setsKey_iff.mpr ⟨hkey, Ne.symm hbare.1⟩)
          rw [List.find?_cons_of_neg hset] at hvalue ⊢
          refine ih ?_ hrest hbare.2 hvalue
          rcases loadLine_cases hline with rfl | ⟨-, rfl⟩
          · exact hunset
          · rw [Function.update_of_ne (Ne.symm hkey)]
            exact hunset
  next hgiven => exact loadLines_of_ne hload hgiven

end NewKey

end NotifyHub.Secrets
