import NotifyHub.DomainTypes
import Mathlib.Data.List.Sort
import Mathlib.Data.List.TakeWhile
import Mathlib.Tactic

/-!
# The fields of a cron expression

`expandSchedule` of the dashboard: the five fields of an expression become
sorted lists of the values which they allow.
-/

namespace NotifyHub.Cron

inductive CronField
  | minute
  | hour
  | day
  | month
  | dow
  deriving DecidableEq

/-- A value of a field; `last` is the last day of a month, `star` is any. -/
inductive CronValue
  | num (value : ℕ)
  | last
  | star
  deriving DecidableEq

inductive NthSpec
  | position (number : ℕ)
  | last
  deriving DecidableEq

/-- `random` stands for an element `H` or `R`. -/
inductive CronError
  | malformed (message : Text)
  | random
  | noMatch
  deriving DecidableEq

def fiveFieldsMessage : Text :=
  ("L'espressione cron deve avere 5 campi come in crontab: " ++
    "minuto ora giorno mese giorno-settimana.").toList

/-- `RANGES`. -/
def CronField.min : CronField → ℕ
  | .minute | .hour | .dow => 0
  | .day | .month => 1

def CronField.max : CronField → ℕ
  | .minute => 59
  | .hour => 23
  | .day => 31
  | .month => 12
  | .dow => 6

/-- `LEN_MEANS_ALL`. -/
def CronField.lenMeansAll : CronField → ℕ
  | .minute => 60
  | .hour => 24
  | .day => 31
  | .month => 12
  | .dow => 7

def monthNames : List Text :=
  ["jan", "feb", "mar", "apr", "may", "jun", "jul", "aug", "sep", "oct", "nov",
    "dec"].map String.toList

def weekdayNames : List Text :=
  ["sun", "mon", "tue", "wed", "thu", "fri", "sat"].map String.toList

/-- The position of a name in its table, from `first` on. -/
def namedValue (names : List Text) (first : ℕ) (key : Text) :
    Option CronValue :=
  if names.contains key then some (.num (first + names.idxOf key)) else none

/-- `ALPHACONV`. -/
def CronField.alias (field : CronField) (key : Text) : Option CronValue :=
  match field with
  | .minute | .hour => none
  | .day => if key = ['l'] then some .last else none
  | .month => namedValue monthNames 1 key
  | .dow => namedValue weekdayNames 0 key

def alphaconv (field : CronField) (key : Text) : Except CronError CronValue :=
  match field.alias key with
  | some value => .ok value
  | none => .error (.malformed ("valore sconosciuto: ".toList ++ key))

/-- Sunday is also the 7. -/
def valueAlias (field : CronField) (value : ℕ) : ℕ :=
  if field = .dow ∧ value = 7 then 0 else value

/-- `range(start, stop, step)` with a positive step. -/
def pyRange (start stop step : ℕ) : List ℕ :=
  (List.range ((stop - start + (step - 1)) / step)).map (start + · * step)

/-! ## The shapes of an element -/

def isDigits (text : Text) : Bool :=
  text ≠ [] && text.all Char.isDigit

def number (digits : Text) : ℕ :=
  Nat.ofDigitChars 10 digits 0

def isWord (text : Text) : Bool :=
  text ≠ [] && text.all fun char => char.isAlphanum || char = '_'

/-- The end `/n` of an element, which may be missing. -/
def isStepTail : Text → Bool
  | [] => true
  | '/' :: digits => isDigits digits
  | _ => false

/-- `(n-m)` and a step. -/
def isRangeTail : Text → Bool
  | '(' :: rest =>
      match rest.dropWhile Char.isDigit with
      | '-' :: more =>
          match more.dropWhile Char.isDigit with
          | ')' :: tail =>
              rest.takeWhile Char.isDigit ≠ [] &&
                more.takeWhile Char.isDigit ≠ [] && isStepTail tail
          | _ => false
      | _ => false
  | _ => false

/-- `HASH_RE`. -/
def isHash : Text → Bool
  | char :: rest =>
      (char = 'h' || char = 'r') && (isStepTail rest || isRangeTail rest)
  | [] => false

/-- Two names of one table with `-` between them. -/
def isNamePair (names : List Text) (text : Text) : Bool :=
  match text.splitOn '-' with
  | [first, second] => names.contains first && names.contains second
  | _ => false

/-- `SPECIAL_DOW_RE`: the element without its suffix, and the suffix. -/
def specialDow (element : Text) : Option (Text × NthSpec) :=
  let before := element.takeWhile (· ≠ '#')
  match element.dropWhile (· ≠ '#') with
  | _ :: digits =>
      if isDigits digits && (isWord before || isNamePair weekdayNames before ||
          isNamePair monthNames before) then
        some (before, .position (number digits))
      else none
  | [] =>
      match element with
      | 'l' :: digits => if isDigits digits then some (digits, .last) else none
      | _ => none

/-- `NEAREST_WEEKDAY_RE`. -/
def nearestDay (element : Text) : Option ℕ :=
  if element.getLast? = some 'w' ∧ isDigits element.dropLast = true then
    some (number element.dropLast)
  else
    match element with
    | 'w' :: digits => if isDigits digits then some (number digits) else none
    | _ => none

/-- `STEP_SEARCH_RE`: the two ends of a range and the digits of its step. -/
def stepSearch (text : Text) : Option (Text × Text × Option Text) :=
  let low := text.takeWhile (· ≠ '-')
  match text.dropWhile (· ≠ '-') with
  | [] => none
  | _ :: rest =>
      let high := rest.takeWhile fun char => char ≠ '-' && char ≠ '/'
      if low = [] ∨ high = [] then none
      else
        match rest.dropWhile fun char => char ≠ '-' && char ≠ '/' with
        | [] => some (low, high, none)
        | '/' :: digits =>
            if isDigits digits then some (low, high, some digits) else none
        | _ => none

def natText (value : ℕ) : Text :=
  Nat.toDigits 10 value

/-- `*` before a step is the whole field. -/
def starStep (field : CronField) : Text → Text
  | '*' :: '/' :: char :: rest =>
      natText field.min ++ '-' :: natText field.max ++ '/' :: char :: rest
  | element => element

/-- A step without a range goes to the end of the field; the last `/` counts
which has something on both sides. -/
def openStep (field : CronField) (element : Text) : Text :=
  match element.reverse with
  | [] => element
  | char :: back =>
      match back.dropWhile (· ≠ '/') with
      | _ :: front =>
          if front = [] then element
          else front.reverse ++ '-' :: natText field.max ++ '/' ::
            (char :: back.takeWhile (· ≠ '/')).reverse
      | [] => element

/-! ## One field -/

structure FieldState where
  res : List CronValue
  seen : List Text
  nth : List (ℕ × NthSpec)
  nearest : List ℕ

/-- What becomes of an element: the items which it puts on the list of elements
that are left, and the state after it. -/
abbrev ElementResult := Except CronError (List Text × FieldState)

/-- The value of an element which is not a range. -/
def elementValue (field : CronField) (text : Text) :
    Except CronError CronValue :=
  if text.head? = some '-' then .error (.malformed "numeri negativi".toList)
  else if text = ['*'] then .ok .star
  else if isDigits text then .ok (.num (valueAlias field (number text)))
  else alphaconv field text

def pushValue
    (field : CronField) (nthSpec : Option NthSpec) (state : FieldState) :
    CronValue → ElementResult
  | .num value =>
      if value < field.min ∨ field.max < value then
        .error (.malformed "fuori range".toList)
      else
        let specs := match nthSpec with
          | some spec => if field = .dow then [(value, spec)] else []
          | none => []
        .ok ([], { state with
          res := state.res ++ [.num value]
          nth := state.nth ++ specs })
  | value => .ok ([], { state with res := state.res ++ [value] })

/-- An element which is one value. -/
def singleElement
    (field : CronField) (nthSpec : Option NthSpec) (state : FieldState)
    (text : Text) : ElementResult :=
  elementValue field text >>= pushValue field nthSpec state

/-- One end of a range, with no value for one which is not a number. -/
def rangeEnd (field : CronField) (text : Text) : Except CronError (Option ℕ) :=
  if isDigits text then .ok (some (valueAlias field (number text)))
  else
    (alphaconv field text).map fun value =>
      match value with
      | .num value => some (valueAlias field value)
      | _ => none

/-- The values of a range; one which passes the end of the field begins again,
in step. -/
def rangeValues (field : CronField) (low high step : ℕ) : List ℕ :=
  if high < low then
    let whole := pyRange field.min (field.max + 1) 1
    let values := pyRange low (field.max + 1) step
    let toSkip := match values.getLast? with
      | none => 0
      | some lastValue =>
          let alreadySkipped := whole.reverse.idxOf lastValue
          if whole.length < whole.idxOf lastValue + step ∧
              alreadySkipped < step then step - alreadySkipped
          else 0
    values ++ pyRange (field.min + toSkip) (high + 1) step
  else if low = high then pyRange field.min (field.max + 1) step
  else pyRange low (high + 1) step

/-- What a range pushes for one of its values. -/
def itemText (nthSpec : Option NthSpec) (value : ℕ) : Text :=
  match nthSpec with
  | some (.position position) => natText value ++ '#' :: natText position
  | _ => natText value

/-- The items of a range which have not been seen are put on the list. -/
def pushItems
    (nthSpec : Option NthSpec) (state : FieldState) (values : List ℕ) :
    List Text × FieldState :=
  let items := values.map (itemText nthSpec)
  (items.filter fun item => !state.seen.contains item,
    { state with seen := state.seen ++ items })

/-- A range between two ends. -/
def boundedRange
    (field : CronField) (nthSpec : Option NthSpec) (state : FieldState)
    (step : ℕ) (ends : Option ℕ × Option ℕ) : ElementResult :=
  if step = 0 then .error (.malformed "passo zero".toList)
  else
    match ends with
    | (some low, some high) =>
        if field.max < Nat.max low high then
          .error (.malformed "fuori range".toList)
        else .ok (pushItems nthSpec state (rangeValues field low high step))
    | _ => .error (.malformed "estremi non numerici".toList)

def rangeElement
    (field : CronField) (nthSpec : Option NthSpec) (state : FieldState)
    (lowText highText : Text) (stepText : Option Text) : ElementResult := do
  let low ← rangeEnd field lowText
  let high ← rangeEnd field
    (if field = .day ∧ highText = ['l'] then "31".toList else highText)
  boundedRange field nthSpec state ((stepText.map number).getD 1) (low, high)

/-- An element after its suffix has been taken off. -/
def plainElement
    (field : CronField) (nthSpec : Option NthSpec) (state : FieldState)
    (element : Text) : ElementResult :=
  match stepSearch (starStep field element) with
  | some (low, high, step) => rangeElement field nthSpec state low high step
  | none =>
      let text := openStep field element
      match stepSearch text with
      | some (low, high, step) => rangeElement field nthSpec state low high step
      | none => singleElement field nthSpec state text

def dowElement (state : FieldState) (element : Text) : ElementResult :=
  match specialDow element with
  | some (plain, .position position) =>
      if position < 1 ∨ 5 < position then
        .error (.malformed "posizione fuori range".toList)
      else plainElement .dow (some (.position position)) state plain
  | some (plain, .last) => plainElement .dow (some .last) state plain
  | none => plainElement .dow none state element

def dayElement (state : FieldState) (pending : Bool) (element : Text) :
    ElementResult :=
  match nearestDay element with
  | some day =>
      if day < 1 ∨ 31 < day then .error (.malformed "W fuori range".toList)
      else if pending || state.res ≠ [] then
        .error (.malformed "W solo con un giorno singolo".toList)
      else
        .ok ([], { state with
          nearest := state.nearest ++ [day]
          res := state.res ++ [.num day] })
  | none => plainElement .day none state element

/-- One element; `pending` says that some are left. -/
def fieldElement
    (field : CronField) (state : FieldState) (pending : Bool) (element : Text) :
    ElementResult :=
  match field with
  | .dow => dowElement state element
  | .day => dayElement state pending element
  | field => plainElement field none state element

/-! ## What an element does -/

section Effects

variable {field : CronField} {state next : FieldState} {element : Text}

def CronValue.In (field : CronField) : CronValue → Prop
  | .num value => field.min ≤ value ∧ value ≤ field.max
  | .last => field = .day
  | .star => True

/-- An element which can be a range. -/
def HasRange (element : Text) : Prop :=
  '-' ∈ element ∨ '/' ∈ element

instance (element : Text) : Decidable (HasRange element) :=
  inferInstanceAs (Decidable ('-' ∈ element ∨ '/' ∈ element))

/-- An element is one value of the field, or leaves at most sixty items which
are no ranges. -/
inductive Effect (field : CronField) (element : Text) (state : FieldState) :
    List Text × FieldState → Prop
  | value {next : FieldState} (value : CronValue) (hvalue : value.In field)
      (hres : next.res = state.res ++ [value]) :
      Effect field element state ([], next)
  | range {items : List Text} {next : FieldState} (hrange : HasRange element)
      (hcount : items.length ≤ 60) (hitems : ∀ item ∈ items, ¬HasRange item)
      (hres : next.res = state.res) :
      Effect field element state (items, next)

theorem namedValue_ne_last {names : List Text} {first : ℕ} {key : Text} :
    namedValue names first key ≠ some .last := by
  unfold namedValue
  split
  · intro hlast
    cases Option.some.inj hlast
  · intro hlast
    cases hlast

/-- Only a day of the month can be the last. -/
theorem elementValue_last {text : Text}
    (hlast : elementValue field text = .ok .last) : field = .day := by
  unfold elementValue at hlast
  split_ifs at hlast
  · cases hlast
  · cases hlast
  unfold alphaconv at hlast
  split at hlast
  · next value halias =>
      cases hlast
      cases field with
      | day => rfl
      | minute | hour => cases halias
      | month => exact absurd halias namedValue_ne_last
      | dow => exact absurd halias namedValue_ne_last
  · cases hlast

theorem pushValue_effect
    {nthSpec : Option NthSpec} {value : CronValue}
    {result : List Text × FieldState} (hlast : value = .last → field = .day)
    (hpush : pushValue field nthSpec state value = .ok result) :
    Effect field element state result := by
  cases value with
  | num value =>
      simp only [pushValue] at hpush
      split at hpush
      · cases hpush
      · next hrange =>
          rw [not_or, not_lt, not_lt] at hrange
          cases hpush
          exact .value (.num value) hrange rfl
  | last =>
      cases hpush
      exact .value .last (hlast rfl) rfl
  | star =>
      cases hpush
      exact .value .star trivial rfl

theorem singleElement_effect
    {nthSpec : Option NthSpec} {text : Text} {result : List Text × FieldState}
    (hsingle : singleElement field nthSpec state text = .ok result) :
    Effect field element state result := by
  obtain ⟨value, hvalue, hpush⟩ := Except.bind_eq_ok.mp hsingle
  exact pushValue_effect (fun hlast => elementValue_last (hlast ▸ hvalue)) hpush

theorem CronField.max_lt (field : CronField) : field.max < 60 := by
  cases field <;> decide

theorem length_pyRange_le {start stop step : ℕ} (hstep : step ≠ 0) :
    (pyRange start stop step).length ≤ stop - start := by
  rw [pyRange, List.length_map, List.length_range]
  generalize stop - start = count
  refine Nat.le_of_lt_succ (Nat.div_lt_of_lt_mul ?_)
  have hle : count ≤ step * count :=
    Nat.le_mul_of_pos_left count (Nat.pos_of_ne_zero hstep)
  rw [Nat.mul_succ]
  omega

theorem length_rangeValues_le
    {low high step : ℕ} (hstep : step ≠ 0) (hlow : low ≤ field.max)
    (hhigh : high ≤ field.max) :
    (rangeValues field low high step).length ≤ 60 := by
  have hmax := field.max_lt
  unfold rangeValues
  split
  · next hwrap =>
      have hfirst :=
        @length_pyRange_le low (field.max + 1) step hstep
      dsimp only
      rw [List.length_append]
      generalize field.min + _ = start
      have hsecond := @length_pyRange_le start (high + 1) step hstep
      omega
  · split
    · exact (length_pyRange_le hstep).trans (by omega)
    · exact (length_pyRange_le hstep).trans (by omega)

theorem isDigit_of_mem_natText
    {value : ℕ} {char : Char} (hchar : char ∈ natText value) :
    char.isDigit = true :=
  Nat.isDigit_of_mem_toDigits (by decide) (by decide) hchar

theorem not_hasRange_natText (value : ℕ) : ¬HasRange (natText value) := by
  rintro (hminus | hslash)
  · exact absurd (isDigit_of_mem_natText hminus) (by decide)
  · exact absurd (isDigit_of_mem_natText hslash) (by decide)

theorem not_hasRange_itemText (nthSpec : Option NthSpec) (value : ℕ) :
    ¬HasRange (itemText nthSpec value) := by
  unfold itemText
  split
  · next position =>
      have hvalue := not_hasRange_natText value
      have hposition := not_hasRange_natText position
      simp only [HasRange, List.mem_append, List.mem_cons] at hvalue hposition ⊢
      rw [not_or] at hvalue hposition
      rintro ((hminus | hhash | hminus) | (hslash | hhash | hslash))
      · exact hvalue.1 hminus
      · exact absurd hhash (by decide)
      · exact hposition.1 hminus
      · exact hvalue.2 hslash
      · exact absurd hhash (by decide)
      · exact hposition.2 hslash
  · exact not_hasRange_natText value

theorem pushItems_effect
    {nthSpec : Option NthSpec} {values : List ℕ} (hrange : HasRange element)
    (hcount : values.length ≤ 60) :
    Effect field element state (pushItems nthSpec state values) := by
  refine .range hrange ?_ ?_ rfl
  · refine (List.length_filter_le _ _).trans ?_
    rwa [List.length_map]
  · intro item hitem
    obtain ⟨value, -, rfl⟩ := List.mem_map.mp (List.mem_filter.mp hitem).1
    exact not_hasRange_itemText nthSpec value

theorem rangeElement_effect
    {nthSpec : Option NthSpec} {low high : Text} {step : Option Text}
    {result : List Text × FieldState} (hrange : HasRange element)
    (hresult : rangeElement field nthSpec state low high step = .ok result) :
    Effect field element state result := by
  obtain ⟨lowEnd, -, hresult⟩ := Except.bind_eq_ok.mp hresult
  obtain ⟨highEnd, -, hresult⟩ := Except.bind_eq_ok.mp hresult
  unfold boundedRange at hresult
  split at hresult
  · cases hresult
  next hstep =>
    split at hresult
    · split at hresult
      · cases hresult
      · next hmax =>
          cases hresult
          rw [not_lt, Nat.max_le] at hmax
          exact pushItems_effect hrange
            (length_rangeValues_le hstep hmax.1 hmax.2)
    · cases hresult

/-- A search for a letter stops at the letter. -/
theorem mem_of_dropWhile
    {text rest : Text} {letter char : Char}
    (hdrop : text.dropWhile (· ≠ letter) = char :: rest) : letter ∈ text := by
  have hfirst : char = letter := by
    have hhead := List.head?_dropWhile_not (· ≠ letter) text
    rw [hdrop] at hhead
    simpa using hhead
  have hmem : char ∈ text.dropWhile (· ≠ letter) := by
    rw [hdrop]
    exact List.mem_cons_self
  exact hfirst ▸ (List.dropWhile_sublist _).mem hmem

theorem hasRange_of_stepSearch {text : Text} {found : Text × Text × Option Text}
    (hsearch : stepSearch text = some found) : '-' ∈ text := by
  unfold stepSearch at hsearch
  dsimp only at hsearch
  split at hsearch
  · cases hsearch
  · next hdrop => exact mem_of_dropWhile hdrop

theorem hasRange_of_starStep
    (hminus : '-' ∈ starStep field element) : HasRange element := by
  unfold starStep at hminus
  split at hminus
  · exact .inr (by simp)
  · exact .inl hminus

theorem hasRange_of_openStep
    (hminus : '-' ∈ openStep field element) : HasRange element := by
  unfold openStep at hminus
  split at hminus
  · exact .inl hminus
  next char back hreverse =>
    split at hminus
    · next slash front hdrop =>
        split at hminus
        · exact .inl hminus
        · have hmem : '/' ∈ element.reverse := by
            rw [hreverse]
            exact List.mem_cons_of_mem _ (mem_of_dropWhile hdrop)
          exact .inr (List.mem_reverse.mp hmem)
    · exact .inl hminus

theorem plainElement_effect
    {nthSpec : Option NthSpec} {plain : Text} {result : List Text × FieldState}
    (hsubset : plain ⊆ element)
    (hresult : plainElement field nthSpec state plain = .ok result) :
    Effect field element state result := by
  have hrange : HasRange plain → HasRange element :=
    Or.imp (fun hmem => hsubset hmem) fun hmem => hsubset hmem
  unfold plainElement at hresult
  split at hresult
  · next hsearch =>
      exact rangeElement_effect
        (hrange (hasRange_of_starStep (hasRange_of_stepSearch hsearch))) hresult
  · dsimp only at hresult
    split at hresult
    · next hsearch =>
        exact rangeElement_effect
          (hrange (hasRange_of_openStep (hasRange_of_stepSearch hsearch)))
          hresult
    · exact singleElement_effect hresult

theorem specialDow_subset {plain : Text} {spec : NthSpec}
    (hspecial : specialDow element = some (plain, spec)) : plain ⊆ element := by
  unfold specialDow at hspecial
  dsimp only at hspecial
  split at hspecial
  · split at hspecial
    · cases hspecial
      exact (List.takeWhile_sublist _).subset
    · cases hspecial
  · split at hspecial
    · split at hspecial
      · cases hspecial
        exact List.subset_cons_self _ _
      · cases hspecial
    · cases hspecial

theorem fieldElement_effect
    {pending : Bool} {result : List Text × FieldState}
    (hresult : fieldElement field state pending element = .ok result) :
    Effect field element state result := by
  cases field with
  | minute | hour | month => exact plainElement_effect (List.Subset.refl _) hresult
  | dow =>
      simp only [fieldElement, dowElement] at hresult
      split at hresult
      · next hspecial =>
          split at hresult
          · cases hresult
          · exact plainElement_effect (specialDow_subset hspecial) hresult
      · next hspecial =>
          exact plainElement_effect (specialDow_subset hspecial) hresult
      · exact plainElement_effect (List.Subset.refl _) hresult
  | day =>
      simp only [fieldElement, dayElement] at hresult
      split at hresult
      · split at hresult
        · cases hresult
        · next hrange =>
            split at hresult
            · cases hresult
            · cases hresult
              rw [not_or, not_lt, not_lt] at hrange
              exact .value (.num _) hrange rfl
      · exact plainElement_effect (List.Subset.refl _) hresult

/-- The rounds which an element costs: its own, and those of its items. -/
def elementRounds (element : Text) : ℕ :=
  if HasRange element then 61 else 1

def listRounds (elements : List Text) : ℕ :=
  (elements.map elementRounds).sum

theorem listRounds_pos (element : Text) (pending : List Text) :
    0 < listRounds (element :: pending) := by
  have hpos : 0 < elementRounds element := by
    unfold elementRounds
    split
    · exact Nat.succ_pos 60
    · exact Nat.one_pos
  rw [listRounds, List.map_cons, List.sum_cons]
  omega

/-- What is on the list after an element costs less than what was there. -/
theorem Effect.listRounds_lt
    {items pending : List Text}
    (heffect : Effect field element state (items, next)) :
    listRounds (items.reverse ++ pending) < listRounds (element :: pending) := by
  have hpos := listRounds_pos element []
  rw [listRounds, List.map_cons, List.map_nil, List.sum_singleton] at hpos
  rw [listRounds, listRounds, List.map_append, List.sum_append, List.map_cons,
    List.sum_cons, List.map_reverse, List.sum_reverse]
  cases heffect with
  | value value hvalue hres =>
      rw [List.map_nil, List.sum_nil]
      omega
  | range hrange hcount hitems hres =>
      have hones : items.map elementRounds = items.map fun _ => 1 :=
        List.map_congr_left fun item hitem => if_neg (hitems item hitem)
      have hsum : (items.map elementRounds).sum = items.length := by
        rw [hones]
        simp
      have helement : elementRounds element = 61 := if_pos hrange
      omega

end Effects

/-- The loop over the elements which are left, the next one first; the end of
the list of the source is its start here. -/
def expandElements (field : CronField) (state : FieldState) :
    List Text → Except CronError FieldState
  | [] => .ok state
  | element :: pending =>
      match _hresult : fieldElement field state (pending ≠ []) element with
      | .error error => .error error
      | .ok (items, next) => expandElements field next (items.reverse ++ pending)
termination_by pending => listRounds pending
decreasing_by
  exact (fieldElement_effect _hresult).listRounds_lt

section Loop

variable {field : CronField} {state next : FieldState} {element : Text}
  {pending items : List Text}

theorem expandElements_error
    {error : CronError}
    (hresult : fieldElement field state (pending ≠ []) element = .error error) :
    expandElements field state (element :: pending) = .error error := by
  rw [expandElements]
  split
  · next other hother =>
      rw [hresult] at hother
      cases hother
      rfl
  · next hother =>
      rw [hresult] at hother
      cases hother

theorem expandElements_ok
    (hresult : fieldElement field state (pending ≠ []) element =
      .ok (items, next)) :
    expandElements field state (element :: pending) =
      expandElements field next (items.reverse ++ pending) := by
  rw [expandElements]
  split
  · next hother =>
      rw [hresult] at hother
      cases hother
  · next hother =>
      rw [hresult] at hother
      cases hother
      rfl

/-- The loop when it is stopped after some rounds. -/
def expandRounds (field : CronField) :
    ℕ → FieldState → List Text → Option (Except CronError FieldState)
  | _, state, [] => some (.ok state)
  | 0, _, _ :: _ => none
  | rounds + 1, state, element :: pending =>
      match fieldElement field state (pending ≠ []) element with
      | .error error => some (.error error)
      | .ok (items, next) =>
          expandRounds field rounds next (items.reverse ++ pending)

/-- The loop ends within its number of rounds. -/
theorem expandRounds_eq
    {rounds : ℕ} (hrounds : listRounds pending ≤ rounds) :
    expandRounds field rounds state pending =
      some (expandElements field state pending) := by
  induction state, pending using expandElements.induct field
    generalizing rounds with
  | case1 state =>
      rw [expandElements]
      cases rounds <;> rfl
  | case2 state element pending error hresult =>
      have hpos := listRounds_pos element pending
      obtain ⟨more, rfl⟩ : ∃ more, rounds = more + 1 := ⟨rounds - 1, by omega⟩
      rw [expandElements_error hresult, expandRounds, hresult]
  | case3 state element pending items middle hresult ih =>
      have hpos := listRounds_pos element pending
      have hlt : listRounds (items.reverse ++ pending) <
          listRounds (element :: pending) :=
        (fieldElement_effect hresult).listRounds_lt
      obtain ⟨more, rfl⟩ : ∃ more, rounds = more + 1 := ⟨rounds - 1, by omega⟩
      rw [expandElements_ok hresult, expandRounds, hresult]
      exact ih (by omega)

end Loop

/-- `sortKey`. -/
def sortKey : CronValue → Text
  | .num value =>
      List.replicate (2 - (natText value).length) '0' ++ natText value
  | .last => ['l']
  | .star => ['*']

/-- The order of two texts. -/
def textLe : Text → Text → Bool
  | [], _ => true
  | _ :: _, [] => false
  | first :: firsts, second :: seconds =>
      first.toNat < second.toNat ||
        (first.toNat = second.toNat && textLe firsts seconds)

theorem textLe_total (first second : Text) :
    textLe first second = true ∨ textLe second first = true := by
  induction first generalizing second with
  | nil => exact .inl rfl
  | cons first firsts ih =>
      cases second with
      | nil => exact .inr rfl
      | cons second seconds =>
          simp only [textLe, Bool.or_eq_true, Bool.and_eq_true, decide_eq_true_eq]
          rcases lt_trichotomy first.toNat second.toNat with hlt | hsame | hgt
          · exact .inl (.inl hlt)
          · exact (ih seconds).imp (fun hle => .inr ⟨hsame, hle⟩)
              fun hle => .inr ⟨hsame.symm, hle⟩
          · exact .inr (.inl hgt)

theorem textLe_trans {first second third : Text}
    (hfirst : textLe first second = true) (hsecond : textLe second third = true) :
    textLe first third = true := by
  induction first generalizing second third with
  | nil => rfl
  | cons first firsts ih =>
      cases second with
      | nil => cases hfirst
      | cons second seconds =>
          cases third with
          | nil => cases hsecond
          | cons third thirds =>
              simp only [textLe, Bool.or_eq_true, Bool.and_eq_true,
                decide_eq_true_eq] at hfirst hsecond ⊢
              rcases hfirst with hlt | ⟨hsame, hle⟩
              · rcases hsecond with hnext | ⟨hnext, -⟩
                · exact .inl (hlt.trans hnext)
                · exact .inl (hlt.trans_eq hnext)
              · rcases hsecond with hnext | ⟨hnext, hrest⟩
                · exact .inl (hsame.trans_lt hnext)
                · exact .inr ⟨hsame.trans hnext, ih hle hrest⟩

def keyLe (first second : CronValue) : Prop :=
  textLe (sortKey first) (sortKey second) = true

instance : DecidableRel keyLe := fun first second =>
  inferInstanceAs (Decidable (textLe (sortKey first) (sortKey second) = true))

instance : Std.Total keyLe :=
  ⟨fun first second => textLe_total (sortKey first) (sortKey second)⟩

instance : IsTrans CronValue keyLe :=
  ⟨fun _ _ _ => textLe_trans⟩

def sortedValues (res : List CronValue) : List CronValue :=
  res.dedup.insertionSort keyLe

/-- A `?` on its own stands for any day. -/
def replaceQuestion (field : CronField) (raw : Text) :
    Except CronError Text :=
  if raw.contains '?' = false then .ok raw
  else if raw ≠ ['?'] then .error (.malformed "? va usato da solo".toList)
  else if field ≠ .day ∧ field ≠ .dow then
    .error (.malformed "? solo nei giorni".toList)
  else .ok ['*']

/-- All values of a field are `*`, except that a day field which is written out
stays restricted beside another restricted one; `otherDay` is its text. -/
def fieldValues (field : CronField) (otherDay : Text) (res : List CronValue) :
    List CronValue :=
  let values := sortedValues res
  let keepList := (field = .day || field = .dow) && !otherDay.contains '*'
  if values.length = field.lenMeansAll ∧ keepList = false then [.star]
  else values

def expandField (field : CronField) (raw : Text)
    (nth : List (ℕ × NthSpec)) (nearest : List ℕ) :
    Except CronError FieldState := do
  let expr ← replaceQuestion field raw
  expandElements field ⟨[], [], nth, nearest⟩ (expr.splitOn ',').reverse

/-! ## The whole expression -/

structure CronFields where
  minute : List CronValue
  hour : List CronValue
  day : List CronValue
  month : List CronValue
  dow : List CronValue
  deriving DecidableEq

structure CronSchedule where
  fields : CronFields
  nth : List (ℕ × NthSpec)
  nearest : List ℕ
  deriving DecidableEq

/-- The values of a field. -/
def CronFields.values (fields : CronFields) : CronField → List CronValue
  | .minute => fields.minute
  | .hour => fields.hour
  | .day => fields.day
  | .month => fields.month
  | .dow => fields.dow

/-- The white space of JavaScript. -/
def isJsSpace (char : Char) : Bool :=
  [9, 10, 11, 12, 13, 32, 0xa0, 0x1680, 0x2028, 0x2029, 0x202f, 0x205f, 0x3000,
      0xfeff].contains char.toNat ||
    (0x2000 ≤ char.toNat && char.toNat ≤ 0x200a)

/-- `trim()`. -/
def trim (text : Text) : Text :=
  ((text.dropWhile isJsSpace).reverse.dropWhile isJsSpace).reverse

/-- `trim().split(/\s+/)` of a text which is not blank. -/
def splitSpaces (text : Text) : List Text :=
  (text.splitOnP isJsSpace).filter (· ≠ [])

/-- Positions of weekdays do not go with plain weekdays. -/
def nthMixed (dow : List CronValue) (nth : List (ℕ × NthSpec)) : Bool :=
  nth ≠ [] && dow.any (fun value => value ≠ .star &&
    !(nth.map fun pair => CronValue.num pair.1).contains value) &&
    dow.dedup.length ≠ CronField.dow.lenMeansAll

/-- The five fields one after the other. -/
def expandFields (minute hour day month dow : Text) :
    Except CronError CronSchedule := do
  let minutes ← expandField .minute minute [] []
  let hours ← expandField .hour hour minutes.nth minutes.nearest
  let days ← expandField .day day hours.nth hours.nearest
  let months ← expandField .month month days.nth days.nearest
  let dows ← expandField .dow dow months.nth months.nearest
  return {
    fields := {
      minute := fieldValues .minute [] minutes.res
      hour := fieldValues .hour [] hours.res
      day := fieldValues .day dow days.res
      month := fieldValues .month [] months.res
      dow := fieldValues .dow day dows.res }
    nth := dows.nth
    nearest := dows.nearest }

def checkMixed (schedule : CronSchedule) : Except CronError CronSchedule :=
  if nthMixed schedule.fields.dow schedule.nth then
    .error (.malformed "# mescolato a giorni semplici".toList)
  else .ok schedule

/-- `lower` is `toLowerCase`. -/
def expandSchedule (lower : Text → Text) (expression : Text) :
    Except CronError CronSchedule :=
  match splitSpaces (lower expression) with
  | [minute, hour, day, month, dow] =>
      if [minute, hour, day, month, dow].any
          fun expr => (expr.splitOn ',').any isHash then
        .error .random
      else expandFields minute hour day month dow >>= checkMixed
  | _ => .error (.malformed fiveFieldsMessage)

/-! ## The values of a field -/

section Values

variable {field : CronField} {state next : FieldState}

def FieldState.Valid (field : CronField) (state : FieldState) : Prop :=
  ∀ value ∈ state.res, value.In field

theorem FieldState.Valid.append
    (hvalid : state.Valid field) (value : CronValue) (hvalue : value.In field)
    (hres : next.res = state.res ++ [value]) : next.Valid field := by
  intro other hother
  rw [hres] at hother
  rcases List.mem_append.mp hother with hbefore | hnew
  · exact hvalid other hbefore
  · exact (List.mem_singleton.mp hnew) ▸ hvalue

theorem Effect.valid
    {element : Text} {items : List Text} (hvalid : state.Valid field)
    (heffect : Effect field element state (items, next)) : next.Valid field := by
  cases heffect with
  | value value hvalue hres => exact hvalid.append value hvalue hres
  | range hrange hcount hitems hres =>
      intro value hvalue
      rw [hres] at hvalue
      exact hvalid value hvalue

theorem expandElements_valid
    {elements : List Text} (hvalid : state.Valid field)
    (hexpand : expandElements field state elements = .ok next) :
    next.Valid field := by
  induction state, elements using expandElements.induct field with
  | case1 state =>
      rw [expandElements] at hexpand
      cases hexpand
      exact hvalid
  | case2 state element pending error hresult =>
      rw [expandElements_error hresult] at hexpand
      cases hexpand
  | case3 state element pending items middle hresult ih =>
      rw [expandElements_ok hresult] at hexpand
      exact ih ((fieldElement_effect hresult).valid hvalid) hexpand

theorem expandField_valid
    {raw : Text} {nth : List (ℕ × NthSpec)} {nearest : List ℕ}
    (hexpand : expandField field raw nth nearest = .ok next) :
    next.Valid field := by
  obtain ⟨expr, -, hexpand⟩ := Except.bind_eq_ok.mp hexpand
  refine expandElements_valid ?_ hexpand
  intro value hvalue
  cases hvalue

/-- The place of a value among those of its field. -/
def CronValue.rank : CronValue → ℕ
  | .star => 0
  | .num value => value + 1
  | .last => 100

theorem rank_le_of_keyLe
    {first second : CronValue} (hfirst : first.In field)
    (hsecond : second.In field) (hle : keyLe first second) :
    first.rank ≤ second.rank := by
  have hnums : ∀ low < 60, ∀ high < 60,
      keyLe (.num low) (.num high) → low ≤ high := by
    decide +kernel
  have hlast : ∀ value < 60, ¬keyLe .last (.num value) := by
    decide +kernel
  have hstar : ∀ value < 60, ¬keyLe (.num value) .star := by
    decide +kernel
  have hmax := field.max_lt
  cases first with
  | star => exact Nat.zero_le _
  | num low =>
      have hlow : low < 60 := hfirst.2.trans_lt hmax
      cases second with
      | star => exact absurd hle (hstar low hlow)
      | num high =>
          exact Nat.succ_le_succ
            (hnums low hlow high (hsecond.2.trans_lt hmax) hle)
      | last => exact (Nat.succ_le_of_lt hlow).trans (by decide)
  | last =>
      cases second with
      | star => exact absurd hle (by decide +kernel)
      | num high => exact absurd hle (hlast high (hsecond.2.trans_lt hmax))
      | last => exact le_refl _

/-- The values of an expanded field, in ascending order. -/
structure FieldShape (field : CronField) (values : List CronValue) : Prop where
  inField : ∀ value ∈ values, value.In field
  ascending : values.Pairwise fun first second => first.rank ≤ second.rank

theorem fieldShape_star : FieldShape field [.star] where
  inField value hvalue := by
    rw [List.mem_singleton.mp hvalue]
    trivial
  ascending := List.pairwise_singleton _ _

theorem fieldValues_shape
    (hvalid : state.Valid field) (otherDay : Text) :
    FieldShape field (fieldValues field otherDay state.res) := by
  unfold fieldValues
  dsimp only
  split
  · exact fieldShape_star
  have hmem : ∀ value ∈ sortedValues state.res, value.In field := by
    intro value hvalue
    exact hvalid value
      (List.mem_dedup.mp ((List.mem_insertionSort keyLe).mp hvalue))
  refine ⟨hmem, ?_⟩
  refine (List.pairwise_insertionSort keyLe _).imp_of_mem ?_
  intro first second hfirst hsecond hle
  exact rank_le_of_keyLe (hmem first hfirst) (hmem second hsecond) hle

end Values

/-- The fields of a schedule which `expandSchedule` returns. -/
def CronFields.Shape (fields : CronFields) : Prop :=
  ∀ field, FieldShape field (fields.values field)

theorem expandSchedule_shape
    {lower : Text → Text} {expression : Text} {schedule : CronSchedule}
    (hexpand : expandSchedule lower expression = .ok schedule) :
    schedule.fields.Shape := by
  unfold expandSchedule at hexpand
  split at hexpand
  · split at hexpand
    · cases hexpand
    obtain ⟨expanded, hfields, hchecked⟩ := Except.bind_eq_ok.mp hexpand
    obtain ⟨minutes, hminutes, hfields⟩ := Except.bind_eq_ok.mp hfields
    obtain ⟨hours, hhours, hfields⟩ := Except.bind_eq_ok.mp hfields
    obtain ⟨days, hdays, hfields⟩ := Except.bind_eq_ok.mp hfields
    obtain ⟨months, hmonths, hfields⟩ := Except.bind_eq_ok.mp hfields
    obtain ⟨dows, hdows, hfields⟩ := Except.bind_eq_ok.mp hfields
    cases hfields
    unfold checkMixed at hchecked
    split at hchecked
    · cases hchecked
    cases hchecked
    intro field
    cases field with
    | minute => exact fieldValues_shape (expandField_valid hminutes) _
    | hour => exact fieldValues_shape (expandField_valid hhours) _
    | day => exact fieldValues_shape (expandField_valid hdays) _
    | month => exact fieldValues_shape (expandField_valid hmonths) _
    | dow => exact fieldValues_shape (expandField_valid hdows) _
  · cases hexpand

/-! ## Expressions without special elements -/

/-- No element is `W`, `#` or `L` before a weekday. -/
def PlainElement (field : CronField) (element : Text) : Prop :=
  (field = .day → nearestDay element = none) ∧
    (field = .dow → specialDow element = none)

def PlainExpression (lower : Text → Text) (expression : Text) : Prop :=
  match splitSpaces (lower expression) with
  | [_, _, day, _, dow] =>
      (∀ element ∈ day.splitOn ',', nearestDay element = none) ∧
        ∀ element ∈ dow.splitOn ',', specialDow element = none
  | _ => True

/-- There are no positions of weekdays and no nearest weekdays. -/
structure CronSchedule.Plain (schedule : CronSchedule) : Prop where
  nearest : schedule.nearest = []
  nth : schedule.nth = []

section Plain

variable {field : CronField} {state next : FieldState}
  {result : List Text × FieldState}

/-- An element adds no position and no nearest weekday, and leaves numbers. -/
structure Ordinary (state : FieldState) (result : List Text × FieldState) :
    Prop where
  nth : result.2.nth = state.nth
  nearest : result.2.nearest = state.nearest
  items : ∀ item ∈ result.1, ∃ value, item = natText value

theorem pushValue_ordinary {value : CronValue}
    (hpush : pushValue field none state value = .ok result) :
    Ordinary state result := by
  cases value with
  | num value =>
      simp only [pushValue] at hpush
      split at hpush
      · cases hpush
      · cases hpush
        exact ⟨List.append_nil _, rfl, fun item hitem => by cases hitem⟩
  | last | star =>
      cases hpush
      exact ⟨rfl, rfl, fun item hitem => by cases hitem⟩

theorem singleElement_ordinary {text : Text}
    (hsingle : singleElement field none state text = .ok result) :
    Ordinary state result := by
  obtain ⟨value, -, hpush⟩ := Except.bind_eq_ok.mp hsingle
  exact pushValue_ordinary hpush

theorem rangeElement_ordinary {low high : Text} {step : Option Text}
    (hrange : rangeElement field none state low high step = .ok result) :
    Ordinary state result := by
  obtain ⟨lowEnd, -, hrange⟩ := Except.bind_eq_ok.mp hrange
  obtain ⟨highEnd, -, hrange⟩ := Except.bind_eq_ok.mp hrange
  unfold boundedRange at hrange
  split at hrange
  · cases hrange
  split at hrange
  · split at hrange
    · cases hrange
    · cases hrange
      refine ⟨rfl, rfl, fun item hitem => ?_⟩
      obtain ⟨value, -, rfl⟩ := List.mem_map.mp (List.mem_filter.mp hitem).1
      exact ⟨value, rfl⟩
  · cases hrange

theorem plainElement_ordinary {element : Text}
    (helement : plainElement field none state element = .ok result) :
    Ordinary state result := by
  unfold plainElement at helement
  split at helement
  · exact rangeElement_ordinary helement
  · dsimp only at helement
    split at helement
    · exact rangeElement_ordinary helement
    · exact singleElement_ordinary helement

theorem fieldElement_ordinary {pending : Bool} {element : Text}
    (hplain : PlainElement field element)
    (helement : fieldElement field state pending element = .ok result) :
    Ordinary state result := by
  cases field with
  | minute | hour | month => exact plainElement_ordinary helement
  | dow =>
      simp only [fieldElement, dowElement, hplain.2 rfl] at helement
      exact plainElement_ordinary helement
  | day =>
      simp only [fieldElement, dayElement, hplain.1 rfl] at helement
      exact plainElement_ordinary helement

theorem plainElement_natText (field : CronField) (value : ℕ) :
    PlainElement field (natText value) := by
  have hdigit : ∀ char ∈ natText value, char.isDigit = true :=
    fun _ => isDigit_of_mem_natText
  constructor
  · intro _
    unfold nearestDay
    split
    · next hlast =>
        exact absurd (hdigit 'w' (List.mem_of_getLast? hlast.1)) (by decide)
    · split
      · next rest hsame =>
          rw [hsame] at hdigit
          exact absurd (hdigit 'w' List.mem_cons_self) (by decide)
      · rfl
  · intro _
    have hhash : (natText value).dropWhile (· ≠ '#') = [] := by
      rw [List.dropWhile_eq_nil_iff]
      intro char hchar
      refine decide_eq_true fun hsame => ?_
      exact absurd (hsame ▸ hdigit char hchar) (by decide)
    unfold specialDow
    dsimp only
    rw [hhash]
    split
    · next hcons => cases hcons
    · split
      · next rest hsame =>
          rw [hsame] at hdigit
          exact absurd (hdigit 'l' List.mem_cons_self) (by decide)
      · rfl

theorem expandElements_ordinary {elements : List Text}
    (hplain : ∀ element ∈ elements, PlainElement field element)
    (hexpand : expandElements field state elements = .ok next) :
    next.nth = state.nth ∧ next.nearest = state.nearest := by
  induction state, elements using expandElements.induct field with
  | case1 state =>
      rw [expandElements] at hexpand
      cases hexpand
      exact ⟨rfl, rfl⟩
  | case2 state element pending error hresult =>
      rw [expandElements_error hresult] at hexpand
      cases hexpand
  | case3 state element pending items middle hresult ih =>
      rw [expandElements_ok hresult] at hexpand
      obtain ⟨hnth, hnearest, hitems⟩ :=
        fieldElement_ordinary (hplain element List.mem_cons_self) hresult
      obtain ⟨hlaterNth, hlaterNearest⟩ := ih (fun other hother => by
        rcases List.mem_append.mp hother with hitem | hleft
        · obtain ⟨value, rfl⟩ := hitems other (List.mem_reverse.mp hitem)
          exact plainElement_natText field value
        · exact hplain other (List.mem_cons_of_mem _ hleft)) hexpand
      exact ⟨hlaterNth.trans hnth, hlaterNearest.trans hnearest⟩

theorem expandField_ordinary
    {raw : Text} {nth : List (ℕ × NthSpec)} {nearest : List ℕ}
    (hplain : ∀ element ∈ raw.splitOn ',', PlainElement field element)
    (hexpand : expandField field raw nth nearest = .ok next) :
    next.nth = nth ∧ next.nearest = nearest := by
  obtain ⟨expr, hexpr, hexpand⟩ := Except.bind_eq_ok.mp hexpand
  refine expandElements_ordinary (fun element helement => ?_) hexpand
  rw [List.mem_reverse] at helement
  unfold replaceQuestion at hexpr
  split_ifs at hexpr
  · cases hexpr
    exact hplain element helement
  · cases hexpr
    have hsplit : ['*'].splitOn ',' = [['*']] := by decide
    rw [hsplit] at helement
    rw [List.mem_singleton.mp helement]
    exact ⟨fun _ => by decide, fun _ => by decide⟩

theorem expandSchedule_plain
    {lower : Text → Text} {expression : Text} {schedule : CronSchedule}
    (hplain : PlainExpression lower expression)
    (hexpand : expandSchedule lower expression = .ok schedule) :
    schedule.Plain := by
  unfold expandSchedule at hexpand
  unfold PlainExpression at hplain
  split at hexpand
  · next minute hour day month dow hsplit =>
      rw [hsplit] at hplain
      split at hexpand
      · cases hexpand
      obtain ⟨expanded, hfields, hchecked⟩ := Except.bind_eq_ok.mp hexpand
      obtain ⟨minutes, hminutes, hfields⟩ := Except.bind_eq_ok.mp hfields
      obtain ⟨hours, hhours, hfields⟩ := Except.bind_eq_ok.mp hfields
      obtain ⟨days, hdays, hfields⟩ := Except.bind_eq_ok.mp hfields
      obtain ⟨months, hmonths, hfields⟩ := Except.bind_eq_ok.mp hfields
      obtain ⟨dows, hdows, hfields⟩ := Except.bind_eq_ok.mp hfields
      cases hfields
      have hother : ∀ field : CronField, field ≠ .day → field ≠ .dow →
          ∀ element, PlainElement field element := fun field hday hdow element =>
        ⟨fun hsame => absurd hsame hday, fun hsame => absurd hsame hdow⟩
      obtain ⟨hminutesNth, hminutesNearest⟩ := expandField_ordinary
        (fun element _ => hother .minute (by decide) (by decide) element) hminutes
      obtain ⟨hhoursNth, hhoursNearest⟩ := expandField_ordinary
        (fun element _ => hother .hour (by decide) (by decide) element) hhours
      obtain ⟨hdaysNth, hdaysNearest⟩ := expandField_ordinary
        (fun element helement => ⟨fun _ => hplain.1 element helement,
          fun hsame => (by cases hsame)⟩) hdays
      obtain ⟨hmonthsNth, hmonthsNearest⟩ := expandField_ordinary
        (fun element _ => hother .month (by decide) (by decide) element) hmonths
      obtain ⟨hdowsNth, hdowsNearest⟩ := expandField_ordinary
        (fun element helement => ⟨fun hsame => (by cases hsame),
          fun _ => hplain.2 element helement⟩) hdows
      unfold checkMixed at hchecked
      split at hchecked
      · cases hchecked
      cases hchecked
      constructor
      · rw [hdowsNearest, hmonthsNearest, hdaysNearest, hhoursNearest,
          hminutesNearest]
      · rw [hdowsNth, hmonthsNth, hdaysNth, hhoursNth, hminutesNth]
  · cases hexpand

end Plain

/-! ## The numbers of the fields -/

theorem listRounds_le (elements : List Text) :
    listRounds elements ≤ 61 * elements.length := by
  have hrounds : ∀ cost ∈ elements.map elementRounds, cost ≤ 61 := by
    intro cost hcost
    obtain ⟨element, -, rfl⟩ := List.mem_map.mp hcost
    unfold elementRounds
    split
    · exact le_refl _
    · exact Nat.succ_le_succ (Nat.zero_le _)
  have hsum := List.sum_le_card_nsmul _ 61 hrounds
  rwa [List.length_map, smul_eq_mul, mul_comm] at hsum

/-- The loop over a field ends within 61 rounds for each element which is
written, and the numbers of an expanded field are numbers of the field. -/
theorem expandSchedule_within (lower : Text → Text) (expression : Text) :
    (∀ field state elements,
      expandRounds field (61 * elements.length) state elements =
        some (expandElements field state elements)) ∧
      ∀ schedule, expandSchedule lower expression = .ok schedule →
        ∀ (field : CronField) (value : ℕ),
          .num value ∈ schedule.fields.values field →
            field.min ≤ value ∧ value ≤ field.max := by
  constructor
  · intro field state elements
    exact expandRounds_eq (listRounds_le elements)
  · intro schedule hexpand field value hvalue
    exact (expandSchedule_shape hexpand field).inField (.num value) hvalue

theorem expandSchedule_within_wrapping :
    expandSchedule id "0,30 22-2/3 1,15 jan 7".toList = .ok {
      fields := {
        minute := [.num 0, .num 30]
        hour := [.num 2, .num 22]
        day := [.num 1, .num 15]
        month := [.num 1]
        dow := [.num 0] }
      nth := []
      nearest := [] } ∧ 22 ≤ CronField.hour.max := by
  have hexpand : expandSchedule id "0,30 22-2/3 1,15 jan 7".toList = .ok {
      fields := {
        minute := [.num 0, .num 30]
        hour := [.num 2, .num 22]
        day := [.num 1, .num 15]
        month := [.num 1]
        dow := [.num 0] }
      nth := []
      nearest := [] } := by
    decide +kernel
  exact ⟨hexpand, ((expandSchedule_within id "0,30 22-2/3 1,15 jan 7".toList).2
    _ hexpand .hour 22 (by decide)).2⟩

end NotifyHub.Cron
