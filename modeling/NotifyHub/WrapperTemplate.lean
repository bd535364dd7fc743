import NotifyHub.IpAddresses
import NotifyHub.PublicUrls
import NotifyHub.ReceiverSlugs
import Mathlib.Tactic

/-!
# The precompiled wrapper script

`app.services.wrapper_script`: two lines of the template are rewritten with the
URL of the instance and the slug of a receiver, and a comment names the receiver
and its group.  The names are whatever their authors wrote.
-/

namespace NotifyHub.WrapperTemplate

open PublicUrls SeparatedText Slug

/-! ## Characters -/

/-- The general categories of Unicode. -/
inductive GeneralCategory
  | lu | ll | lt | lm | lo
  | mn | mc | me
  | nd | nl | no
  | pc | pd | ps | pe | pi | pf | po
  | sm | sc | sk | so
  | zs | zl | zp
  | cc | cf | cs | co | cn
  deriving DecidableEq

def GeneralCategory.isLetter : GeneralCategory → Bool
  | .lu | .ll | .lt | .lm | .lo => true
  | _ => false

/-- Only letters and numbers have a numeric value. -/
def GeneralCategory.canBeNumeric : GeneralCategory → Bool
  | .nd | .nl | .no | .lo => true
  | _ => false

def isControl (char : Char) : Bool :=
  char.toNat < 32 || (127 ≤ char.toNat && char.toNat < 160)

def lineSeparator : Char := '\u2028'

def paragraphSeparator : Char := '\u2029'

/-- The character database of Python, with what the standard fixes of it, and
`repr` of a text.  `isNumeric` are the characters whose `Numeric_Type` is not
`None`. -/
structure PythonText where
  category : Char → GeneralCategory
  isNumeric : Char → Bool
  repr : Text → Text
  control : ∀ char, isControl char = true → category char = .cc
  line : category lineSeparator = .zl
  paragraph : category paragraphSeparator = .zp
  quote : category '"' = .po
  dollar : category '$' = .sc
  backquote : category '\x60' = .sk
  numeric : ∀ char, isNumeric char = true →
    (category char).canBeNumeric = true

variable (python : PythonText)

/-- `str.isalnum` of one character. -/
def PythonText.isAlnum (char : Char) : Bool :=
  (python.category char).isLetter || python.isNumeric char

/-- What a shell or a reader of texts may take as the end of a line: the control
characters, line feed, carriage return and U+0085 among them, and the two
separators of Unicode. -/
def breaksLine (char : Char) : Bool :=
  isControl char || char = lineSeparator || char = paragraphSeparator

/-- What a shell expands or takes as a quote, the apostrophe apart. -/
def isShellSyntax (char : Char) : Bool :=
  char = '"' || char = '$' || char = '\x60'

/-! ## The comment -/

/-- `_COMMENT_EXTRA_CHARS`. -/
def commentExtraChars : Text := " .:,;@/()[]+-_'".toList

def commentNameMaxChars : ℕ := 60

def isCommentChar (char : Char) : Bool :=
  python.isAlnum char || commentExtraChars.contains char

/-- `_comment_name`. -/
def commentName (value : Text) : Text :=
  let cleaned := value.map fun char =>
    if isCommentChar python char then char else ' '
  let name := strip
    (([' '].intercalate (splitFields cleaned)).take commentNameMaxChars)
  if name = [] then "senza nome".toList else name

def provenanceReceiver : Text :=
  "# Precompilato dalla dashboard per il receiver \"".toList

def provenanceGroup : Text := "\" del gruppo \"".toList

def provenanceEnd : Text := "\".".toList

def provenance (receiverName groupName : Text) : Text :=
  provenanceReceiver ++ commentName python receiverName ++ provenanceGroup ++
    commentName python groupName ++ provenanceEnd

/-! ## The lines -/

def urlLinePrefix : Text := "URL=\"$\x7bNOTIFYHUB_URL:-".toList

def slugLinePrefix : Text := "SLUG=\"$\x7bNOTIFYHUB_SLUG:-".toList

def lineSuffix : Text := "\x7d\"".toList

def isUrlLine (line : Text) : Bool :=
  urlLinePrefix.isPrefixOf line

def isSlugLine (line : Text) : Bool :=
  slugLinePrefix.isPrefixOf line

def urlLine (baseUrl : Text) : Text :=
  urlLinePrefix ++ baseUrl ++ lineSuffix

def slugLine (slug : Text) : Text :=
  slugLinePrefix ++ slug ++ lineSuffix

/-- The state of the loop over the lines of the template. -/
structure Rendering where
  rendered : List Text
  seenUrl : ℕ
  seenSlug : ℕ
  deriving DecidableEq

def Rendering.add
    (comment baseUrl slug : Text) (rendering : Rendering) (line : Text) :
    Rendering :=
  if isUrlLine line then
    { rendering with
      seenUrl := rendering.seenUrl + 1
      rendered := rendering.rendered ++ [comment] ++ [urlLine baseUrl] }
  else if isSlugLine line then
    { rendering with
      seenSlug := rendering.seenSlug + 1
      rendered := rendering.rendered ++ [slugLine slug] }
  else { rendering with rendered := rendering.rendered ++ [line] }

def templateFilename : Text := "notifyhub-run.sh".toList

/-- The error is the text of the `WrapperTemplateError`. -/
def renderWrapperScript
    (template baseUrl slug receiverName groupName : Text) :
    Except Text Text :=
  if isSafeBaseUrl baseUrl = false then
    .error ("base URL not safe to embed in a shell script: ".toList ++
      python.repr baseUrl)
  else if isSafeSlug slug = false then
    .error ("slug not safe to embed in a shell script: ".toList ++
      python.repr slug)
  else
    let comment := provenance python receiverName groupName
    let final := (template.splitOn '\n').foldl
      (Rendering.add comment baseUrl slug) ⟨[], 0, 0⟩
    if final.seenUrl ≠ 1 ∨ final.seenSlug ≠ 1 then
      .error (templateFilename ++
        " must contain exactly one URL line and one SLUG line, found ".toList ++
        Nat.toDigits 10 final.seenUrl ++ " and ".toList ++
        Nat.toDigits 10 final.seenSlug)
    else .ok (['\n'].intercalate final.rendered)

/-! ## Names in the comment -/

/-- Neither the end of a line nor shell syntax. -/
def isHarmless (char : Char) : Bool :=
  !breaksLine char && !isShellSyntax char

theorem isHarmless_of_isAlnum
    {char : Char} (halnum : python.isAlnum char = true) :
    isHarmless char = true := by
  have hcategory : (python.category char).isLetter = true ∨
      (python.category char).canBeNumeric = true := by
    rcases Bool.or_eq_true_iff.mp halnum with hletter | hnumeric
    · exact .inl hletter
    · exact .inr (python.numeric char hnumeric)
  have hother : ∀ category, python.category char = category →
      category.isLetter = false → category.canBeNumeric = false → False := by
    rintro category rfl hletter hnumeric
    rcases hcategory with h | h
    · exact Bool.false_ne_true (hletter.symm.trans h)
    · exact Bool.false_ne_true (hnumeric.symm.trans h)
  have hbreaks : breaksLine char = false := by
    rw [Bool.eq_false_iff]
    intro hbreak
    simp only [breaksLine, Bool.or_eq_true, decide_eq_true_eq] at hbreak
    rcases hbreak with (hcontrol | rfl) | rfl
    · exact hother _ (python.control char hcontrol) rfl rfl
    · exact hother _ python.line rfl rfl
    · exact hother _ python.paragraph rfl rfl
  have hsyntax : isShellSyntax char = false := by
    rw [Bool.eq_false_iff]
    intro hshell
    simp only [isShellSyntax, Bool.or_eq_true, decide_eq_true_eq] at hshell
    rcases hshell with (rfl | rfl) | rfl
    · exact hother _ python.quote rfl rfl
    · exact hother _ python.dollar rfl rfl
    · exact hother _ python.backquote rfl rfl
  simp [isHarmless, hbreaks, hsyntax]

theorem isHarmless_of_isCommentChar
    {char : Char} (hchar : isCommentChar python char = true) :
    isHarmless char = true := by
  rcases Bool.or_eq_true_iff.mp hchar with halnum | hextra
  · exact isHarmless_of_isAlnum python halnum
  · have hall : ∀ extra ∈ commentExtraChars, isHarmless extra = true := by
      decide
    exact hall char (List.contains_iff_mem.mp hextra)

/-- Every character of a cleaned name is harmless. -/
theorem isHarmless_of_mem_cleaned {value : Text} {char : Char}
    (hchar : char ∈ value.map fun char =>
      if isCommentChar python char then char else ' ') :
    isHarmless char = true := by
  obtain ⟨original, -, rfl⟩ := List.mem_map.mp hchar
  split
  · next hkept => exact isHarmless_of_isCommentChar python hkept
  · decide

theorem commentName_harmless {value : Text} {char : Char}
    (hchar : char ∈ commentName python value) : isHarmless char = true := by
  unfold commentName at hchar
  dsimp only at hchar
  split at hchar
  · have hdefault : ∀ letter ∈ "senza nome".toList,
        isHarmless letter = true := by
      decide
    exact hdefault char hchar
  · have htaken := List.mem_of_mem_take (mem_of_mem_strip hchar)
    rcases IpAddresses.mem_of_mem_intercalate htaken with rfl | hfield
    · decide
    · obtain ⟨field, hfields, hmem⟩ := hfield
      have hpart := List.mem_of_mem_filter hfields
      exact isHarmless_of_mem_cleaned python
        (mem_part_of_splitOnP hpart hmem).1

theorem provenance_unbroken
    {receiverName groupName : Text} {char : Char}
    (hchar : char ∈ provenance python receiverName groupName) :
    breaksLine char = false := by
  have hfixed : ∀ part ∈ [provenanceReceiver, provenanceGroup, provenanceEnd],
      ∀ char ∈ part, breaksLine char = false := by
    decide +kernel
  have hname : ∀ name, char ∈ commentName python name →
      breaksLine char = false := by
    intro name hmem
    have hharmless := commentName_harmless python hmem
    rw [isHarmless, Bool.and_eq_true, Bool.not_eq_true'] at hharmless
    exact hharmless.1
  simp only [provenance, List.mem_append] at hchar
  rcases hchar with (((hfront | hreceiver) | hmiddle) | hgroup) | hend
  · exact hfixed _ (by simp) char hfront
  · exact hname receiverName hreceiver
  · exact hfixed _ (by simp) char hmiddle
  · exact hname groupName hgroup
  · exact hfixed _ (by simp) char hend

/-! ## The rendered lines -/

/-- The lines which come from one line of the template. -/
def renderedLines (comment baseUrl slug line : Text) : List Text :=
  if isUrlLine line then [comment, urlLine baseUrl]
  else if isSlugLine line then [slugLine slug]
  else [line]

def replaceSlug (slug line : Text) : Text :=
  if isSlugLine line then slugLine slug else line

theorem not_isSlugLine {line : Text} (hurl : isUrlLine line = true) :
    isSlugLine line = false := by
  rw [Bool.eq_false_iff]
  intro hslug
  obtain ⟨afterUrl, rfl⟩ := List.isPrefixOf_iff_prefix.mp hurl
  obtain ⟨afterSlug, heq⟩ := List.isPrefixOf_iff_prefix.mp hslug
  have hfirst : slugLinePrefix.head? = urlLinePrefix.head? := by
    have hheads := congrArg List.head? heq
    exact hheads
  exact absurd hfirst (by decide)

theorem foldl_add
    (comment baseUrl slug : Text) (lines : List Text)
    (rendering : Rendering) :
    lines.foldl (Rendering.add comment baseUrl slug) rendering =
      { rendered := rendering.rendered ++
          lines.flatMap (renderedLines comment baseUrl slug)
        seenUrl := rendering.seenUrl + lines.countP isUrlLine
        seenSlug := rendering.seenSlug + lines.countP isSlugLine } := by
  induction lines generalizing rendering with
  | nil => simp
  | cons line rest ih =>
      rw [List.foldl_cons, ih, List.flatMap_cons, List.countP_cons,
        List.countP_cons]
      by_cases hurl : isUrlLine line = true
      · simp [Rendering.add, renderedLines, hurl, not_isSlugLine hurl]
        omega
      · by_cases hslug : isSlugLine line = true
        · simp [Rendering.add, renderedLines, hurl, hslug]
          omega
        · simp [Rendering.add, renderedLines, hurl, hslug]

/-- Lines without a URL line are rendered one for one. -/
theorem flatMap_renderedLines
    {comment baseUrl slug : Text} {lines : List Text}
    (hnone : lines.countP isUrlLine = 0) :
    lines.flatMap (renderedLines comment baseUrl slug) =
      lines.map (replaceSlug slug) := by
  rw [List.countP_eq_zero] at hnone
  induction lines with
  | nil => rfl
  | cons line rest ih =>
      have hline := hnone line List.mem_cons_self
      rw [List.flatMap_cons, List.map_cons,
        ih fun other hother => hnone other (List.mem_cons_of_mem _ hother)]
      by_cases hslug : isSlugLine line = true
      · simp [renderedLines, replaceSlug, hline, hslug]
      · simp [renderedLines, replaceSlug, hline, hslug]

theorem exists_split_of_countP_one
    {lines : List Text} (hone : lines.countP isUrlLine = 1) :
    ∃ before line after, lines = before ++ line :: after ∧
      isUrlLine line = true ∧ before.countP isUrlLine = 0 ∧
      after.countP isUrlLine = 0 := by
  obtain ⟨line, hmem, hurl⟩ := List.countP_pos_iff.mp
    (hone ▸ Nat.one_pos : 0 < lines.countP isUrlLine)
  obtain ⟨before, after, rfl⟩ := List.append_of_mem hmem
  rw [List.countP_append, List.countP_cons_of_pos hurl] at hone
  exact ⟨before, line, after, rfl, hurl, by omega, by omega⟩

theorem newline_breaks : breaksLine '\n' = true := by
  decide

/-- A setting is on one line if its value is. -/
theorem newline_not_mem_setting
    {front value : Text} {isAllowed : Char → Bool} (hfront : '\n' ∉ front)
    (hvalue : value.all isAllowed = true)
    (hnewline : isAllowed '\n' = false) : '\n' ∉ front ++ value ++ lineSuffix := by
  intro hmem
  rcases List.mem_append.mp hmem with hbegin | hend
  · rcases List.mem_append.mp hbegin with hstart | hmiddle
    · exact hfront hstart
    · have hallowed := List.all_eq_true.mp hvalue _ hmiddle
      exact Bool.false_ne_true (hnewline.symm.trans hallowed)
  · exact absurd hend (by decide)

theorem newline_not_mem_urlLine {baseUrl : Text}
    (hsafe : isSafeBaseUrl baseUrl = true) : '\n' ∉ urlLine baseUrl := by
  rw [isSafeBaseUrl, Bool.and_eq_true] at hsafe
  exact newline_not_mem_setting (by decide) hsafe.2 (by decide)

theorem newline_not_mem_slugLine {slug : Text}
    (hsafe : isSafeSlug slug = true) : '\n' ∉ slugLine slug := by
  rw [isSafeSlug, Bool.and_eq_true] at hsafe
  exact newline_not_mem_setting (by decide) hsafe.2 (by decide)

theorem newline_not_mem_replaceSlug {slug : Text} (template : Text)
    {line : Text} (hsafe : isSafeSlug slug = true)
    (hline : line ∈ template.splitOn '\n') :
    '\n' ∉ replaceSlug slug line := by
  unfold replaceSlug
  split
  · exact newline_not_mem_slugLine hsafe
  · intro hmem
    rw [List.splitOn_eq_splitOnP] at hline
    have hnot := (mem_part_of_splitOnP hline hmem).2
    exact absurd hnot (by decide)

/-- The script has the lines of the template, two of them rewritten, and one
comment before the URL line.  The names are in the comment only. -/
theorem script_of_template
    {template baseUrl slug : Text}
    (hurl : (template.splitOn '\n').countP isUrlLine = 1)
    (hslug : (template.splitOn '\n').countP isSlugLine = 1)
    (hbase : isSafeBaseUrl baseUrl = true) (hsafe : isSafeSlug slug = true) :
    ∃ before line after,
      template.splitOn '\n' = before ++ line :: after ∧
      isUrlLine line = true ∧ (before ++ after).countP isUrlLine = 0 ∧
      (before ++ after).countP isSlugLine = 1 ∧
      ∀ receiverName groupName, ∃ script,
        renderWrapperScript python template baseUrl slug receiverName
          groupName = .ok script ∧
        script.splitOn '\n' = before.map (replaceSlug slug) ++
          provenance python receiverName groupName :: urlLine baseUrl ::
            after.map (replaceSlug slug) ∧
        (∀ char ∈ provenance python receiverName groupName,
          breaksLine char = false) ∧
        ∀ name ∈ [receiverName, groupName], ∀ char ∈ commentName python name,
          isShellSyntax char = false := by
  obtain ⟨before, line, after, hlines, hline, hbefore, hafter⟩ :=
    exists_split_of_countP_one hurl
  have hslugs : (before ++ after).countP isSlugLine = 1 := by
    rw [hlines, List.countP_append,
      List.countP_cons_of_neg (by simp [not_isSlugLine hline])] at hslug
    rw [List.countP_append, hslug]
  refine ⟨before, line, after, hlines, hline, ?_, hslugs, ?_⟩
  · rw [List.countP_append, hbefore, hafter]
  intro receiverName groupName
  let comment := provenance python receiverName groupName
  let written := before.map (replaceSlug slug) ++ comment :: urlLine baseUrl ::
    after.map (replaceSlug slug)
  have hfinal : (template.splitOn '\n').foldl
      (Rendering.add comment baseUrl slug) ⟨[], 0, 0⟩ = ⟨written, 1, 1⟩ := by
    rw [foldl_add, hurl, hslug, hlines, List.flatMap_append, List.flatMap_cons,
      flatMap_renderedLines hbefore, flatMap_renderedLines hafter]
    simp [written, renderedLines, hline]
  have hplain : ∀ other ∈ written, '\n' ∉ other := by
    intro other hother
    rcases List.mem_append.mp hother with hfront | hrest
    · obtain ⟨source, hsource, rfl⟩ := List.mem_map.mp hfront
      refine newline_not_mem_replaceSlug template hsafe ?_
      rw [hlines]
      exact List.mem_append_left _ hsource
    rcases List.mem_cons.mp hrest with rfl | hrest
    · intro hnewline
      have hkept := provenance_unbroken python hnewline
      exact Bool.false_ne_true (hkept.symm.trans newline_breaks)
    rcases List.mem_cons.mp hrest with rfl | hend
    · exact newline_not_mem_urlLine hbase
    · obtain ⟨source, hsource, rfl⟩ := List.mem_map.mp hend
      refine newline_not_mem_replaceSlug template hsafe ?_
      rw [hlines]
      exact List.mem_append_right _ (List.mem_cons_of_mem _ hsource)
  refine ⟨['\n'].intercalate written, ?_, ?_, ?_, ?_⟩
  · simp [renderWrapperScript, hbase, hsafe, comment, hfinal]
  · exact List.splitOn_intercalate '\n' hplain (by simp [written])
  · exact fun char hchar => provenance_unbroken python hchar
  · intro name _ char hchar
    have hharmless := commentName_harmless python hchar
    rw [isHarmless, Bool.and_eq_true, Bool.not_eq_true',
      Bool.not_eq_true'] at hharmless
    exact hharmless.2

def asciiCategory (char : Char) : GeneralCategory :=
  if isControl char then .cc
  else if char = lineSeparator then .zl
  else if char = paragraphSeparator then .zp
  else if char = '"' then .po
  else if char = '$' then .sc
  else if char = '\x60' then .sk
  else if '0' ≤ char ∧ char ≤ '9' then .nd
  else if 'A' ≤ char ∧ char ≤ 'Z' then .lu
  else if 'a' ≤ char ∧ char ≤ 'z' then .ll
  else .cn

/-- A character database of ASCII letters and digits. -/
def asciiPython : PythonText where
  category := asciiCategory
  isNumeric char := asciiCategory char = .nd
  repr := id
  control _ hcontrol := if_pos hcontrol
  line := by decide
  paragraph := by decide
  quote := by decide
  dollar := by decide
  backquote := by decide
  numeric char hdigit := by
    rw [of_decide_eq_true hdigit]
    rfl

def shortTemplate : Text :=
  "#!/bin/bash\nURL=\"$\x7bNOTIFYHUB_URL:-\x7d\"\n".toList ++
    "SLUG=\"$\x7bNOTIFYHUB_SLUG:-\x7d\"".toList

theorem script_of_template_names :
    ∃ script, renderWrapperScript asciiPython shortTemplate
        "https://hub.example".toList "elog-token".toList
        "elog\nrm -rf /".toList "\"$(id)\"".toList = .ok script ∧
      (script.splitOn '\n').length = 4 ∧
      provenanceReceiver ++ "elog rm -rf /".toList ++ provenanceGroup ++
        "(id)".toList ++ provenanceEnd ∈ script.splitOn '\n' := by
  have hnames : provenance asciiPython "elog\nrm -rf /".toList
      "\"$(id)\"".toList = provenanceReceiver ++ "elog rm -rf /".toList ++
        provenanceGroup ++ "(id)".toList ++ provenanceEnd := by
    decide +kernel
  have hcount : (shortTemplate.splitOn '\n').length = 3 := by
    decide +kernel
  obtain ⟨before, line, after, hlines, -, -, -, hscript⟩ :=
    @script_of_template asciiPython shortTemplate
      "https://hub.example".toList "elog-token".toList
      (by decide +kernel) (by decide +kernel) (by decide +kernel)
      (by decide +kernel)
  obtain ⟨script, hok, hrendered, -⟩ :=
    hscript "elog\nrm -rf /".toList "\"$(id)\"".toList
  rw [hnames] at hrendered
  rw [hlines, List.length_append, List.length_cons] at hcount
  refine ⟨script, hok, ?_, ?_⟩
  · rw [hrendered]
    simp only [List.length_append, List.length_cons, List.length_map]
    omega
  · rw [hrendered]
    exact List.mem_append_right _ List.mem_cons_self

end NotifyHub.WrapperTemplate
