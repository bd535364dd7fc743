import NotifyHub.HexText
import Mathlib.Data.Nat.Digits.Lemmas
import Mathlib.Tactic

/-!
# JSON texts

The grammar of JSON as a relation between texts and values, and the texts which
Python's `json.dumps` writes with `ensure_ascii=False`.  What it writes is a
JSON text of the value, and an array may be written in several pieces.
-/

namespace NotifyHub.JsonText

inductive Value
  | null
  | bool (value : Bool)
  | int (value : ℤ)
  | text (value : List Char)
  | array (elements : List Value)
  | object (members : List (List Char × Value))

/-! ## Grammar -/

/-- White space between tokens. -/
def Blank (text : List Char) : Prop :=
  ∀ char ∈ text, char ∈ [' ', '\t', '\n', '\r']

def digitOf (digit : ℕ) : Char := Char.ofNat (digit + 48)

/-- Digits, the least significant one first, without a leading zero. -/
inductive NaturalText : List Char → ℕ → Prop
  | zero : NaturalText ['0'] 0
  | digits {digits : List ℕ} (hdigits : ∀ digit ∈ digits, digit < 10)
      (hnonempty : digits ≠ []) (hleading : digits.getLast hnonempty ≠ 0) :
      NaturalText (digits.reverse.map digitOf) (Nat.ofDigits 10 digits)

inductive NumberText : List Char → ℤ → Prop
  | natural {text : List Char} {number : ℕ} (hnumber : NaturalText text number) :
      NumberText text number
  | negative {text : List Char} {number : ℕ}
      (hnumber : NaturalText text number) : NumberText ('-' :: text) (-number)

/-- The letters of the short escapes. -/
def escapes : List (Char × Char) :=
  [('"', '"'), ('\\', '\\'), ('/', '/'), ('b', '\x08'), ('f', '\x0c'),
    ('n', '\n'), ('r', '\r'), ('t', '\t')]

/-- What stands between the quotes of a string. -/
inductive StringText : List Char → List Char → Prop
  | nil : StringText [] []
  | plain {char : Char} {text value : List Char} (hcontrol : 32 ≤ char.toNat)
      (hquote : char ≠ '"') (hslash : char ≠ '\\')
      (hrest : StringText text value) : StringText (char :: text) (char :: value)
  | escape {letter char : Char} {text value : List Char}
      (hletter : (letter, char) ∈ escapes) (hrest : StringText text value) :
      StringText ('\\' :: letter :: text) (char :: value)
  | unicode {digits text value : List Char} {code : ℕ}
      (hlength : digits.length = 4) (hcode : hexNumber digits = some code)
      (hchar : code < 0xD800 ∨ 0xDFFF < code) (hrest : StringText text value) :
      StringText ('\\' :: 'u' :: (digits ++ text)) (Char.ofNat code :: value)

mutual

/-- A text of a value. -/
inductive Denotes : List Char → Value → Prop
  | null : Denotes "null".toList .null
  | true : Denotes "true".toList (.bool true)
  | false : Denotes "false".toList (.bool false)
  | int {text : List Char} {number : ℤ} (hnumber : NumberText text number) :
      Denotes text (.int number)
  | text {body value : List Char} (hbody : StringText body value) :
      Denotes ('"' :: (body ++ ['"'])) (.text value)
  | emptyArray {blank : List Char} (hblank : Blank blank) :
      Denotes ('[' :: (blank ++ [']'])) (.array [])
  | array {body : List Char} {elements : List Value}
      (hbody : DenotesElements body elements) :
      Denotes ('[' :: (body ++ [']'])) (.array elements)
  | emptyObject {blank : List Char} (hblank : Blank blank) :
      Denotes ('{' :: (blank ++ ['}'])) (.object [])
  | object {body : List Char} {members : List (List Char × Value)}
      (hbody : DenotesMembers body members) :
      Denotes ('{' :: (body ++ ['}'])) (.object members)

/-- Values with commas between them. -/
inductive DenotesElements : List Char → List Value → Prop
  | last {before text after : List Char} {value : Value}
      (hbefore : Blank before) (hafter : Blank after)
      (hvalue : Denotes text value) :
      DenotesElements (before ++ text ++ after) [value]
  | cons {before text after body : List Char} {value : Value}
      {rest : List Value} (hbefore : Blank before) (hafter : Blank after)
      (hvalue : Denotes text value) (hrest : DenotesElements body rest) :
      DenotesElements (before ++ text ++ after ++ ',' :: body) (value :: rest)

/-- Members with commas between them. -/
inductive DenotesMembers : List Char → List (List Char × Value) → Prop
  | last {before key colon text after name : List Char} {value : Value}
      (hbefore : Blank before) (hcolon : Blank colon) (hafter : Blank after)
      (hname : StringText key name) (hvalue : Denotes text value) :
      DenotesMembers
        (before ++ '"' :: (key ++ '"' :: ':' :: (colon ++ text ++ after)))
        [(name, value)]
  | cons {before key colon text after body name : List Char} {value : Value}
      {rest : List (List Char × Value)} (hbefore : Blank before)
      (hcolon : Blank colon) (hafter : Blank after)
      (hname : StringText key name) (hvalue : Denotes text value)
      (hrest : DenotesMembers body rest) :
      DenotesMembers
        (before ++ '"' :: (key ++ '"' :: ':' ::
          (colon ++ text ++ after ++ ',' :: body)))
        ((name, value) :: rest)

end

/-! ## Writing -/

def naturalText (number : ℕ) : List Char :=
  if number = 0 then ['0'] else (Nat.digits 10 number).reverse.map digitOf

def numberText : ℤ → List Char
  | .ofNat number => naturalText number
  | .negSucc number => '-' :: naturalText (number + 1)

/-- `ESCAPE_DCT`, without the codes. -/
def shortEscape (char : Char) : Option Char :=
  if char = '"' then some '"'
  else if char = '\\' then some '\\'
  else if char = '\x08' then some 'b'
  else if char = '\x0c' then some 'f'
  else if char = '\n' then some 'n'
  else if char = '\r' then some 'r'
  else if char = '\t' then some 't'
  else none

def escaped (char : Char) : List Char :=
  match shortEscape char with
  | some letter => ['\\', letter]
  | none =>
      if char.toNat < 32 then '\\' :: 'u' :: hexText 4 char.toNat else [char]

/-- `", ".join(parts)`. -/
def commaJoin : List (List Char) → List Char
  | [] => []
  | [part] => part
  | part :: next :: rest => part ++ ',' :: ' ' :: commaJoin (next :: rest)

mutual

/-- `json.dumps(value, ensure_ascii=False)`. -/
def dumps : Value → List Char
  | .null => "null".toList
  | .bool true => "true".toList
  | .bool false => "false".toList
  | .int number => numberText number
  | .text value => '"' :: (value.flatMap escaped ++ ['"'])
  | .array elements => '[' :: (commaJoin (dumpsElements elements) ++ [']'])
  | .object members => '{' :: (commaJoin (dumpsMembers members) ++ ['}'])

def dumpsElements : List Value → List (List Char)
  | [] => []
  | value :: rest => dumps value :: dumpsElements rest

def dumpsMembers : List (List Char × Value) → List (List Char)
  | [] => []
  | (name, value) :: rest =>
      ('"' :: (name.flatMap escaped ++ '"' :: ':' :: ' ' :: dumps value)) ::
        dumpsMembers rest

end

/-! ## What is written is JSON -/

theorem naturalText_naturalText (number : ℕ) :
    NaturalText (naturalText number) number := by
  rw [naturalText]
  split
  next hzero =>
    subst hzero
    exact .zero
  next hpositive =>
    have hnonempty : Nat.digits 10 number ≠ [] :=
      Nat.digits_ne_nil_iff_ne_zero.mpr hpositive
    have hdigits : ∀ digit ∈ Nat.digits 10 number, digit < 10 := fun digit =>
      Nat.digits_lt_base (by decide)
    have hleading : (Nat.digits 10 number).getLast hnonempty ≠ 0 :=
      Nat.getLast_digit_ne_zero 10 hpositive
    have htext := NaturalText.digits hdigits hnonempty hleading
    rwa [Nat.ofDigits_digits] at htext

theorem numberText_numberText (number : ℤ) :
    NumberText (numberText number) number := by
  cases number with
  | ofNat number => exact .natural (naturalText_naturalText number)
  | negSucc number => exact .negative (naturalText_naturalText (number + 1))

theorem mem_escapes_of_shortEscape
    {char letter : Char} (hshort : shortEscape char = some letter) :
    (letter, char) ∈ escapes := by
  unfold shortEscape at hshort
  repeat' split at hshort
  all_goals first
    | (obtain rfl := Option.some.inj hshort; simp [escapes, *])
    | cases hshort

theorem stringText_escaped
    {text value : List Char} (char : Char) (hrest : StringText text value) :
    StringText (escaped char ++ text) (char :: value) := by
  unfold escaped
  split
  next letter hshort => exact .escape (mem_escapes_of_shortEscape hshort) hrest
  next hplain =>
    split
    next hcontrol =>
      have hcode : hexNumber (hexText 4 char.toNat) = some char.toNat :=
        hexNumber_hexText (by omega)
      have htext := StringText.unicode (length_hexText 4 char.toNat) hcode
        (.inl (by omega)) hrest
      rwa [Char.ofNat_toNat] at htext
    next hprintable =>
      refine .plain (by omega) ?_ ?_ hrest
      · rintro rfl
        cases hplain
      · rintro rfl
        cases hplain

theorem stringText_flatMap (value : List Char) :
    StringText (value.flatMap escaped) value := by
  induction value with
  | nil => exact .nil
  | cons char rest ih =>
      rw [List.flatMap_cons]
      exact stringText_escaped char ih

theorem blank_nil : Blank [] := nofun

theorem blank_space : Blank [' '] := by
  intro char hchar
  rw [List.mem_singleton.mp hchar]
  decide

mutual

/-- What `json.dumps` writes is a JSON text of the value. -/
theorem denotes_dumps : (value : Value) → Denotes (dumps value) value
  | .null => .null
  | .bool true => .true
  | .bool false => .false
  | .int number => .int (numberText_numberText number)
  | .text value => .text (stringText_flatMap value)
  | .array elements => by
      by_cases hempty : elements = []
      · subst hempty
        exact .emptyArray blank_nil
      · exact .array (denotesElements_dumps elements [] blank_nil hempty)
  | .object members => by
      by_cases hempty : members = []
      · subst hempty
        exact .emptyObject blank_nil
      · exact .object (denotesMembers_dumps members [] blank_nil hempty)

theorem denotesElements_dumps :
    (elements : List Value) → (before : List Char) → Blank before →
      elements ≠ [] →
      DenotesElements (before ++ commaJoin (dumpsElements elements)) elements
  | [], _, _, hempty => absurd rfl hempty
  | [value], before, hbefore, _ => by
      have hlast := DenotesElements.last hbefore blank_nil (denotes_dumps value)
      rwa [List.append_nil] at hlast
  | value :: next :: rest, before, hbefore, _ => by
      have hrest := denotesElements_dumps (next :: rest) [' '] blank_space
        (List.cons_ne_nil next rest)
      have hcons := DenotesElements.cons hbefore blank_nil (denotes_dumps value)
        hrest
      rwa [List.append_nil, List.append_assoc] at hcons

theorem denotesMembers_dumps :
    (members : List (List Char × Value)) → (before : List Char) →
      Blank before → members ≠ [] →
      DenotesMembers (before ++ commaJoin (dumpsMembers members)) members
  | [], _, _, hempty => absurd rfl hempty
  | [(name, value)], before, hbefore, _ => by
      have hlast := DenotesMembers.last hbefore blank_space blank_nil
        (stringText_flatMap name) (denotes_dumps value)
      rwa [List.append_nil] at hlast
  | (name, value) :: next :: rest, before, hbefore, _ => by
      have hrest := denotesMembers_dumps (next :: rest) [' '] blank_space
        (List.cons_ne_nil next rest)
      have hcons := DenotesMembers.cons hbefore blank_space blank_nil
        (stringText_flatMap name) (denotes_dumps value) hrest
      simpa [commaJoin, dumpsMembers] using hcons

end

/-! ## An array in pieces -/

theorem dumpsElements_eq_map (values : List Value) :
    dumpsElements values = values.map dumps := by
  induction values with
  | nil => rfl
  | cons value rest ih => rw [dumpsElements, ih, List.map_cons]

theorem commaJoin_append
    {first second : List (List Char)} (hfirst : first ≠ [])
    (hsecond : second ≠ []) :
    commaJoin (first ++ second) =
      commaJoin first ++ ',' :: ' ' :: commaJoin second := by
  induction first with
  | nil => exact absurd rfl hfirst
  | cons part rest ih =>
      cases rest with
      | nil =>
          obtain ⟨head, tail, rfl⟩ := List.exists_cons_of_ne_nil hsecond
          rfl
      | cons next rest =>
          have htail := ih (List.cons_ne_nil next rest)
          rw [List.cons_append] at htail
          rw [List.cons_append, List.cons_append, commaJoin, htail, commaJoin]
          simp

/-- The text of an array, one piece for each block of its elements. -/
def pieces : List (List Value) → List (List Char)
  | [] => []
  | block :: rest =>
      commaJoin (block.map dumps) ::
        rest.map fun later => ',' :: ' ' :: commaJoin (later.map dumps)

theorem commaJoin_append_blocks
    {parts : List (List Char)} {blocks : List (List (List Char))}
    (hparts : parts ≠ []) (hblocks : ∀ block ∈ blocks, block ≠ []) :
    commaJoin parts ++
        (blocks.map fun block => ',' :: ' ' :: commaJoin block).flatten =
      commaJoin (parts ++ blocks.flatten) := by
  induction blocks generalizing parts with
  | nil => simp
  | cons block rest ih =>
      have hblock : block ≠ [] := hblocks block List.mem_cons_self
      have hrest : ∀ later ∈ rest, later ≠ [] := fun later hlater =>
        hblocks later (List.mem_cons_of_mem block hlater)
      have hjoined : parts ++ block ≠ [] :=
        List.append_ne_nil_of_left_ne_nil hparts block
      calc commaJoin parts ++ ((block :: rest).map fun block =>
              ',' :: ' ' :: commaJoin block).flatten
          = (commaJoin parts ++ ',' :: ' ' :: commaJoin block) ++
              (rest.map fun block => ',' :: ' ' :: commaJoin block).flatten := by
            simp
        _ = commaJoin (parts ++ block) ++
              (rest.map fun block => ',' :: ' ' :: commaJoin block).flatten := by
            rw [commaJoin_append hparts hblock]
        _ = commaJoin (parts ++ block ++ rest.flatten) := ih hjoined hrest
        _ = commaJoin (parts ++ (block :: rest).flatten) := by
            rw [List.append_assoc, List.flatten_cons]

/-- The pieces together are the text of the array of all elements. -/
theorem dumps_array_of_pieces
    {blocks : List (List Value)} (hblocks : ∀ block ∈ blocks, block ≠ []) :
    '[' :: ((pieces blocks).flatten ++ [']']) =
      dumps (.array blocks.flatten) := by
  rw [dumps, dumpsElements_eq_map]
  congr 2
  cases blocks with
  | nil => rfl
  | cons block rest =>
      have hmapped : ∀ parts ∈ rest.map (List.map dumps), parts ≠ [] := by
        intro parts hparts
        obtain ⟨later, hlater, rfl⟩ := List.mem_map.mp hparts
        rw [Ne, List.map_eq_nil_iff]
        exact hblocks later (List.mem_cons_of_mem block hlater)
      have hfirst : block.map dumps ≠ [] := by
        rw [Ne, List.map_eq_nil_iff]
        exact hblocks block List.mem_cons_self
      have hjoined := commaJoin_append_blocks hfirst hmapped
      rw [List.map_map] at hjoined
      rw [pieces, List.flatten_cons, List.flatten_cons, List.map_append,
        List.map_flatten]
      exact hjoined

example : dumps (.array [.int (-10), .text "\"\n\x01".toList]) =
    "[-10, \"\\\"\\n\\u0001\"]".toList := by
  decide

end NotifyHub.JsonText
