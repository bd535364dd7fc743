import NotifyHub.HexText
import Mathlib.Data.List.TakeWhile
import Mathlib.Tactic

/-!
# IP addresses

The module `ipaddress`: the texts which are addresses, the canonical text of an
address, and the networks which contain it.  The canonical text of an address
is read as the address.
-/

namespace NotifyHub.IpAddresses

/-! ## Digits -/

/-- The digits of a number in a fixed width, the highest one first. -/
def digits (base : ℕ) : ℕ → ℕ → List ℕ
  | 0, _ => []
  | width + 1, number => digits base width (number / base) ++ [number % base]

def ofDigits (base : ℕ) (digits : List ℕ) : ℕ :=
  digits.foldl (fun number digit => number * base + digit) 0

theorem length_digits (base width number : ℕ) :
    (digits base width number).length = width := by
  induction width generalizing number with
  | zero => rfl
  | succ width ih => simp [digits, ih]

theorem ofDigits_digits {base width number : ℕ}
    (hnumber : number < base ^ width) :
    ofDigits base (digits base width number) = number := by
  induction width generalizing number with
  | zero =>
      rw [pow_zero] at hnumber
      have hzero : number = 0 := by omega
      rw [hzero]
      rfl
  | succ width ih =>
      have hdiv : number / base < base ^ width := by
        rw [pow_succ] at hnumber
        exact Nat.div_lt_of_lt_mul (by rwa [mul_comm] at hnumber)
      have hread := ih hdiv
      rw [ofDigits] at hread
      rw [digits, ofDigits, List.foldl_append, hread]
      exact Nat.div_add_mod' number base

theorem digits_lt {base : ℕ} (hbase : 0 < base) {width number digit : ℕ}
    (hdigit : digit ∈ digits base width number) : digit < base := by
  induction width generalizing number with
  | zero => cases hdigit
  | succ width ih =>
      rcases List.mem_append.mp hdigit with hhigh | hlow
      · exact ih hhigh
      · rw [List.mem_singleton.mp hlow]
        exact Nat.mod_lt _ hbase

/-! ## Texts -/

inductive IpAddress
  | v4 (value : BitVec 32)
  | v6 (value : BitVec 128) (scopeId : Option (List Char))
  deriving DecidableEq, Repr

/-- `_parse_octet`. -/
def parseOctet (text : List Char) : Option ℕ :=
  if text = [] ∨ !text.all Char.isDigit ∨ 3 < text.length then none
  else if text ≠ ['0'] ∧ text.head? = some '0' then none
  else
    let octet := Nat.ofDigitChars 10 text 0
    if 255 < octet then none else some octet

/-- `IPv4Address` of a text. -/
def ipv4OfText (text : List Char) : Option (BitVec 32) :=
  let octets := text.splitOn '.'
  if octets.length ≠ 4 then none
  else (octets.mapM parseOctet).map fun octets =>
    BitVec.ofNat 32 (ofDigits 256 octets)

def ipv4Text (value : BitVec 32) : List Char :=
  ['.'].intercalate ((digits 256 4 value.toNat).map (Nat.toDigits 10))

/-- `_parse_hextet`. -/
def parseHextet (text : List Char) : Option ℕ :=
  if text = [] ∨ 4 < text.length then none else hexNumber text

/-- The two hextets of an IPv4 address at the end. -/
def embedIpv4 (parts : List (List Char)) : Option (List (List Char)) :=
  let last := parts.getLastD []
  if last.contains '.' then
    (ipv4OfText last).map fun value =>
      parts.dropLast ++ [Nat.toDigits 16 (value.toNat / 65536),
        Nat.toDigits 16 (value.toNat % 65536)]
  else some parts

/-- The parts before and after `::`, and how many hextets it stands for; an
empty part at an end must belong to it. -/
def splitSkipped (parts : List (List Char)) :
    Option (List (List Char) × ℕ × List (List Char)) :=
  let first := parts.headD []
  let last := parts.getLastD []
  match parts.tail.dropLast.splitOn [] with
  | [_] =>
      if parts.length ≠ 8 ∨ first = [] ∨ last = [] then none
      else some (parts, 0, [])
  | [high, low] =>
      if (first = [] ∧ high ≠ []) ∨ (last = [] ∧ low ≠ []) then none
      else
        let high := if first = [] then [] else first :: high
        let low := if last = [] then [] else low ++ [last]
        if 8 ≤ high.length + low.length then none
        else some (high, 8 - (high.length + low.length), low)
  | _ => none

/-- `IPv6Address._ip_int_from_string`. -/
def ipv6OfText (text : List Char) : Option (BitVec 128) :=
  let parts := text.splitOn ':'
  if parts.length < 3 then none
  else do
    let parts ← embedIpv4 parts
    if 9 < parts.length then none
    else do
      let (high, skipped, low) ← splitSkipped parts
      let high ← high.mapM parseHextet
      let low ← low.mapM parseHextet
      some (BitVec.ofNat 128
        (ofDigits 65536 (high ++ List.replicate skipped 0 ++ low)))

/-- The first longest run of zeros and its length, from the best run and the
length of the current one. -/
def longestZeros : ℕ → ℕ × ℕ → ℕ → List (List Char) → ℕ × ℕ
  | _, best, _, [] => best
  | index, best, length, hextet :: rest =>
      if hextet = ['0'] then
        if best.2 < length + 1 then
          longestZeros (index + 1) (index - length, length + 1) (length + 1) rest
        else longestZeros (index + 1) best (length + 1) rest
      else longestZeros (index + 1) best 0 rest

/-- `_compress_hextets`. -/
def compressHextets (hextets : List (List Char)) : List (List Char) :=
  let (start, length) := longestZeros 0 (0, 0) 0 hextets
  if 1 < length then
    (if start = 0 then [[]] else []) ++ hextets.take start ++ [[]] ++
      hextets.drop (start + length) ++
      (if start + length = hextets.length then [[]] else [])
  else hextets

def ipv6Text (value : BitVec 128) : List Char :=
  [':'].intercalate
    (compressHextets ((digits 65536 8 value.toNat).map (Nat.toDigits 16)))

/-- `_split_scope_id`; the error is `none`. -/
def splitScopeId (text : List Char) : Option (List Char × Option (List Char)) :=
  match text.dropWhile (· ≠ '%') with
  | [] => some (text, none)
  | _ :: scopeId =>
      if scopeId = [] ∨ '%' ∈ scopeId then none
      else some (text.takeWhile (· ≠ '%'), some scopeId)

/-- `ip_address` of a text, without its `ValueError`. -/
def ipAddress (text : List Char) : Option IpAddress :=
  if '/' ∈ text then none
  else
    match ipv4OfText text with
    | some value => some (.v4 value)
    | none => do
        let (address, scopeId) ← splitScopeId text
        let value ← ipv6OfText address
        return .v6 value scopeId

/-- `str` of an address. -/
def IpAddress.text : IpAddress → List Char
  | .v4 value => ipv4Text value
  | .v6 value none => ipv6Text value
  | .v6 value (some scopeId) => ipv6Text value ++ '%' :: scopeId

/-! ## Networks -/

inductive IpNetwork
  | v4 (address : BitVec 32) (prefixLength : ℕ)
  | v6 (address : BitVec 128) (prefixLength : ℕ)
  deriving DecidableEq, Repr

def netmask (width prefixLength : ℕ) : BitVec width :=
  BitVec.allOnes width ^^^ (BitVec.allOnes width >>> prefixLength)

/-- `address in network`. -/
def IpNetwork.contains : IpNetwork → IpAddress → Bool
  | .v4 address prefixLength, .v4 value =>
      value &&& netmask 32 prefixLength = address &&& netmask 32 prefixLength
  | .v6 address prefixLength, .v6 value _ =>
      value &&& netmask 128 prefixLength = address &&& netmask 128 prefixLength
  | .v4 _ _, .v6 _ _ | .v6 _ _, .v4 _ => false

/-! ## IPv4 texts are read back -/

theorem parseOctet_toDigits {octet : ℕ} (hoctet : octet < 256) :
    parseOctet (Nat.toDigits 10 octet) = some octet := by
  have hall : ∀ octet < 256,
      parseOctet (Nat.toDigits 10 octet) = some octet := by decide +kernel
  exact hall octet hoctet

theorem mapM_read {read : List Char → Option ℕ} {write : ℕ → List Char}
    {numbers : List ℕ} (hread : ∀ number ∈ numbers,
      read (write number) = some number) :
    (numbers.map write).mapM read = some numbers := by
  induction numbers with
  | nil => rfl
  | cons number numbers ih =>
      have hfirst := hread number List.mem_cons_self
      have hrest := ih fun other hother =>
        hread other (List.mem_cons_of_mem _ hother)
      rw [List.map_cons, List.mapM_cons, hfirst, hrest]
      rfl

theorem ipv4OfText_ipv4Text (value : BitVec 32) :
    ipv4OfText (ipv4Text value) = some value := by
  have hoctets : ∀ octet ∈ digits 256 4 value.toNat, octet < 256 :=
    fun octet hoctet => digits_lt (by decide) hoctet
  have hplain : ∀ text ∈ (digits 256 4 value.toNat).map (Nat.toDigits 10),
      '.' ∉ text := by
    intro text htext
    obtain ⟨octet, -, rfl⟩ := List.mem_map.mp htext
    intro hdot
    have hdigit := Nat.isDigit_of_mem_toDigits (by decide) (by decide) hdot
    exact absurd hdigit (by decide)
  have hne : (digits 256 4 value.toNat).map (Nat.toDigits 10) ≠ [] := by
    intro hnil
    have hlength := congrArg List.length hnil
    rw [List.length_map, length_digits] at hlength
    cases hlength
  have hsplit : (ipv4Text value).splitOn '.' =
      (digits 256 4 value.toNat).map (Nat.toDigits 10) :=
    List.splitOn_intercalate '.' hplain hne
  have hlength : ((digits 256 4 value.toNat).map (Nat.toDigits 10)).length = 4 := by
    rw [List.length_map, length_digits]
  have hread := mapM_read fun octet hoctet =>
    parseOctet_toDigits (hoctets octet hoctet)
  have hvalue : ofDigits 256 (digits 256 4 value.toNat) = value.toNat :=
    ofDigits_digits value.isLt
  simp only [ipv4OfText, hsplit, hlength, hread, ne_eq, not_true_eq_false,
    if_false, Option.map_some, hvalue, BitVec.ofNat_toNat, BitVec.setWidth_eq]

/-! ## Hextets -/

theorem hexDigit_digitChar {digit : ℕ} (hdigit : digit < 16) :
    hexDigit digit.digitChar = some digit := by
  revert digit
  decide

/-- `int(text, 16)` of `'%x' % number`. -/
theorem hexNumber_toDigits (number : ℕ) :
    hexNumber (Nat.toDigits 16 number) = some number := by
  induction number using Nat.strong_induction_on with
  | _ number ih =>
    by_cases hsmall : number < 16
    · rw [Nat.toDigits_of_lt_base hsmall, hexNumber]
      simp [hexDigit_digitChar hsmall]
    · have hdiv := ih (number / 16) (by omega)
      have hmod : number % 16 < 16 := Nat.mod_lt _ (by decide)
      rw [hexNumber] at hdiv
      rw [Nat.toDigits_of_base_le (by decide) (not_lt.mp hsmall), hexNumber,
        List.foldlM_append, hdiv]
      simp only [List.foldlM_cons, List.foldlM_nil, hexDigit_digitChar hmod,
        Option.map_some, Option.bind_eq_bind, Option.bind_some, pure]
      rw [Nat.div_add_mod' number 16]

theorem hexDigit_isSome_of_mem {char : Char} {number : ℕ}
    (hchar : char ∈ Nat.toDigits 16 number) : (hexDigit char).isSome = true := by
  induction number using Nat.strong_induction_on with
  | _ number ih =>
    by_cases hsmall : number < 16
    · rw [Nat.toDigits_of_lt_base hsmall, List.mem_singleton] at hchar
      rw [hchar, hexDigit_digitChar hsmall]
      rfl
    · rw [Nat.toDigits_of_base_le (by decide) (not_lt.mp hsmall)] at hchar
      rcases List.mem_append.mp hchar with hhigh | hlow
      · exact ih (number / 16) (by omega) hhigh
      · rw [List.mem_singleton.mp hlow,
          hexDigit_digitChar (Nat.mod_lt _ (by decide))]
        rfl

theorem parseHextet_toDigits {hextet : ℕ} (hhextet : hextet < 65536) :
    parseHextet (Nat.toDigits 16 hextet) = some hextet := by
  have hlength : (Nat.toDigits 16 hextet).length ≤ 4 :=
    (Nat.length_toDigits_le_iff (by decide) (by decide)).mpr hhextet
  have hne : Nat.toDigits 16 hextet ≠ [] := Nat.toDigits_ne_nil
  rw [parseHextet, if_neg, hexNumber_toDigits]
  rintro (hnil | hlong)
  · exact hne hnil
  · omega

/-! ## The run of zeros -/

/-- The hextets of a run are zeros. -/
def ZeroRun (hextets : List (List Char)) (run : ℕ × ℕ) : Prop :=
  run.1 + run.2 ≤ hextets.length ∧
    ∀ index, run.1 ≤ index → index < run.1 + run.2 →
      hextets[index]? = some ['0']

theorem longestZeros_zeroRun {hextets rest : List (List Char)} {index length : ℕ}
    {best : ℕ × ℕ} (hrest : hextets.drop index = rest)
    (hindex : index ≤ hextets.length) (hlength : length ≤ index)
    (hcurrent : ∀ position, index - length ≤ position → position < index →
      hextets[position]? = some ['0'])
    (hbest : ZeroRun hextets best) :
    ZeroRun hextets (longestZeros index best length rest) := by
  induction rest generalizing index length best with
  | nil => exact hbest
  | cons hextet rest ih =>
      have hhextet : hextets[index]? = some hextet := by
        rw [← Nat.add_zero index, ← List.getElem?_drop, hrest]
        rfl
      have hlater : hextets.drop (index + 1) = rest := by
        rw [← List.drop_drop, hrest]
        rfl
      have hbound : index + 1 ≤ hextets.length :=
        (List.getElem?_eq_some_iff.mp hhextet).1
      rw [longestZeros]
      by_cases hzero : hextet = ['0']
      · have hextended : ∀ position, index + 1 - (length + 1) ≤ position →
            position < index + 1 → hextets[position]? = some ['0'] := by
          intro position hlow hhigh
          by_cases hlast : position = index
          · rw [hlast, hhextet, hzero]
          · exact hcurrent position (by omega) (by omega)
        rw [if_pos hzero]
        split
        · refine ih hlater hbound (by omega) hextended ⟨by simp only; omega, ?_⟩
          intro position hlow hhigh
          simp only at hlow hhigh
          exact hextended position (by omega) (by omega)
        · exact ih hlater hbound (by omega) hextended hbest
      · rw [if_neg hzero]
        refine ih hlater hbound (Nat.zero_le _) ?_ hbest
        intro position hlow hhigh
        omega

/-- A list with a run of zeros in it. -/
theorem zeroRun_split {hextets : List (List Char)} {run : ℕ × ℕ}
    (hrun : ZeroRun hextets run) :
    hextets.take run.1 ++ List.replicate run.2 ['0'] ++
      hextets.drop (run.1 + run.2) = hextets := by
  obtain ⟨hbound, hzero⟩ := hrun
  have hmiddle : (hextets.drop run.1).take run.2 =
      List.replicate run.2 ['0'] := by
    rw [List.eq_replicate_iff]
    constructor
    · rw [List.length_take, List.length_drop]
      omega
    · intro hextet hmem
      obtain ⟨index, hindex⟩ := List.mem_iff_getElem?.mp hmem
      have hshort : index < run.2 := by
        have hlt := (List.getElem?_eq_some_iff.mp hindex).1
        rw [List.length_take] at hlt
        omega
      rw [List.getElem?_take_of_lt hshort, List.getElem?_drop,
        hzero _ (by omega) (by omega)] at hindex
      exact (Option.some.inj hindex).symm
  rw [← hmiddle, ← List.drop_drop, List.append_assoc, List.take_append_drop,
    List.take_append_drop]

/-! ## IPv6 texts are read back -/

/-- The part for an end of the text which belongs to `::`. -/
def edge (hextets : List (List Char)) : List (List Char) :=
  if hextets = [] then [[]] else []

theorem length_edge (hextets : List (List Char)) :
    1 ≤ (edge hextets).length + hextets.length ∧ (edge hextets).length ≤ 1 := by
  rw [edge]
  cases hextets with
  | nil => decide
  | cons hextet others => simp

/-- The parts between the first and the last one are split at the empty one. -/
theorem splitSkipped_cons {first last : List Char} {high low : List (List Char)}
    (hhigh : [] ∉ high) (hlow : [] ∉ low)
    (hends : ¬((first = [] ∧ high ≠ []) ∨ (last = [] ∧ low ≠ []))) :
    splitSkipped (first :: (high ++ [] :: low) ++ [last]) =
      let high := if first = [] then [] else first :: high
      let low := if last = [] then [] else low ++ [last]
      if 8 ≤ high.length + low.length then none
      else some (high, 8 - (high.length + low.length), low) := by
  have hsplit : ([[]].intercalate [high, low]).splitOn [] = [high, low] :=
    List.splitOn_intercalate [] (by simp [hhigh, hlow]) (by simp)
  rw [List.intercalate_cons_cons, List.intercalate_singleton,
    List.append_assoc, List.singleton_append] at hsplit
  have hinner : (first :: (high ++ [] :: low) ++ [last]).tail.dropLast =
      high ++ [] :: low := by
    rw [List.cons_append, List.tail_cons, List.dropLast_concat]
  have hlast : (first :: (high ++ [] :: low) ++ [last]).getLastD [] = last := by
    rw [List.getLastD_concat]
  simp only [splitSkipped, hinner, hsplit, hlast]
  exact if_neg hends

/-- The parts around `::` are found again. -/
theorem splitSkipped_edges {high low : List (List Char)} (hhigh : [] ∉ high)
    (hlow : [] ∉ low) (hshort : high.length + low.length < 8) :
    splitSkipped (edge high ++ high ++ [[]] ++ low ++ edge low) =
      some (high, 8 - (high.length + low.length), low) := by
  have hnot : ¬8 ≤ high.length + low.length := by omega
  cases high with
  | nil =>
      rcases List.eq_nil_or_concat' low with rfl | ⟨others, last, rfl⟩
      · rfl
      · have hlast : last ≠ [] := fun hnil => hlow (by simp [hnil])
        have hothers : [] ∉ others := fun hmem => hlow (by simp [hmem])
        have hparts : edge [] ++ [] ++ [[]] ++ (others ++ [last]) ++
            edge (others ++ [last]) = [] :: ([] ++ [] :: others) ++ [last] := by
          simp [edge]
        rw [hparts, splitSkipped_cons hhigh hothers (by simp [hlast])]
        simp only [if_true, if_neg hlast, if_neg hnot]
  | cons first high =>
      have hfirst : first ≠ [] := fun hnil => hhigh (by simp [hnil])
      have hothers : [] ∉ high := fun hmem =>
        hhigh (List.mem_cons_of_mem _ hmem)
      rcases List.eq_nil_or_concat' low with rfl | ⟨lower, last, rfl⟩
      · have hparts : edge (first :: high) ++ (first :: high) ++ [[]] ++ [] ++
            edge [] = first :: (high ++ [] :: []) ++ [[]] := by
          simp [edge]
        rw [hparts, splitSkipped_cons hothers hlow (by simp [hfirst])]
        simp only [if_true, if_neg hfirst, if_neg hnot]
      · have hlast : last ≠ [] := fun hnil => hlow (by simp [hnil])
        have hlower : [] ∉ lower := fun hmem => hlow (by simp [hmem])
        have hparts : edge (first :: high) ++ (first :: high) ++ [[]] ++
            (lower ++ [last]) ++ edge (lower ++ [last]) =
              first :: (high ++ [] :: lower) ++ [last] := by
          simp [edge]
        rw [hparts, splitSkipped_cons hothers hlower (by simp [hfirst, hlast])]
        simp only [if_neg hfirst, if_neg hlast, if_neg hnot]

theorem splitSkipped_full {parts : List (List Char)} (hparts : [] ∉ parts)
    (hlength : parts.length = 8) : splitSkipped parts = some (parts, 0, []) := by
  have hne : parts ≠ [] := by
    rintro rfl
    cases hlength
  have hsplit : ([[]].intercalate [parts.tail.dropLast]).splitOn [] =
      [parts.tail.dropLast] := by
    refine List.splitOn_intercalate [] ?_ (by simp)
    intro inner hinner hmem
    rw [List.mem_singleton.mp hinner] at hmem
    exact hparts (List.mem_of_mem_tail (List.mem_of_mem_dropLast hmem))
  rw [List.intercalate_singleton] at hsplit
  have hends : ¬(parts.length ≠ 8 ∨ parts.headD [] = [] ∨
      parts.getLastD [] = []) := by
    rw [not_or, not_or, not_not]
    refine ⟨hlength, ?_, ?_⟩
    · intro hfirst
      rw [List.headD_eq_head?_getD, List.head?_eq_some_head hne] at hfirst
      exact hparts (hfirst ▸ List.head_mem hne)
    · intro hlast
      rw [List.getLastD_eq_getLast?, List.getLast?_eq_some_getLast hne] at hlast
      exact hparts (hlast ▸ List.getLast_mem hne)
  simp only [splitSkipped, hsplit]
  exact if_neg hends

/-- Parts of hexadecimal digits. -/
def HexParts (parts : List (List Char)) : Prop :=
  ∀ part ∈ parts, ∀ char ∈ part, (hexDigit char).isSome = true

theorem ipv6OfText_intercalate {parts : List (List Char)} (high low : List ℕ)
    {skipped : ℕ} (hparts : HexParts parts) (hlow : 3 ≤ parts.length)
    (hhigh : parts.length ≤ 9)
    (hsplit : splitSkipped parts =
      some (high.map (Nat.toDigits 16), skipped, low.map (Nat.toDigits 16)))
    (hhextets : ∀ hextet ∈ high ++ low, hextet < 65536) :
    ipv6OfText ([':'].intercalate parts) = some (BitVec.ofNat 128
      (ofDigits 65536 (high ++ List.replicate skipped 0 ++ low))) := by
  have hcolon : ∀ part ∈ parts, ':' ∉ part := by
    intro part hpart hmem
    exact absurd (hparts part hpart ':' hmem) (by decide)
  have hne : parts ≠ [] := by
    rintro rfl
    cases hlow
  have hread : ([':'].intercalate parts).splitOn ':' = parts :=
    List.splitOn_intercalate ':' hcolon hne
  have hlast : parts.getLastD [] ∈ parts := by
    rw [List.getLastD_eq_getLast?, List.getLast?_eq_some_getLast hne]
    exact List.getLast_mem hne
  have hdot : (parts.getLastD []).contains '.' = false := by
    rw [List.contains_eq_mem, decide_eq_false_iff_not]
    intro hmem
    exact absurd (hparts _ hlast '.' hmem) (by decide)
  have hembed : embedIpv4 parts = some parts := by
    simp only [embedIpv4, hdot]
    rfl
  have hfirst : (high.map (Nat.toDigits 16)).mapM parseHextet = some high :=
    mapM_read fun hextet hmem =>
      parseHextet_toDigits (hhextets hextet (List.mem_append_left low hmem))
  have hsecond : (low.map (Nat.toDigits 16)).mapM parseHextet = some low :=
    mapM_read fun hextet hmem =>
      parseHextet_toDigits (hhextets hextet (List.mem_append_right high hmem))
  simp only [ipv6OfText, hread, if_neg (not_lt.mpr hlow), hembed,
    Option.bind_eq_bind, Option.bind_some, if_neg (not_lt.mpr hhigh), hsplit,
    hfirst, hsecond]

section Canonical

variable (value : BitVec 128)

def hextets : List ℕ :=
  digits 65536 8 value.toNat

def hextetTexts : List (List Char) :=
  (hextets value).map (Nat.toDigits 16)

theorem hextets_lt {hextet : ℕ} (hmem : hextet ∈ hextets value) :
    hextet < 65536 :=
  digits_lt (by decide) hmem

theorem length_hextetTexts : (hextetTexts value).length = 8 := by
  rw [hextetTexts, List.length_map, hextets, length_digits]

theorem hexParts_hextetTexts : HexParts (hextetTexts value) := by
  intro part hpart char hchar
  obtain ⟨hextet, -, rfl⟩ := List.mem_map.mp hpart
  exact hexDigit_isSome_of_mem hchar

theorem nil_notMem_hextetTexts : [] ∉ hextetTexts value := by
  intro hmem
  obtain ⟨hextet, -, hnil⟩ := List.mem_map.mp hmem
  exact Nat.toDigits_ne_nil hnil

theorem zeroRun_hextetTexts :
    ZeroRun (hextetTexts value)
      (longestZeros 0 (0, 0) 0 (hextetTexts value)) := by
  refine longestZeros_zeroRun rfl (Nat.zero_le _) (Nat.zero_le _) ?_
    ⟨Nat.zero_le _, ?_⟩
  · intro position _ hlt
    cases hlt
  · intro index _ hlt
    cases hlt

/-- The hextets around a run of zeros. -/
theorem hextets_split {run : ℕ × ℕ} (hrun : ZeroRun (hextetTexts value) run) :
    (hextets value).take run.1 ++ List.replicate run.2 0 ++
      (hextets value).drop (run.1 + run.2) = hextets value := by
  have hdecode : (hextetTexts value).map (fun text => (hexNumber text).getD 0) =
      hextets value := by
    rw [hextetTexts, List.map_map]
    refine (List.map_congr_left fun hextet _ => ?_).trans (List.map_id _)
    rw [Function.comp_apply, hexNumber_toDigits]
    rfl
  have htexts := congrArg (List.map fun text => (hexNumber text).getD 0)
    (zeroRun_split hrun)
  rw [List.map_append, List.map_append, List.map_take, List.map_drop,
    List.map_replicate, hdecode] at htexts
  exact htexts

/-- An end of the text belongs to `::` if no hextet is left there. -/
theorem compressHextets_eq {run : ℕ × ℕ}
    (hrun : longestZeros 0 (0, 0) 0 (hextetTexts value) = run)
    (hbound : run.1 + run.2 ≤ (hextetTexts value).length) (hlong : 1 < run.2) :
    compressHextets (hextetTexts value) =
      edge ((hextetTexts value).take run.1) ++ (hextetTexts value).take run.1 ++
        [[]] ++ (hextetTexts value).drop (run.1 + run.2) ++
        edge ((hextetTexts value).drop (run.1 + run.2)) := by
  have hne : hextetTexts value ≠ [] := by
    intro hnil
    have hlength := length_hextetTexts value
    rw [hnil] at hlength
    cases hlength
  have hfirst : (hextetTexts value).take run.1 = [] ↔ run.1 = 0 := by
    rw [List.take_eq_nil_iff, or_iff_left hne]
  have hlast : (hextetTexts value).drop (run.1 + run.2) = [] ↔
      run.1 + run.2 = (hextetTexts value).length := by
    rw [List.drop_eq_nil_iff]
    omega
  simp only [compressHextets, hrun, if_pos hlong, edge, hfirst, hlast]

theorem hexParts_edge (hextets : List (List Char)) : HexParts (edge hextets) := by
  intro part hpart char hchar
  rw [edge] at hpart
  split at hpart
  · rw [List.mem_singleton.mp hpart] at hchar
    cases hchar
  · cases hpart

theorem hexParts_append {parts others : List (List Char)}
    (hparts : HexParts parts) (hothers : HexParts others) :
    HexParts (parts ++ others) := by
  intro part hpart
  rcases List.mem_append.mp hpart with hfirst | hsecond
  · exact hparts part hfirst
  · exact hothers part hsecond

theorem hexParts_compressHextets :
    HexParts (compressHextets (hextetTexts value)) := by
  have hplain := hexParts_hextetTexts value
  have hrun := zeroRun_hextetTexts value
  by_cases hlong : 1 < (longestZeros 0 (0, 0) 0 (hextetTexts value)).2
  · rw [compressHextets_eq value rfl hrun.1 hlong]
    refine hexParts_append (hexParts_append (hexParts_append (hexParts_append
      (hexParts_edge _) ?_) ?_) ?_) (hexParts_edge _)
    · intro part hpart
      exact hplain part (List.mem_of_mem_take hpart)
    · intro part hpart char hchar
      rw [List.mem_singleton.mp hpart] at hchar
      cases hchar
    · intro part hpart
      exact hplain part (List.mem_of_mem_drop hpart)
  · simp only [compressHextets, if_neg hlong]
    exact hplain

theorem ipv6OfText_ipv6Text : ipv6OfText (ipv6Text value) = some value := by
  have hbound : value.toNat < 65536 ^ 8 :=
    value.isLt.trans_eq (by norm_num)
  have hvalue : BitVec.ofNat 128 (ofDigits 65536 (hextets value)) = value := by
    rw [hextets, ofDigits_digits hbound, BitVec.ofNat_toNat, BitVec.setWidth_eq]
  have hplain := hexParts_compressHextets value
  have hlength := length_hextetTexts value
  have hrun := zeroRun_hextetTexts value
  have hwhole := hextets_split value hrun
  generalize heq : longestZeros 0 (0, 0) 0 (hextetTexts value) = run at hrun hwhole
  change ipv6OfText ([':'].intercalate
    (compressHextets (hextetTexts value))) = some value
  by_cases hlong : 1 < run.2
  · have hparts := compressHextets_eq value heq hrun.1 hlong
    have htake : ((hextetTexts value).take run.1).length = run.1 := by
      have hend := hrun.1
      rw [List.length_take]
      omega
    have hdrop : ((hextetTexts value).drop (run.1 + run.2)).length =
        8 - (run.1 + run.2) := by
      rw [List.length_drop, hlength]
    have hend : run.1 + run.2 ≤ 8 := hlength ▸ hrun.1
    have hskipped : 8 - (run.1 + (8 - (run.1 + run.2))) = run.2 := by omega
    have hsplit : splitSkipped (compressHextets (hextetTexts value)) =
        some (((hextets value).take run.1).map (Nat.toDigits 16), run.2,
          ((hextets value).drop (run.1 + run.2)).map (Nat.toDigits 16)) := by
      rw [hparts, splitSkipped_edges
        (fun hmem => nil_notMem_hextetTexts value (List.mem_of_mem_take hmem))
        (fun hmem => nil_notMem_hextetTexts value (List.mem_of_mem_drop hmem))
        (by omega), htake, hdrop, hskipped, List.map_take, List.map_drop]
      rfl
    have hcount := congrArg List.length hparts
    simp only [List.length_append, htake, hdrop, List.length_singleton] at hcount
    have hfirst := length_edge ((hextetTexts value).take run.1)
    have hlast := length_edge ((hextetTexts value).drop (run.1 + run.2))
    rw [htake] at hfirst
    rw [hdrop] at hlast
    rw [ipv6OfText_intercalate ((hextets value).take run.1)
      ((hextets value).drop (run.1 + run.2)) hplain (by omega) (by omega)
      hsplit ?_, hwhole, hvalue]
    intro hextet hmem
    rcases List.mem_append.mp hmem with hhigh | hlow
    · exact hextets_lt value (List.mem_of_mem_take hhigh)
    · exact hextets_lt value (List.mem_of_mem_drop hlow)
  · have hparts : compressHextets (hextetTexts value) = hextetTexts value := by
      simp only [compressHextets, heq, if_neg hlong]
    have hsplit := splitSkipped_full (nil_notMem_hextetTexts value) hlength
    rw [hparts] at hplain ⊢
    rw [ipv6OfText_intercalate (hextets value) [] hplain (by omega) (by omega)
      hsplit ?_]
    · simp [hvalue]
    · intro hextet hmem
      rw [List.append_nil] at hmem
      exact hextets_lt value hmem

end Canonical

/-! ## Addresses -/

theorem mem_of_mem_intercalate {separator char : Char}
    {parts : List (List Char)} (hchar : char ∈ [separator].intercalate parts) :
    char = separator ∨ ∃ part ∈ parts, char ∈ part := by
  induction parts with
  | nil => cases hchar
  | cons part parts ih =>
      cases parts with
      | nil =>
          rw [List.intercalate_singleton] at hchar
          exact .inr ⟨part, List.mem_singleton_self part, hchar⟩
      | cons other others =>
          rw [List.intercalate_cons_cons, List.append_assoc] at hchar
          rcases List.mem_append.mp hchar with hpart | hrest
          · exact .inr ⟨part, List.mem_cons_self, hpart⟩
          · rcases List.mem_cons.mp hrest with hseparator | hlater
            · exact .inl hseparator
            · refine (ih hlater).imp_right ?_
              rintro ⟨later, hmem, hin⟩
              exact ⟨later, List.mem_cons_of_mem _ hmem, hin⟩

/-- The characters of a canonical text. -/
theorem mem_ipv4Text {value : BitVec 32} {char : Char}
    (hchar : char ∈ ipv4Text value) : char = '.' ∨ char.isDigit = true := by
  refine (mem_of_mem_intercalate hchar).imp_right ?_
  rintro ⟨part, hpart, hmem⟩
  obtain ⟨octet, -, rfl⟩ := List.mem_map.mp hpart
  exact Nat.isDigit_of_mem_toDigits (by decide) (by decide) hmem

theorem mem_ipv6Text {value : BitVec 128} {char : Char}
    (hchar : char ∈ ipv6Text value) :
    char = ':' ∨ (hexDigit char).isSome = true := by
  refine (mem_of_mem_intercalate hchar).imp_right ?_
  rintro ⟨part, hpart, hmem⟩
  exact hexParts_compressHextets value part hpart char hmem

theorem ipAddress_text_v4 (value : BitVec 32) :
    ipAddress (IpAddress.v4 value).text = some (.v4 value) := by
  have hslash : '/' ∉ ipv4Text value := by
    intro hmem
    rcases mem_ipv4Text hmem with hdot | hdigit
    · exact absurd hdot (by decide)
    · exact absurd hdigit (by decide)
  rw [IpAddress.text, ipAddress, if_neg hslash, ipv4OfText_ipv4Text]

/-- The canonical text of an address is read as the address. -/
theorem ipAddress_text_v6 (value : BitVec 128) :
    ipAddress (IpAddress.v6 value none).text = some (.v6 value none) := by
  have habsent : ∀ char, char ≠ ':' → hexDigit char = none →
      char ∉ ipv6Text value := by
    intro char hcolon hhex hmem
    rcases mem_ipv6Text hmem with hseparator | hdigit
    · exact hcolon hseparator
    · rw [hhex] at hdigit
      cases hdigit
  have hslash := habsent '/' (by decide) (by decide)
  have hdot := habsent '.' (by decide) (by decide)
  have hpercent := habsent '%' (by decide) (by decide)
  have hsingle : (ipv6Text value).splitOn '.' = [ipv6Text value] := by
    have hsplit : (['.'].intercalate [ipv6Text value]).splitOn '.' =
        [ipv6Text value] :=
      List.splitOn_intercalate '.' (by simpa using hdot) (by simp)
    rwa [List.intercalate_singleton] at hsplit
  have hv4 : ipv4OfText (ipv6Text value) = none := by
    simp [ipv4OfText, hsingle]
  have hscope : splitScopeId (ipv6Text value) = some (ipv6Text value, none) := by
    have hdrop : (ipv6Text value).dropWhile (· ≠ '%') = [] := by
      rw [List.dropWhile_eq_nil_iff]
      intro char hchar
      rw [decide_eq_true_eq]
      rintro rfl
      exact hpercent hchar
    rw [splitScopeId, hdrop]
  rw [IpAddress.text, ipAddress, if_neg hslash, hv4]
  simp only [hscope, Option.bind_eq_bind, Option.bind_some, ipv6OfText_ipv6Text]
  rfl

end NotifyHub.IpAddresses
