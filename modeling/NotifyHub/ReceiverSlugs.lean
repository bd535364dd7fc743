import NotifyHub.DomainTypes
import NotifyHub.SeparatedText
import Mathlib.Data.List.DropRight
import Mathlib.Tactic

/-!
# The slug of a receiver

`app.services.slug`: the names of the group and of the receiver, reduced to an
alphabet, in front of the token which makes the slug a credential.
-/

namespace NotifyHub.Slug

open SeparatedText

def slugTokenChars : ℕ := 22

def slugPartMaxChars : ℕ := 32

def slugMaxChars : ℕ := 120

def slugSeparator : Char := '-'

/-- `string.ascii_lowercase + string.digits`. -/
def isPartChar (char : Char) : Bool :=
  ('a' ≤ char && char ≤ 'z') || ('0' ≤ char && char ≤ '9')

/-- `string.ascii_letters + string.digits + "_-"`. -/
def isSlugChar (char : Char) : Bool :=
  isPartChar char || ('A' ≤ char && char ≤ 'Z') || char = '_' || char = '-'

/-- `_is_safe_slug` of the wrapper generator. -/
def isSafeSlug (slug : Text) : Bool :=
  slug ≠ [] && slug.length ≤ slugMaxChars && slug.all isSlugChar

def isAscii (char : Char) : Bool :=
  char.toNat < 128

/-- `unicodedata.normalize("NFKD", …)`. -/
structure Nfkd where
  normalize : Text → Text
  ascii : ∀ text, (∀ char ∈ text, isAscii char = true) → normalize text = text

/-- `encode("ascii", "ignore").decode("ascii").lower()` of the normal form. -/
def asciiOnly (nfkd : Nfkd) (value : Text) : Text :=
  ((nfkd.normalize value).filter isAscii).map Char.toLower

def slugifyPart (nfkd : Nfkd) (value : Text) : Text :=
  let chars := collapse isPartChar slugSeparator (asciiOnly nfkd value)
  trim slugSeparator
    ((trim slugSeparator chars).take slugPartMaxChars)

/-- What `secrets.token_urlsafe(16)` returns. -/
structure SlugToken where
  text : Text
  length : text.length = slugTokenChars
  urlsafe : ∀ char ∈ text, isSlugChar char = true

def buildReceiverSlug
    (nfkd : Nfkd) (groupName receiverName : Text) (token : SlugToken) : Text :=
  let parts := [slugifyPart nfkd groupName, slugifyPart nfkd receiverName].filter
    (· ≠ [])
  [slugSeparator].intercalate (parts ++ [token.text])

/-! ## One part -/

structure IsPart (part : Text) : Prop where
  letters : ∀ char ∈ part, isPartChar char = true ∨ char = slugSeparator
  tidy : Tidy slugSeparator part
  length : part.length ≤ slugPartMaxChars

theorem separator_not_part : isPartChar slugSeparator = false := by
  decide

theorem slugifyPart_isPart (nfkd : Nfkd) (value : Text) :
    IsPart (slugifyPart nfkd value) := by
  have hchars : Collapsed isPartChar slugSeparator
      (collapse isPartChar slugSeparator (asciiOnly nfkd value)) :=
    collapse_collapsed separator_not_part _
  have hwithin : slugifyPart nfkd value <:+:
      collapse isPartChar slugSeparator (asciiOnly nfkd value) :=
    (trim_within _ _).trans
      ((List.take_prefix _ _).isInfix.trans (trim_within _ _))
  have hcut := hchars.single.trim.single.within
    (List.take_prefix slugPartMaxChars _).isInfix
  refine ⟨fun char hchar => ?_, hcut.trim, ?_⟩
  · exact hchars.letters char (hwithin.subset hchar)
  · calc (slugifyPart nfkd value).length
        ≤ ((trim slugSeparator _).take slugPartMaxChars).length :=
          (trim_within _ _).length_le
      _ ≤ slugPartMaxChars := List.length_take_le _ _

theorem isPartChar_iff {char : Char} :
    isPartChar char = true ↔
      97 ≤ char.toNat ∧ char.toNat ≤ 122 ∨
        48 ≤ char.toNat ∧ char.toNat ≤ 57 := by
  simp [isPartChar, Char.le_def, UInt32.le_iff_toNat_le]

/-- A character of a part is ASCII and in lower case. -/
theorem part_lower {char : Char}
    (hchar : isPartChar char = true ∨ char = slugSeparator) :
    isAscii char = true ∧ char.toLower = char := by
  have hcode : char.toNat < 128 ∧ ¬(65 ≤ char.toNat ∧ char.toNat ≤ 90) := by
    rcases hchar with hpart | rfl
    · rcases isPartChar_iff.mp hpart with hrange | hrange <;> omega
    · decide
  refine ⟨decide_eq_true hcode.1, dif_neg ?_⟩
  rintro ⟨hlow, hhigh⟩
  exact hcode.2 ⟨UInt32.le_iff_toNat_le.mp hlow,
    UInt32.le_iff_toNat_le.mp hhigh⟩

/-- A part is its own part. -/
theorem IsPart.slugifyPart_eq
    {part : Text} (hpart : IsPart part) (nfkd : Nfkd) :
    slugifyPart nfkd part = part := by
  have hlower := fun char hchar => part_lower (hpart.letters char hchar)
  have hascii : asciiOnly nfkd part = part := by
    rw [asciiOnly, nfkd.ascii part fun char hchar => (hlower char hchar).1,
      List.filter_eq_self.mpr fun char hchar => (hlower char hchar).1]
    calc part.map Char.toLower
        = part.map id :=
          List.map_congr_left fun char hchar => (hlower char hchar).2
      _ = part := List.map_id part
  have hcollapsed : Collapsed isPartChar slugSeparator part :=
    ⟨hpart.letters, hpart.tidy.head, hpart.tidy.single⟩
  rw [slugifyPart, hascii, collapse_eq_self separator_not_part hcollapsed,
    hpart.tidy.trim_eq, List.take_of_length_le hpart.length,
    hpart.tidy.trim_eq]

example : slugifyPart ⟨id, fun _ _ => rfl⟩ " ELOG -- Test! ".toList =
    "elog-test".toList := by
  decide +kernel

/-! ## The whole slug -/

theorem isSlugChar_of_part {char : Char}
    (hchar : isPartChar char = true ∨ char = slugSeparator) :
    isSlugChar char = true := by
  rcases hchar with hpart | rfl
  · simp [isSlugChar, hpart]
  · decide

/-- Parts in front of the token, each with its separator. -/
theorem parts_before_token
    (token : Text) {parts : List Text} (hparts : ∀ part ∈ parts, IsPart part) :
    ∃ readable, [slugSeparator].intercalate (parts ++ [token]) =
        readable ++ token ∧
      readable.length ≤ parts.length * (slugPartMaxChars + 1) ∧
      ∀ char ∈ readable, isSlugChar char = true := by
  induction parts with
  | nil => exact ⟨[], by simp, by simp, by simp⟩
  | cons part rest ih =>
      obtain ⟨readable, heq, hlength, hchars⟩ :=
        ih fun other hother => hparts other (List.mem_cons_of_mem _ hother)
      have hpart : IsPart part := hparts part List.mem_cons_self
      refine ⟨part ++ slugSeparator :: readable, ?_, ?_, ?_⟩
      · obtain ⟨next, others, hrest⟩ : ∃ next others,
            rest ++ [token] = next :: others :=
          List.exists_cons_of_ne_nil (by simp)
        rw [List.cons_append, hrest, List.intercalate_cons_cons, ← hrest, heq]
        simp
      · have hmost := hpart.length
        simp only [List.length_append, List.length_cons]
        rw [Nat.add_mul, Nat.one_mul]
        omega
      · intro char hchar
        rcases List.mem_append.mp hchar with hleft | hright
        · exact isSlugChar_of_part (hpart.letters char hleft)
        · rcases List.mem_cons.mp hright with rfl | hafter
          · decide
          · exact hchars char hafter

theorem buildReceiverSlug_eq
    (nfkd : Nfkd) (groupName receiverName : Text) (token : SlugToken) :
    ∃ readable, buildReceiverSlug nfkd groupName receiverName token =
        readable ++ token.text ∧
      readable.length ≤ 2 * (slugPartMaxChars + 1) ∧
      ∀ char ∈ readable, isSlugChar char = true := by
  let parts := [slugifyPart nfkd groupName, slugifyPart nfkd receiverName].filter
    (· ≠ [])
  have hparts : ∀ part ∈ parts, IsPart part := by
    intro part hpart
    have hmem := List.mem_of_mem_filter hpart
    simp only [List.mem_cons, List.not_mem_nil, or_false] at hmem
    rcases hmem with rfl | rfl
    · exact slugifyPart_isPart nfkd groupName
    · exact slugifyPart_isPart nfkd receiverName
  obtain ⟨readable, heq, hlength, hchars⟩ := parts_before_token token.text hparts
  have hcount : parts.length ≤ 2 := List.length_filter_le _ _
  exact ⟨readable, heq, hlength.trans (Nat.mul_le_mul_right _ hcount), hchars⟩

/-- The slug of any names ends in the whole token, and the wrapper generator
accepts it. -/
theorem slugs_wellFormed (nfkd : Nfkd) :
    (∀ value, (∀ char ∈ slugifyPart nfkd value,
        isPartChar char = true ∨ char = slugSeparator) ∧
      (slugifyPart nfkd value).length ≤ slugPartMaxChars ∧
      (slugifyPart nfkd value).head? ≠ some slugSeparator ∧
      (slugifyPart nfkd value).getLast? ≠ some slugSeparator ∧
      ¬[slugSeparator, slugSeparator] <:+: slugifyPart nfkd value ∧
      slugifyPart nfkd (slugifyPart nfkd value) = slugifyPart nfkd value) ∧
    ∀ groupName receiverName (token : SlugToken),
      let slug := buildReceiverSlug nfkd groupName receiverName token
      slug.length ≤ slugMaxChars ∧ isSafeSlug slug = true ∧
        slug.drop (slug.length - slugTokenChars) = token.text := by
  constructor
  · intro value
    have hpart := slugifyPart_isPart nfkd value
    exact ⟨hpart.letters, hpart.length, hpart.tidy.head, hpart.tidy.last,
      hpart.tidy.no_pair, hpart.slugifyPart_eq nfkd⟩
  · intro groupName receiverName token slug
    obtain ⟨readable, heq, hlength, hchars⟩ :=
      buildReceiverSlug_eq nfkd groupName receiverName token
    have hslug : slug = readable ++ token.text := heq
    have htoken := token.length
    have hwhole : slug.length = readable.length + slugTokenChars := by
      rw [hslug, List.length_append, htoken]
    have hmost : slug.length ≤ slugMaxChars := by
      rw [hwhole]
      exact (Nat.add_le_add_right hlength _).trans (by decide)
    have hne : slug ≠ [] := by
      apply List.ne_nil_of_length_pos
      rw [hwhole]
      exact Nat.lt_of_lt_of_le (by decide) (Nat.le_add_left slugTokenChars _)
    have hsafe : ∀ char ∈ slug, isSlugChar char = true := by
      intro char hchar
      rw [hslug] at hchar
      rcases List.mem_append.mp hchar with hleft | hright
      · exact hchars char hleft
      · exact token.urlsafe char hright
    refine ⟨hmost, ?_, ?_⟩
    · rw [isSafeSlug, Bool.and_eq_true, Bool.and_eq_true]
      exact ⟨⟨decide_eq_true hne, decide_eq_true hmost⟩,
        List.all_eq_true.mpr hsafe⟩
    · rw [hwhole, Nat.add_sub_cancel, hslug, List.drop_left]

def sampleToken : SlugToken where
  text := "kE3-_vQ0aZb91xYtLmNp7w".toList
  length := by decide
  urlsafe := by decide

example : buildReceiverSlug ⟨id, fun _ _ => rfl⟩ "Ops (EU)".toList [] sampleToken =
    "ops-eu-kE3-_vQ0aZb91xYtLmNp7w".toList := by decide

end NotifyHub.Slug
