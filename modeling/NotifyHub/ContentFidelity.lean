import NotifyHub.CursorText
import NotifyHub.DashboardTables
import NotifyHub.OutboundFormatters
import Mathlib.Tactic

/-!
# What is kept of a body

UTF-8 as the decoder of the ingestion reads it is inverse to the encoder, on the
bodies which need no replacement.  So the mark of a normalised content says
exactly whether the body can be read back, and the endpoint of the content sends
the encoding of what is stored.
-/

namespace NotifyHub.Ingestion

/-! ## Characters of several bytes -/

def pendingTwo (bits : ℕ) : PendingChar :=
  ⟨bits, 0, 0x80, 0xBF⟩

def pendingThree (bits : ℕ) : PendingChar :=
  ⟨bits, 1, if bits = 0 then 0xA0 else 0x80, if bits = 0xD then 0x9F else 0xBF⟩

def pendingFour (bits : ℕ) : PendingChar :=
  ⟨bits, 2, if bits = 0 then 0x90 else 0x80, if bits = 4 then 0x8F else 0xBF⟩

theorem pendingThree_bounds (bits : ℕ) :
    0x80 ≤ (pendingThree bits).low ∧ (pendingThree bits).high ≤ 0xBF := by
  simp only [pendingThree]
  constructor
  · split <;> omega
  · split <;> omega

theorem pendingFour_bounds (bits : ℕ) :
    0x80 ≤ (pendingFour bits).low ∧ (pendingFour bits).high ≤ 0xBF := by
  simp only [pendingFour]
  constructor
  · split <;> omega
  · split <;> omega

theorem leadByte_two {bits : ℕ} (hlow : 2 ≤ bits) (hhigh : bits < 32) :
    leadByte (0xC0 + bits) = some (pendingTwo bits) := by
  have hrange : 0xC2 ≤ 0xC0 + bits ∧ 0xC0 + bits ≤ 0xDF := by omega
  rw [leadByte, if_pos hrange, Nat.add_sub_cancel_left]
  rfl

theorem leadByte_three {bits : ℕ} (hhigh : bits < 16) :
    leadByte (0xE0 + bits) = some (pendingThree bits) := by
  interval_cases bits <;> rfl

theorem leadByte_four {bits : ℕ} (hhigh : bits ≤ 4) :
    leadByte (0xF0 + bits) = some (pendingFour bits) := by
  interval_cases bits <;> rfl

/-- The first bytes of characters are these. -/
theorem leadByte_cases
    {byte : ℕ} {pending : PendingChar} (hlead : leadByte byte = some pending) :
    (∃ bits, 2 ≤ bits ∧ bits < 32 ∧ byte = 0xC0 + bits ∧
      pending = pendingTwo bits) ∨
    (∃ bits, bits < 16 ∧ byte = 0xE0 + bits ∧ pending = pendingThree bits) ∨
    ∃ bits, bits ≤ 4 ∧ byte = 0xF0 + bits ∧ pending = pendingFour bits := by
  by_cases htwo : 0xC2 ≤ byte ∧ byte ≤ 0xDF
  · left
    have hbyte : byte = 0xC0 + (byte - 0xC0) := by omega
    rw [hbyte, leadByte_two (by omega) (by omega)] at hlead
    exact ⟨byte - 0xC0, by omega, by omega, hbyte, (Option.some.inj hlead).symm⟩
  · right
    by_cases hthree : 0xE0 ≤ byte ∧ byte ≤ 0xEF
    · left
      have hbyte : byte = 0xE0 + (byte - 0xE0) := by omega
      rw [hbyte, leadByte_three (by omega)] at hlead
      exact ⟨byte - 0xE0, by omega, hbyte, (Option.some.inj hlead).symm⟩
    · right
      by_cases hfour : 0xF0 ≤ byte ∧ byte ≤ 0xF4
      · have hbyte : byte = 0xF0 + (byte - 0xF0) := by omega
        rw [hbyte, leadByte_four (by omega)] at hlead
        exact ⟨byte - 0xF0, by omega, hbyte, (Option.some.inj hlead).symm⟩
      · exfalso
        rw [leadByte, if_neg htwo, if_neg (by omega), if_neg (by omega),
          if_neg (by omega), if_neg (by omega), if_neg (by omega),
          if_neg (by omega)] at hlead
        cases hlead

section Decoding

variable {byte : UInt8} {rest bytes : List UInt8} {pending : PendingChar}
  {char : Char} {text : Text}

theorem decode_ascii (hbyte : byte.toNat < 0x80) :
    utf8Decode none (byte :: rest) =
      some (Char.ofNat byte.toNat) :: utf8Decode none rest := by
  rw [utf8Decode]
  simp only [decodeByte, startChar, if_pos hbyte]
  rfl

theorem decode_lead {value : ℕ} (hvalue : 0x80 ≤ value)
    (hbyte : byte.toNat = value) (hlead : leadByte value = some pending) :
    utf8Decode none (byte :: rest) = utf8Decode (some pending) rest := by
  have hlong : ¬value < 0x80 := by omega
  rw [utf8Decode]
  simp only [decodeByte, startChar, hbyte, if_neg hlong, hlead]
  rfl

theorem decode_further
    {further value : ℕ} (hfurther : pending.further = further + 1)
    (hbyte : byte.toNat = 0x80 + value) (hlow : pending.low ≤ 0x80 + value)
    (hhigh : 0x80 + value ≤ pending.high) :
    utf8Decode (some pending) (byte :: rest) =
      utf8Decode (some ⟨pending.bits * 64 + value, further, 0x80, 0xBF⟩)
        rest := by
  rw [utf8Decode]
  simp only [decodeByte, hbyte, if_pos (And.intro hlow hhigh), hfurther,
    Nat.add_sub_cancel_left]
  rfl

theorem decode_last
    {value : ℕ} (hfurther : pending.further = 0)
    (hbyte : byte.toNat = 0x80 + value) (hlow : pending.low ≤ 0x80 + value)
    (hhigh : 0x80 + value ≤ pending.high) :
    utf8Decode (some pending) (byte :: rest) =
      some (Char.ofNat (pending.bits * 64 + value)) ::
        utf8Decode none rest := by
  rw [utf8Decode]
  simp only [decodeByte, hbyte, if_pos (And.intro hlow hhigh), hfurther,
    Nat.add_sub_cancel_left]
  rfl

/-- A pending character which is not given up takes the next byte. -/
theorem decode_pending
    (hlow : 0x80 ≤ pending.low)
    (hdecoded : utf8Decode (some pending) bytes = text.map some) :
    ∃ byte rest value, bytes = byte :: rest ∧ byte.toNat = 0x80 + value ∧
      pending.low ≤ 0x80 + value ∧ 0x80 + value ≤ pending.high := by
  cases bytes with
  | nil =>
      rw [utf8Decode] at hdecoded
      cases text with
      | nil => cases hdecoded
      | cons char text => cases hdecoded
  | cons byte rest =>
      rw [utf8Decode, decodeByte] at hdecoded
      by_cases hrange : pending.low ≤ byte.toNat ∧ byte.toNat ≤ pending.high
      · have hbyte : byte.toNat = 0x80 + (byte.toNat - 0x80) := by omega
        rw [hbyte] at hrange
        exact ⟨byte, rest, byte.toNat - 0x80, rfl, hbyte, hrange⟩
      · rw [if_neg hrange, List.cons_append] at hdecoded
        cases text with
        | nil => cases hdecoded
        | cons char text => cases hdecoded

end Decoding

/-! ## Encoding -/

section Encoding

variable {bits first second third value : ℕ} {rest bytes : List UInt8}
  {char : Char} {text : Text}

theorem toNat_ofNat_byte (hvalue : value < 256) :
    (UInt8.ofNat value).toNat = value := by
  rw [UInt8.toNat_ofNat', Nat.mod_eq_of_lt hvalue]

theorem val_ofNat (hvalue : value < 0xD800 ∨ 0xDFFF < value ∧ value < 0x110000) :
    (Char.ofNat value).val.toNat = value := by
  have hvalid : value.isValidChar := hvalue
  rw [Char.ofNat, dif_pos hvalid]
  rfl

theorem encode_ascii (hvalue : value < 0x80) :
    String.utf8EncodeChar (Char.ofNat value) = [UInt8.ofNat value] := by
  have hshort : value ≤ 0x7F := by omega
  have hchar : (Char.ofNat value).val.toNat = value :=
    val_ofNat (Or.inl (by omega))
  simp only [String.utf8EncodeChar, hchar, if_pos hshort]

theorem encode_two (hlow : 2 ≤ bits) (hhigh : bits < 32) (hfirst : first < 64) :
    String.utf8EncodeChar (Char.ofNat (bits * 64 + first)) =
      [UInt8.ofNat (0xC0 + bits), UInt8.ofNat (0x80 + first)] := by
  have hchar : (Char.ofNat (bits * 64 + first)).val.toNat = bits * 64 + first :=
    val_ofNat (Or.inl (by omega))
  have hlong : ¬bits * 64 + first ≤ 0x7F := by omega
  have hshort : bits * 64 + first ≤ 0x7FF := by omega
  have hbits : (bits * 64 + first) / 64 % 0x20 + 0xC0 = 0xC0 + bits := by omega
  have hlast : (bits * 64 + first) % 0x40 + 0x80 = 0x80 + first := by omega
  simp only [String.utf8EncodeChar, hchar, if_neg hlong, if_pos hshort, hbits,
    hlast]

/-- The bounds of the second byte leave out the overlong forms and the
surrogates. -/
theorem encode_three (hbits : bits < 16) (hfirst : first < 64)
    (hsecond : second < 64) (hlow : (pendingThree bits).low ≤ 0x80 + first)
    (hhigh : 0x80 + first ≤ (pendingThree bits).high) :
    String.utf8EncodeChar (Char.ofNat ((bits * 64 + first) * 64 + second)) =
      [UInt8.ofNat (0xE0 + bits), UInt8.ofNat (0x80 + first),
        UInt8.ofNat (0x80 + second)] := by
  obtain ⟨value, hvalue⟩ : ∃ value, value = (bits * 64 + first) * 64 + second :=
    ⟨_, rfl⟩
  have hleast : 0x800 ≤ value := by
    simp only [pendingThree] at hlow
    split at hlow <;> omega
  have hvalid : value < 0xD800 ∨ 0xDFFF < value ∧ value < 0x110000 := by
    simp only [pendingThree] at hhigh
    split at hhigh <;> omega
  have hlong : ¬value ≤ 0x7FF := by omega
  have hlonger : ¬value ≤ 0x7F := by omega
  have hshort : value ≤ 0xFFFF := by omega
  have hlead : value / 4096 % 0x10 + 0xE0 = 0xE0 + bits := by omega
  have hnext : value / 64 % 0x40 + 0x80 = 0x80 + first := by omega
  have hlast : value % 0x40 + 0x80 = 0x80 + second := by omega
  rw [← hvalue]
  simp only [String.utf8EncodeChar, val_ofNat hvalid, if_neg hlonger,
    if_neg hlong, if_pos hshort, hlead, hnext, hlast]

theorem encode_four (hbits : bits ≤ 4) (hfirst : first < 64)
    (hsecond : second < 64) (hthird : third < 64)
    (hlow : (pendingFour bits).low ≤ 0x80 + first)
    (hhigh : 0x80 + first ≤ (pendingFour bits).high) :
    String.utf8EncodeChar
        (Char.ofNat (((bits * 64 + first) * 64 + second) * 64 + third)) =
      [UInt8.ofNat (0xF0 + bits), UInt8.ofNat (0x80 + first),
        UInt8.ofNat (0x80 + second), UInt8.ofNat (0x80 + third)] := by
  obtain ⟨value, hvalue⟩ :
      ∃ value, value = ((bits * 64 + first) * 64 + second) * 64 + third :=
    ⟨_, rfl⟩
  have hleast : 0x10000 ≤ value := by
    simp only [pendingFour] at hlow
    split at hlow <;> omega
  have hgreatest : value < 0x110000 := by
    simp only [pendingFour] at hhigh
    split at hhigh <;> omega
  have hlong : ¬value ≤ 0xFFFF := by omega
  have hlonger : ¬value ≤ 0x7FF := by omega
  have hlongest : ¬value ≤ 0x7F := by omega
  have hlead : value / 262144 % 0x08 + 0xF0 = 0xF0 + bits := by omega
  have hsecondByte : value / 4096 % 0x40 + 0x80 = 0x80 + first := by omega
  have hnext : value / 64 % 0x40 + 0x80 = 0x80 + second := by omega
  have hlast : value % 0x40 + 0x80 = 0x80 + third := by omega
  rw [← hvalue]
  simp only [String.utf8EncodeChar, val_ofNat (Or.inr ⟨by omega, hgreatest⟩),
    if_neg hlongest, if_neg hlonger, if_neg hlong, hlead, hsecondByte, hnext,
    hlast]

theorem continuation_bounds (value : ℕ) (hvalue : value < 64) :
    0x80 ≤ 0x80 + value ∧ 0x80 + value ≤ 0xBF := by
  omega

/-- The bytes of one character are read as this character. -/
theorem decode_encodeChar (char : Char) (rest : List UInt8) :
    utf8Decode none (String.utf8EncodeChar char ++ rest) =
      some char :: utf8Decode none rest := by
  have hvalid : char.toNat < 0xD800 ∨
      0xDFFF < char.toNat ∧ char.toNat < 0x110000 := char.valid
  obtain ⟨value, hvalue⟩ : ∃ value, value = char.toNat := ⟨_, rfl⟩
  have hchar : char = Char.ofNat value := by
    rw [hvalue, Char.ofNat_toNat]
  rw [← hvalue] at hvalid
  rw [hchar]
  have hlast := continuation_bounds (value % 64) (by omega)
  have hthird := continuation_bounds (value / 64 % 64) (by omega)
  by_cases hascii : value < 0x80
  · have hbyte : (UInt8.ofNat value).toNat = value :=
      toNat_ofNat_byte (by omega)
    rw [encode_ascii hascii, List.singleton_append,
      decode_ascii (by rw [hbyte]; exact hascii), hbyte]
  · by_cases htwo : value < 0x800
    · have hsplit : value = value / 64 * 64 + value % 64 := by omega
      rw [hsplit, encode_two (by omega) (by omega) (by omega), List.cons_append,
        List.singleton_append,
        decode_lead (by omega) (toNat_ofNat_byte (by omega))
          (leadByte_two (by omega) (by omega))]
      exact decode_last rfl (toNat_ofNat_byte (by omega)) hlast.1 hlast.2
    · by_cases hthree : value < 0x10000
      · have hsplit : value =
            (value / 4096 * 64 + value / 64 % 64) * 64 + value % 64 := by
          omega
        have hlow : (pendingThree (value / 4096)).low ≤
            0x80 + value / 64 % 64 := by
          simp only [pendingThree]
          split <;> omega
        have hhigh : 0x80 + value / 64 % 64 ≤
            (pendingThree (value / 4096)).high := by
          simp only [pendingThree]
          split <;> omega
        rw [hsplit, encode_three (by omega) (by omega) (by omega) hlow hhigh,
          List.cons_append, List.cons_append, List.singleton_append,
          decode_lead (by omega) (toNat_ofNat_byte (by omega))
            (leadByte_three (by omega)),
          decode_further rfl (toNat_ofNat_byte (by omega)) hlow hhigh]
        exact decode_last rfl (toNat_ofNat_byte (by omega)) hlast.1 hlast.2
      · have hsplit : value = ((value / 262144 * 64 + value / 4096 % 64) * 64 +
            value / 64 % 64) * 64 + value % 64 := by
          omega
        have hlow : (pendingFour (value / 262144)).low ≤
            0x80 + value / 4096 % 64 := by
          simp only [pendingFour]
          split <;> omega
        have hhigh : 0x80 + value / 4096 % 64 ≤
            (pendingFour (value / 262144)).high := by
          simp only [pendingFour]
          split <;> omega
        rw [hsplit, encode_four (by omega) (by omega) (by omega) (by omega) hlow
          hhigh, List.cons_append, List.cons_append, List.cons_append,
          List.singleton_append,
          decode_lead (by omega) (toNat_ofNat_byte (by omega))
            (leadByte_four (by omega)),
          decode_further rfl (toNat_ofNat_byte (by omega)) hlow hhigh,
          decode_further rfl (toNat_ofNat_byte (by omega)) hthird.1 hthird.2]
        exact decode_last rfl (toNat_ofNat_byte (by omega)) hlast.1 hlast.2

theorem byte_eq {byte : UInt8} (hbyte : byte.toNat = value) :
    byte = UInt8.ofNat value := by
  rw [← hbyte, UInt8.ofNat_toNat]

end Encoding

/-! ## The bytes of a text without errors -/

section Reading

variable {bits : ℕ} {byte : UInt8} {bytes : List UInt8} {char : Char}
  {text : Text}

theorem decode_two (hlow : 2 ≤ bits) (hhigh : bits < 32)
    (hbyte : byte.toNat = 0xC0 + bits)
    (hdecoded : utf8Decode (some (pendingTwo bits)) bytes =
      (char :: text).map some) :
    ∃ rest, byte :: bytes = String.utf8EncodeChar char ++ rest ∧
      utf8Decode none rest = text.map some := by
  obtain ⟨last, rest, first, rfl, hlast, hleast, hgreatest⟩ :=
    decode_pending le_rfl hdecoded
  rw [decode_last rfl hlast hleast hgreatest] at hdecoded
  obtain ⟨hhead, hrest⟩ := List.cons.inj hdecoded
  have hchar : Char.ofNat (bits * 64 + first) = char := Option.some.inj hhead
  have hfirst : first < 64 := by
    change 0x80 + first ≤ 0xBF at hgreatest
    omega
  have hencoded := encode_two hlow hhigh hfirst
  rw [hchar, ← byte_eq hbyte, ← byte_eq hlast] at hencoded
  refine ⟨rest, ?_, hrest⟩
  rw [hencoded]
  rfl

theorem decode_three (hbits : bits < 16) (hbyte : byte.toNat = 0xE0 + bits)
    (hdecoded : utf8Decode (some (pendingThree bits)) bytes =
      (char :: text).map some) :
    ∃ rest, byte :: bytes = String.utf8EncodeChar char ++ rest ∧
      utf8Decode none rest = text.map some := by
  have hbounds := pendingThree_bounds bits
  obtain ⟨next, bytes, first, rfl, hnext, hlow, hhigh⟩ :=
    decode_pending hbounds.1 hdecoded
  have hfirst : first < 64 := by omega
  rw [decode_further rfl hnext hlow hhigh] at hdecoded
  obtain ⟨last, rest, second, rfl, hlast, hleast, hgreatest⟩ :=
    decode_pending le_rfl hdecoded
  rw [decode_last rfl hlast hleast hgreatest] at hdecoded
  obtain ⟨hhead, hrest⟩ := List.cons.inj hdecoded
  have hchar : Char.ofNat ((bits * 64 + first) * 64 + second) = char :=
    Option.some.inj hhead
  have hsecond : second < 64 := by
    change 0x80 + second ≤ 0xBF at hgreatest
    omega
  have hencoded := encode_three hbits hfirst hsecond hlow hhigh
  rw [hchar, ← byte_eq hbyte, ← byte_eq hnext, ← byte_eq hlast] at hencoded
  refine ⟨rest, ?_, hrest⟩
  rw [hencoded]
  rfl

theorem decode_four (hbits : bits ≤ 4) (hbyte : byte.toNat = 0xF0 + bits)
    (hdecoded : utf8Decode (some (pendingFour bits)) bytes =
      (char :: text).map some) :
    ∃ rest, byte :: bytes = String.utf8EncodeChar char ++ rest ∧
      utf8Decode none rest = text.map some := by
  have hbounds := pendingFour_bounds bits
  obtain ⟨next, bytes, first, rfl, hnext, hlow, hhigh⟩ :=
    decode_pending hbounds.1 hdecoded
  have hfirst : first < 64 := by omega
  rw [decode_further rfl hnext hlow hhigh] at hdecoded
  obtain ⟨third, bytes, second, rfl, hthird, hleast, hgreatest⟩ :=
    decode_pending le_rfl hdecoded
  have hsecond : second < 64 := by
    change 0x80 + second ≤ 0xBF at hgreatest
    omega
  rw [decode_further rfl hthird hleast hgreatest] at hdecoded
  obtain ⟨last, rest, third, rfl, hlast, hleast', hgreatest'⟩ :=
    decode_pending le_rfl hdecoded
  rw [decode_last rfl hlast hleast' hgreatest'] at hdecoded
  obtain ⟨hhead, hrest⟩ := List.cons.inj hdecoded
  have hchar :
      Char.ofNat (((bits * 64 + first) * 64 + second) * 64 + third) = char :=
    Option.some.inj hhead
  have hthirdBits : third < 64 := by
    change 0x80 + third ≤ 0xBF at hgreatest'
    omega
  have hencoded := encode_four hbits hfirst hsecond hthirdBits hlow hhigh
  rw [hchar, ← byte_eq hbyte, ← byte_eq hnext, ← byte_eq hthird,
    ← byte_eq hlast] at hencoded
  refine ⟨rest, ?_, hrest⟩
  rw [hencoded]
  rfl

/-- Who reads no error and at least one character has read its bytes. -/
theorem decode_cons
    (hdecoded : utf8Decode none bytes = (char :: text).map some) :
    ∃ rest, bytes = String.utf8EncodeChar char ++ rest ∧
      utf8Decode none rest = text.map some := by
  cases bytes with
  | nil =>
      rw [utf8Decode] at hdecoded
      cases hdecoded
  | cons byte rest =>
      by_cases hascii : byte.toNat < 0x80
      · rw [decode_ascii hascii] at hdecoded
        obtain ⟨hhead, hrest⟩ := List.cons.inj hdecoded
        have hencoded := encode_ascii hascii
        rw [Option.some.inj hhead, UInt8.ofNat_toNat] at hencoded
        refine ⟨rest, ?_, hrest⟩
        rw [hencoded]
        rfl
      · cases hlead : leadByte byte.toNat with
        | none =>
            rw [utf8Decode] at hdecoded
            simp only [decodeByte, startChar, if_neg hascii, hlead] at hdecoded
            cases hdecoded
        | some pending =>
            rw [decode_lead (by omega) rfl hlead] at hdecoded
            rcases leadByte_cases hlead with
              ⟨bits, hlow, hhigh, hbyte, rfl⟩ | ⟨bits, hbits, hbyte, rfl⟩ |
              ⟨bits, hbits, hbyte, rfl⟩
            · exact decode_two hlow hhigh hbyte hdecoded
            · exact decode_three hbits hbyte hdecoded
            · exact decode_four hbits hbyte hdecoded

theorem decode_pending_ne_nil (pending : PendingChar) (bytes : List UInt8) :
    utf8Decode (some pending) bytes ≠ [] := by
  induction bytes generalizing pending with
  | nil =>
      rw [utf8Decode]
      exact List.cons_ne_nil _ _
  | cons byte rest ih =>
      rw [utf8Decode, decodeByte]
      split
      · cases pending.further with
        | zero => exact List.cons_ne_nil _ _
        | succ further => exact ih _
      · exact List.cons_ne_nil _ _

theorem decode_nil (hdecoded : utf8Decode none bytes = []) : bytes = [] := by
  cases bytes with
  | nil => rfl
  | cons byte rest =>
      exfalso
      by_cases hascii : byte.toNat < 0x80
      · rw [decode_ascii hascii] at hdecoded
        cases hdecoded
      · cases hlead : leadByte byte.toNat with
        | none =>
            rw [utf8Decode] at hdecoded
            simp only [decodeByte, startChar, if_neg hascii, hlead] at hdecoded
            cases hdecoded
        | some pending =>
            rw [decode_lead (by omega) rfl hlead] at hdecoded
            exact decode_pending_ne_nil pending rest hdecoded

/-- What is read without errors is encoded as the bytes which were read. -/
theorem utf8Encode_of_decode
    (hdecoded : utf8Decode none bytes = text.map some) :
    utf8Encode text = bytes := by
  induction text generalizing bytes with
  | nil => exact (decode_nil hdecoded).symm
  | cons char text ih =>
      obtain ⟨rest, rfl, hrest⟩ := decode_cons hdecoded
      rw [utf8Encode, List.flatMap_cons, ← utf8Encode, ih hrest]

theorem decode_utf8Encode (text : Text) :
    utf8Decode none (utf8Encode text) = text.map some := by
  induction text with
  | nil => rfl
  | cons char text ih =>
      rw [utf8Encode, List.flatMap_cons, ← utf8Encode, decode_encodeChar, ih,
        List.map_cons]

end Reading

/-! ## Normalised bodies -/

section Bodies

variable {raw : List UInt8} {text : Text}

theorem eq_map_some {decoded : List (Option Char)}
    (hread : none ∉ decoded) :
    decoded = (decoded.map fun char => char.getD replacementChar).map some := by
  induction decoded with
  | nil => rfl
  | cons char decoded ih =>
      obtain ⟨hhead, htail⟩ := List.ne_and_not_mem_of_not_mem_cons hread
      cases char with
      | none => exact absurd rfl hhead
      | some char =>
          rw [List.map_cons, List.map_cons, ← ih htail]
          rfl

/-- A text without a NUL is what its own encoding is normalised to. -/
theorem normalizeBody_utf8Encode (hnul : nul ∉ text) :
    normalizeBody (utf8Encode text) = (text, false) := by
  have hchars : (text.map some).map (fun char : Option Char =>
      char.getD replacementChar) = text := by
    rw [List.map_map]
    exact List.map_id _
  have hkept : text.filter (· ≠ nul) = text := by
    rw [List.filter_eq_self]
    intro char hchar
    have hne : char ≠ nul := fun heq => hnul (heq ▸ hchar)
    simpa using hne
  have hread : (text.map some).contains none = false := by
    simp
  have hwithout : text.contains nul = false := by
    simpa using hnul
  simp only [normalizeBody, decode_utf8Encode, hchars, hkept, hread, hwithout]
  rfl

/-- The mark of a normalised body. -/
theorem normalizeBody_unmarked :
    (normalizeBody raw).2 = false ↔ utf8Encode (normalizeBody raw).1 = raw := by
  constructor
  · intro hmark
    have hparts : (utf8Decode none raw).contains none = false ∧
        ((utf8Decode none raw).map fun char =>
          char.getD replacementChar).contains nul = false :=
      Bool.or_eq_false_iff.mp hmark
    have hread : none ∉ utf8Decode none raw := by
      simpa using hparts.1
    have hnul : nul ∉ (utf8Decode none raw).map fun char =>
        char.getD replacementChar := by
      intro hmem
      have hcontains := List.contains_iff_mem.mpr hmem
      rw [hparts.2] at hcontains
      cases hcontains
    have htext : (normalizeBody raw).1 =
        (utf8Decode none raw).map fun char => char.getD replacementChar := by
      rw [normalizeBody]
      apply List.filter_eq_self.mpr
      intro char hchar
      have hne : char ≠ nul := fun heq => hnul (heq ▸ hchar)
      simpa using hne
    rw [htext]
    exact utf8Encode_of_decode (eq_map_some hread)
  · intro hencoded
    have hagain := normalizeBody_utf8Encode (nul_notMem_normalizeBody raw)
    rw [hencoded] at hagain
    exact congrArg Prod.snd hagain

end Bodies

/-! ## The endpoint of the content -/

structure StreamingResponse where
  mediaType : Text
  contentLength : Text
  chunks : List (List UInt8)
  deriving DecidableEq

/-- The length and the blocks which are sent. -/
def contentSource {Id Error : Type} (notification : Dashboard.Notification Id)
    (streamObject : Except Error (ℕ × List (List UInt8))) :
    Except Error (ℕ × List (List UInt8)) :=
  match notification.storageBackend with
  | .inline =>
      let body := utf8Encode (notification.content.getD [])
      .ok (body.length, [body])
  | .object => streamObject

/-- `get_notification_content`, with what `_get_notification_or_404` and
`stream_object` return. -/
def getNotificationContent {Id Error : Type}
    (found : Except Error (Dashboard.Notification Id))
    (streamObject : Except Error (ℕ × List (List UInt8))) :
    Except Error StreamingResponse := do
  let notification ← found
  let (length, chunks) ← contentSource notification streamObject
  return {
    mediaType := "text/plain".toList
    contentLength := Formatter.natText length
    chunks }

/-- The mark of a body says whether the body can be read back, what is stored is
stable, and an inline content is sent with its length. -/
theorem content_kept (raw : List UInt8) :
    ((normalizeBody raw).2 = false ↔
      utf8Encode (normalizeBody raw).1 = raw) ∧
    nul ∉ (normalizeBody raw).1 ∧
    normalizeBody (utf8Encode (normalizeBody raw).1) =
      ((normalizeBody raw).1, false) ∧
    ∀ {Id Error : Type} (notification : Dashboard.Notification Id)
      (streamObject : Except Error (ℕ × List (List UInt8))),
      notification.storageBackend = .inline →
      ∃ response,
        getNotificationContent (.ok notification) streamObject = .ok response ∧
        response.contentLength =
          Formatter.natText response.chunks.flatten.length := by
  have hnul := nul_notMem_normalizeBody raw
  refine ⟨normalizeBody_unmarked, hnul, normalizeBody_utf8Encode hnul, ?_⟩
  intro Id Error notification streamObject hinline
  have hresponse : getNotificationContent (.ok notification) streamObject =
      .ok ⟨"text/plain".toList,
        Formatter.natText (utf8Encode (notification.content.getD [])).length,
        [utf8Encode (notification.content.getD [])]⟩ := by
    have hsource : contentSource notification streamObject =
        .ok ((utf8Encode (notification.content.getD [])).length,
          [utf8Encode (notification.content.getD [])]) := by
      rw [contentSource, hinline]
    rw [getNotificationContent]
    change (contentSource notification streamObject).bind _ = _
    rw [hsource]
    rfl
  refine ⟨_, hresponse, ?_⟩
  simp

/-- A body with a NUL and a character which is cut off, as it is stored. -/
def replacedContent : Dashboard.Notification ℕ where
  tenantId := 1
  receiverId := 2
  storageBackend := .inline
  content := some (normalizeBody [0x61, 0, 0xE2, 0x82]).1
  contentPreview := (normalizeBody [0x61, 0, 0xE2, 0x82]).1
  contentSize := 4
  contentNormalized := (normalizeBody [0x61, 0, 0xE2, 0x82]).2
  severity := .info
  severitySource := .receiverDefault
  phase := none
  durationMs := none
  exitCode := none
  status := .unread
  verified := false
  readBy := none
  readAt := none
  verifiedBy := none
  verifiedAt := none
  receivedAt := 0

/-- Four bytes have become a letter and a character of three bytes. -/
theorem content_kept_replaced :
    normalizeBody [0x61, 0, 0xE2, 0x82] = ("a\uFFFD".toList, true) ∧
    ∃ response, getNotificationContent (.ok replacedContent)
        (.error "no object") = .ok response ∧
      response.contentLength =
        Formatter.natText response.chunks.flatten.length := by
  refine ⟨by decide +kernel, ?_⟩
  exact (content_kept [0x61, 0, 0xE2, 0x82]).2.2.2 replacedContent _ rfl

end NotifyHub.Ingestion
