import WebSocket.Text.Utf8

/-!
# What lossy decoding gives

Decoding splits bytes into encoded characters, which it keeps, and invalid parts, of which each
is the longest there is and becomes one replacement character (`Utf8.Mends`). Every byte string
is split in this way, and in no other (`Utf8.decodeChars_eq_iff`), so that the encoding of a text
decodes to the text (`Utf8.decodeLossy_ofString`).

The table of leading bytes stands for the encodings of all characters: bytes that continue a
leading byte as the table asks are the encoding of the character whose number they make up
(`Utf8.exists_encode_eq`), and every encoding is of this form (`Utf8.exists_lead?_of_encode`).
-/

namespace WebSocket

namespace Text.Utf8

/-- These bytes continue a character: there are `count` of them, the first from `low` to `high`.
They take the value so far to the number of the character. -/
inductive Continues : (count : Nat) → (low high : UInt8) → (value : Nat) → Bytes →
    (number : Nat) → Prop where
  | done (low high : UInt8) (value : Nat) : Continues 0 low high value [] value
  | byte {count : Nat} {low high byte : UInt8} {value number : Nat} {tail : Bytes}
      (within : low ≤ byte ∧ byte ≤ high)
      (further : Continues count 0x80 0xBF (value * 64 + (byte.toNat - 0x80)) tail number) :
    Continues (count + 1) low high value (byte :: tail) number

variable {count value number n : Nat} {low high byte : UInt8} {bytes front rest tail : Bytes}
  {lead : Lead} {c : Char}

theorem continues_zero_iff :
    Continues 0 low high value tail number ↔ tail = [] ∧ number = value := by
  constructor
  · rintro ⟨⟩
    exact ⟨rfl, rfl⟩
  · rintro ⟨rfl, rfl⟩
    exact .done ..

theorem continues_succ_iff :
    Continues (count + 1) low high value tail number ↔
      ∃ byte behind, tail = byte :: behind ∧ (low ≤ byte ∧ byte ≤ high) ∧
        Continues count 0x80 0xBF (value * 64 + (byte.toNat - 0x80)) behind number := by
  constructor
  · rintro ⟨⟩
    exact ⟨_, _, rfl, ‹_›, ‹_›⟩
  · rintro ⟨byte, behind, rfl, within, further⟩
    exact .byte within further

/-! ## The table of leading bytes -/

theorem lead?_eq_some_iff :
    lead? byte = some lead ↔
      byte.toNat < 0x80 ∧ lead = ⟨0, 0x80, 0xBF, byte.toNat⟩ ∨
      0xC2 ≤ byte.toNat ∧ byte.toNat < 0xE0 ∧ lead = ⟨1, 0x80, 0xBF, byte.toNat - 0xC0⟩ ∨
      0xE0 ≤ byte.toNat ∧ byte.toNat < 0xF0 ∧
        lead = ⟨2, if byte.toNat = 0xE0 then 0xA0 else 0x80,
          if byte.toNat = 0xED then 0x9F else 0xBF, byte.toNat - 0xE0⟩ ∨
      0xF0 ≤ byte.toNat ∧ byte.toNat < 0xF5 ∧
        lead = ⟨3, if byte.toNat = 0xF0 then 0x90 else 0x80,
          if byte.toNat = 0xF4 then 0x8F else 0xBF, byte.toNat - 0xF0⟩ := by
  simp only [lead?, UInt8.lt_iff_toNat_lt, ← UInt8.toNat_inj, UInt8.reduceToNat]
  repeat' split
  all_goals
    simp only [Option.some.injEq, reduceCtorEq]
    grind

/-! ## Numbers and their encodings -/

/-- The number of a character is no surrogate's. -/
theorem isScalar (c : Char) : c.toNat < 0xD800 ∨ 0xDFFF < c.toNat ∧ c.toNat < 0x110000 := c.valid

theorem exists_char (number : Nat) (fit : number < 0xD800 ∨ 0xDFFF < number ∧ number < 0x110000) :
    ∃ c : Char, c.toNat = number := by
  refine ⟨Char.ofNat number, ?_⟩
  rw [Char.ofNat, dif_pos fit]
  rfl

theorem encode_of_lt (short : c.toNat < 0x80) :
    String.utf8EncodeChar c = [UInt8.ofNat c.toNat] := by
  have value : c.val.toNat = c.toNat := rfl
  simp only [String.utf8EncodeChar, value]
  rw [if_pos (by omega)]

theorem encode_of_two (long : 0x80 ≤ c.toNat) (short : c.toNat < 0x800) :
    String.utf8EncodeChar c =
      [UInt8.ofNat (c.toNat / 64 + 0xC0), UInt8.ofNat (c.toNat % 64 + 0x80)] := by
  have value : c.val.toNat = c.toNat := rfl
  have bits : c.toNat / 64 % 32 = c.toNat / 64 := by omega
  simp only [String.utf8EncodeChar, value, bits]
  rw [if_neg (by omega), if_pos (by omega)]

theorem encode_of_three (long : 0x800 ≤ c.toNat) (short : c.toNat < 0x10000) :
    String.utf8EncodeChar c =
      [UInt8.ofNat (c.toNat / 4096 + 0xE0), UInt8.ofNat (c.toNat / 64 % 64 + 0x80),
        UInt8.ofNat (c.toNat % 64 + 0x80)] := by
  have value : c.val.toNat = c.toNat := rfl
  have bits : c.toNat / 4096 % 16 = c.toNat / 4096 := by omega
  simp only [String.utf8EncodeChar, value, bits]
  rw [if_neg (by omega), if_neg (by omega), if_pos (by omega)]

theorem encode_of_four (long : 0x10000 ≤ c.toNat) :
    String.utf8EncodeChar c =
      [UInt8.ofNat (c.toNat / 262144 + 0xF0), UInt8.ofNat (c.toNat / 4096 % 64 + 0x80),
        UInt8.ofNat (c.toNat / 64 % 64 + 0x80), UInt8.ofNat (c.toNat % 64 + 0x80)] := by
  have value : c.val.toNat = c.toNat := rfl
  have scalar := isScalar c
  have bits : c.toNat / 262144 % 8 = c.toNat / 262144 := by omega
  simp only [String.utf8EncodeChar, value, bits]
  rw [if_neg (by omega), if_neg (by omega), if_neg (by omega)]

theorem toNat_ofNat (small : n < 256) : (UInt8.ofNat n).toNat = n := by
  rw [UInt8.toNat_ofNat', Nat.mod_eq_of_lt small]

theorem ofNat_eq (same : n = byte.toNat) : UInt8.ofNat n = byte := by
  rw [same, UInt8.ofNat_toNat]

/-- A byte that holds six bits of the number. -/
theorem Continues.six (small : n < 64) (least : low.toNat ≤ n + 0x80)
    (greatest : n + 0x80 ≤ high.toNat)
    (further : Continues count 0x80 0xBF (value * 64 + n) tail number) :
    Continues (count + 1) low high value (UInt8.ofNat (n + 0x80) :: tail) number := by
  have bits : (UInt8.ofNat (n + 0x80)).toNat = n + 0x80 := toNat_ofNat (by omega)
  refine .byte ⟨?_, ?_⟩ ?_
  · rwa [UInt8.le_iff_toNat_le, bits]
  · rwa [UInt8.le_iff_toNat_le, bits]
  · rwa [bits, Nat.add_sub_cancel]

/-- A byte behind the first that follows. -/
theorem Continues.later (small : n < 64)
    (further : Continues count 0x80 0xBF (value * 64 + n) tail number) :
    Continues (count + 1) 0x80 0xBF value (UInt8.ofNat (n + 0x80) :: tail) number :=
  .six small (Nat.le_add_left ..) (Nat.add_le_add_right (Nat.le_of_lt_succ small) _) further

theorem Continues.last (same : number = value) : Continues 0 low high value [] number :=
  same ▸ .done ..

/-- Every encoding is a leading byte and bytes that continue it. -/
theorem exists_lead?_of_encode (encoded : String.utf8EncodeChar c = byte :: tail) :
    ∃ lead, lead? byte = some lead ∧
      Continues lead.following lead.low lead.high lead.bits tail c.toNat := by
  have scalar := isScalar c
  rcases Nat.lt_or_ge c.toNat 0x80 with short | long
  · rw [encode_of_lt short] at encoded
    cases encoded
    have first : (UInt8.ofNat c.toNat).toNat = c.toNat := toNat_ofNat (by omega)
    exact ⟨_, lead?_eq_some_iff.mpr (.inl ⟨by omega, rfl⟩), .last first.symm⟩
  rcases Nat.lt_or_ge c.toNat 0x800 with short | long
  · rw [encode_of_two long short] at encoded
    cases encoded
    have first : (UInt8.ofNat (c.toNat / 64 + 0xC0)).toNat = c.toNat / 64 + 0xC0 :=
      toNat_ofNat (by omega)
    refine ⟨_, lead?_eq_some_iff.mpr (.inr (.inl ⟨by omega, by omega, rfl⟩)), ?_⟩
    dsimp only
    exact .later (by omega) (.last (by omega))
  rcases Nat.lt_or_ge c.toNat 0x10000 with short | long
  · rw [encode_of_three long short] at encoded
    cases encoded
    have first : (UInt8.ofNat (c.toNat / 4096 + 0xE0)).toNat = c.toNat / 4096 + 0xE0 :=
      toNat_ofNat (by omega)
    refine ⟨_, lead?_eq_some_iff.mpr (.inr (.inr (.inl ⟨by omega, by omega, rfl⟩))), ?_⟩
    simp only [first]
    -- The bounds of the second byte keep out longer spellings and surrogates.
    refine .six (by omega) ?_ ?_ (.later (by omega) (.last (by omega)))
    · split <;> simp only [UInt8.reduceToNat] <;> omega
    · split <;> simp only [UInt8.reduceToNat] <;> omega
  · rw [encode_of_four long] at encoded
    cases encoded
    have first : (UInt8.ofNat (c.toNat / 262144 + 0xF0)).toNat = c.toNat / 262144 + 0xF0 :=
      toNat_ofNat (by omega)
    refine ⟨_, lead?_eq_some_iff.mpr (.inr (.inr (.inr ⟨by omega, by omega, rfl⟩))), ?_⟩
    simp only [first]
    refine .six (by omega) ?_ ?_ (.later (by omega) (.later (by omega) (.last (by omega))))
    · split <;> simp only [UInt8.reduceToNat] <;> omega
    · split <;> simp only [UInt8.reduceToNat] <;> omega

/-- Bytes that continue a leading byte are an encoding with it. -/
theorem exists_encode_eq (leads : lead? byte = some lead)
    (continues : Continues lead.following lead.low lead.high lead.bits tail number) :
    ∃ c : Char, c.toNat = number ∧ String.utf8EncodeChar c = byte :: tail := by
  rcases lead?_eq_some_iff.mp leads with
    ⟨short, rfl⟩ | ⟨long, short, rfl⟩ | ⟨long, short, rfl⟩ | ⟨long, short, rfl⟩
  · obtain ⟨rfl, same⟩ := continues_zero_iff.mp continues
    dsimp only at same
    obtain ⟨c, rfl⟩ := exists_char number (by omega)
    refine ⟨c, rfl, ?_⟩
    rw [encode_of_lt (by omega), ofNat_eq same]
  · obtain ⟨a, tail, rfl, within, continues⟩ := continues_succ_iff.mp continues
    obtain ⟨rfl, same⟩ := continues_zero_iff.mp continues
    simp only [UInt8.le_iff_toNat_le, UInt8.reduceToNat] at within same
    obtain ⟨c, rfl⟩ := exists_char number (by omega)
    refine ⟨c, rfl, ?_⟩
    have first : UInt8.ofNat (c.toNat / 64 + 0xC0) = byte := ofNat_eq (by omega)
    have second : UInt8.ofNat (c.toNat % 64 + 0x80) = a := ofNat_eq (by omega)
    rw [encode_of_two (by omega) (by omega), first, second]
  · obtain ⟨a, tail, rfl, bounds, continues⟩ := continues_succ_iff.mp continues
    obtain ⟨b, tail, rfl, within, continues⟩ := continues_succ_iff.mp continues
    obtain ⟨rfl, same⟩ := continues_zero_iff.mp continues
    simp only [UInt8.le_iff_toNat_le, UInt8.reduceToNat] at bounds within same
    have least : 0x80 ≤ a.toNat ∧ (byte.toNat = 0xE0 → 0xA0 ≤ a.toNat) := by
      have below := bounds.1
      split at below <;> simp only [UInt8.reduceToNat] at below <;> omega
    have greatest : a.toNat ≤ 0xBF ∧ (byte.toNat = 0xED → a.toNat ≤ 0x9F) := by
      have above := bounds.2
      split at above <;> simp only [UInt8.reduceToNat] at above <;> omega
    obtain ⟨c, rfl⟩ := exists_char number (by omega)
    refine ⟨c, rfl, ?_⟩
    have first : UInt8.ofNat (c.toNat / 4096 + 0xE0) = byte := ofNat_eq (by omega)
    have second : UInt8.ofNat (c.toNat / 64 % 64 + 0x80) = a := ofNat_eq (by omega)
    have third : UInt8.ofNat (c.toNat % 64 + 0x80) = b := ofNat_eq (by omega)
    rw [encode_of_three (by omega) (by omega), first, second, third]
  · obtain ⟨a, tail, rfl, bounds, continues⟩ := continues_succ_iff.mp continues
    obtain ⟨b, tail, rfl, within, continues⟩ := continues_succ_iff.mp continues
    obtain ⟨d, tail, rfl, within', continues⟩ := continues_succ_iff.mp continues
    obtain ⟨rfl, same⟩ := continues_zero_iff.mp continues
    simp only [UInt8.le_iff_toNat_le, UInt8.reduceToNat] at bounds within within' same
    have least : 0x80 ≤ a.toNat ∧ (byte.toNat = 0xF0 → 0x90 ≤ a.toNat) := by
      have below := bounds.1
      split at below <;> simp only [UInt8.reduceToNat] at below <;> omega
    have greatest : a.toNat ≤ 0xBF ∧ (byte.toNat = 0xF4 → a.toNat ≤ 0x8F) := by
      have above := bounds.2
      split at above <;> simp only [UInt8.reduceToNat] at above <;> omega
    obtain ⟨c, rfl⟩ := exists_char number (by omega)
    refine ⟨c, rfl, ?_⟩
    have first : UInt8.ofNat (c.toNat / 262144 + 0xF0) = byte := ofNat_eq (by omega)
    have second : UInt8.ofNat (c.toNat / 4096 % 64 + 0x80) = a := ofNat_eq (by omega)
    have third : UInt8.ofNat (c.toNat / 64 % 64 + 0x80) = b := ofNat_eq (by omega)
    have fourth : UInt8.ofNat (c.toNat % 64 + 0x80) = d := ofNat_eq (by omega)
    rw [encode_of_four (by omega), first, second, third, fourth]

/-! ## Taking one character -/

theorem low_le_high (leads : lead? byte = some lead) : lead.low ≤ lead.high := by
  rw [UInt8.le_iff_toNat_le]
  rcases lead?_eq_some_iff.mp leads with
    ⟨short, rfl⟩ | ⟨long, short, rfl⟩ | ⟨long, short, rfl⟩ | ⟨long, short, rfl⟩
  · exact Nat.le_add_right 0x80 0x3F
  · exact Nat.le_add_right 0x80 0x3F
  · dsimp only
    split <;> split <;> simp only [UInt8.reduceToNat] <;> omega
  · dsimp only
    split <;> split <;> simp only [UInt8.reduceToNat] <;> omega

/-- What has begun can be continued to a character. -/
theorem exists_continues (count value : Nat) (ordered : low ≤ high) :
    ∃ tail number, Continues count low high value tail number := by
  induction count generalizing low high value with
  | zero => exact ⟨[], value, .done ..⟩
  | succ count ih =>
    have anything : (0x80 : UInt8) ≤ 0xBF := by decide
    obtain ⟨tail, number, further⟩ := ih (value * 64 + (low.toNat - 0x80)) anything
    exact ⟨low :: tail, number, .byte ⟨UInt8.le_refl low, ordered⟩ further⟩

theorem follow_eq_some_iff :
    follow count low high value bytes = (some number, rest) ↔
      ∃ tail, bytes = tail ++ rest ∧ Continues count low high value tail number := by
  fun_induction follow count low high value bytes with
  | case1 low high value bytes =>
    simp only [continues_zero_iff, Prod.mk.injEq, Option.some.injEq]
    constructor
    · rintro ⟨rfl, rfl⟩
      exact ⟨[], rfl, rfl, rfl⟩
    · rintro ⟨tail, rfl, rfl, rfl⟩
      exact ⟨rfl, rfl⟩
  | case2 => simp [continues_succ_iff]
  | case3 count low high value byte bytes within ih =>
    rw [ih]
    constructor
    · rintro ⟨tail, rfl, further⟩
      exact ⟨byte :: tail, rfl, .byte within further⟩
    · rintro ⟨tail, split, continues⟩
      obtain ⟨next, behind, rfl, -, further⟩ := continues_succ_iff.mp continues
      obtain ⟨rfl, rfl⟩ := List.cons.inj split
      exact ⟨behind, rfl, further⟩
  | case4 count low high value byte bytes beyond =>
    simp only [Prod.mk.injEq, reduceCtorEq, false_and, false_iff]
    rintro ⟨tail, split, continues⟩
    obtain ⟨next, behind, rfl, within, -⟩ := continues_succ_iff.mp continues
    obtain ⟨rfl, -⟩ := List.cons.inj split
    exact beyond within

/-- Where bytes do not make up a character, they begin one up to what is left, and no further. -/
theorem stuck_of_follow (ordered : low ≤ high)
    (stuck : follow count low high value bytes = (none, rest)) :
    ∃ front, bytes = front ++ rest ∧
      (∃ behind number, Continues count low high value (front ++ behind) number) ∧
      ∀ more tail number, more <+: rest → Continues count low high value tail number →
        front ++ more <+: tail → more = [] := by
  fun_induction follow count low high value bytes with
  | case1 low high value bytes => cases stuck
  | case2 low high value count =>
    cases stuck
    have continues := exists_continues (count + 1) value ordered
    exact ⟨[], rfl, continues, fun _ _ _ ahead _ _ => List.prefix_nil.mp ahead⟩
  | case3 count low high value byte bytes within ih =>
    obtain ⟨front, rfl, ⟨behind, number, further⟩, most⟩ := ih (by decide) stuck
    refine ⟨byte :: front, rfl, ⟨behind, number, .byte within further⟩, ?_⟩
    intro more tail number ahead continues same
    obtain ⟨next, tail, rfl, -, further⟩ := continues_succ_iff.mp continues
    rw [List.cons_append] at same
    obtain ⟨rfl, agree⟩ := List.cons_prefix_cons.mp same
    exact most more tail number ahead further agree
  | case4 count low high value byte bytes beyond =>
    cases stuck
    refine ⟨[], rfl, exists_continues (count + 1) value ordered, ?_⟩
    intro more tail number ahead continues same
    obtain ⟨next, tail, rfl, within, -⟩ := continues_succ_iff.mp continues
    cases more with
    | nil => rfl
    | cons first more =>
      obtain ⟨rfl, -⟩ := List.cons_prefix_cons.mp ahead
      obtain ⟨rfl, -⟩ := List.cons_prefix_cons.mp same
      exact absurd within beyond

/-! ## Characters and invalid parts -/

/-- These bytes begin the encoding of a character, or are all of it. -/
def Begins (front : Bytes) : Prop := ∃ c, front <+: String.utf8EncodeChar c

/-- No character stands at the front of `part ++ rest`. What stands there is `part`: as many
bytes as can begin a character, or one if none can. -/
structure Invalid (part rest : Bytes) : Prop where
  unencoded : ∀ c, ¬ String.utf8EncodeChar c <+: part ++ rest
  begins : part.length = 1 ∨ part ≠ [] ∧ Begins part
  longest : ∀ more, more <+: rest → Begins (part ++ more) → more = []

/-- Bytes and the characters that they decode to: each encoded character is kept, and each
invalid part is replaced. -/
inductive Mends : Bytes → List Char → Prop where
  | nil : Mends [] []
  | char (c : Char) {rest : Bytes} {chars : List Char} (further : Mends rest chars) :
    Mends (String.utf8EncodeChar c ++ rest) (c :: chars)
  | invalid {part rest : Bytes} {chars : List Char} (invalid : Invalid part rest)
      (further : Mends rest chars) :
    Mends (part ++ rest) (replacement :: chars)

/-- A character is taken exactly where its encoding stands. -/
theorem next_eq_some_iff :
    next byte bytes = (some c, rest) ↔ byte :: bytes = String.utf8EncodeChar c ++ rest := by
  constructor
  · intro taken
    unfold next at taken
    split at taken
    · cases taken
    · next lead leads =>
      cases followed : follow lead.following lead.low lead.high lead.bits bytes with
      | mk value left =>
        rw [followed] at taken
        cases value with
        | none => cases taken
        | some number =>
          obtain ⟨tail, rfl, continues⟩ := follow_eq_some_iff.mp followed
          obtain ⟨c, rfl, encoded⟩ := exists_encode_eq leads continues
          cases taken
          rw [Char.ofNat_toNat, encoded, List.cons_append]
  · intro split
    cases encoded : String.utf8EncodeChar c with
    | nil => exact absurd encoded String.utf8EncodeChar_ne_nil
    | cons first tail =>
      rw [encoded, List.cons_append] at split
      obtain ⟨rfl, rfl⟩ := List.cons.inj split
      obtain ⟨lead, leads, continues⟩ := exists_lead?_of_encode encoded
      simp only [next, leads, follow_eq_some_iff.mpr ⟨tail, rfl, continues⟩, Option.map_some,
        Char.ofNat_toNat]

/-- What is taken where no character stands is an invalid part. -/
theorem exists_invalid_of_next (taken : next byte bytes = (none, rest)) :
    ∃ part, byte :: bytes = part ++ rest ∧ Invalid part rest := by
  have unencoded (c : Char) : ¬ String.utf8EncodeChar c <+: byte :: bytes := by
    rintro ⟨behind, split⟩
    rw [next_eq_some_iff.mpr split.symm] at taken
    cases taken
  unfold next at taken
  split at taken
  · next unleading =>
    cases taken
    refine ⟨[byte], rfl, unencoded, .inl rfl, ?_⟩
    rintro more - ⟨c, more', encoded⟩
    obtain ⟨lead, leads, -⟩ := exists_lead?_of_encode encoded.symm
    rw [unleading] at leads
    cases leads
  · next lead leads =>
    cases followed : follow lead.following lead.low lead.high lead.bits bytes with
    | mk value left =>
      rw [followed] at taken
      cases value with
      | some number => cases taken
      | none =>
        cases taken
        obtain ⟨front, rfl, ⟨behind, number, continues⟩, most⟩ :=
          stuck_of_follow (low_le_high leads) followed
        refine ⟨byte :: front, rfl, unencoded, .inr ⟨nofun, ?_⟩, ?_⟩
        · obtain ⟨c, -, encoded⟩ := exists_encode_eq leads continues
          exact ⟨c, behind, encoded.symm⟩
        · rintro more ahead ⟨c, behind, encoded⟩
          obtain ⟨lead', leads', whole⟩ := exists_lead?_of_encode encoded.symm
          obtain rfl : lead' = lead := Option.some.inj (leads'.symm.trans leads)
          exact most more _ _ ahead whole (List.prefix_append ..)

/-- An invalid part that goes further than another is no longer than it. -/
theorem Invalid.eq_nil_of_append {part more rest : Bytes} (invalid : Invalid part (more ++ rest))
    (longer : Invalid (part ++ more) rest) : more = [] := by
  rcases longer.begins with single | ⟨-, begins⟩
  · have nonempty : 0 < part.length := by
      rcases invalid.begins with one | ⟨some, -⟩
      · exact one ▸ Nat.one_pos
      · exact List.length_pos_iff.mpr some
    rw [List.length_append] at single
    exact List.eq_nil_of_length_eq_zero (by omega)
  · exact invalid.longest more (List.prefix_append ..) begins

/-- At most one invalid part stands at the front. -/
theorem Invalid.unique {part part' rest rest' : Bytes} (invalid : Invalid part rest)
    (invalid' : Invalid part' rest') (same : part ++ rest = part' ++ rest') :
    part = part' ∧ rest = rest' := by
  rcases List.append_eq_append_iff.mp same with ⟨more, rfl, rfl⟩ | ⟨more, rfl, rfl⟩
  · obtain rfl := invalid.eq_nil_of_append invalid'
    exact ⟨(List.append_nil _).symm, rfl⟩
  · obtain rfl := invalid'.eq_nil_of_append invalid
    exact ⟨List.append_nil _, rfl⟩

/-! ## Decoding -/

/-- The characters decoded before are the ones that the result starts with. -/
theorem go_eq (bytes : Bytes) (done : List Char) :
    decodeChars.go bytes done = done.reverse ++ decodeChars bytes := by
  induction length : bytes.length using Nat.strongRecOn generalizing bytes done with
  | ind _ ih =>
    subst length
    cases bytes with
    | nil => simp [decodeChars, decodeChars.go]
    | cons byte bytes =>
      have shorter := Nat.lt_succ_of_le (length_next_le byte bytes)
      have further (done : List Char) := ih _ shorter _ done rfl
      rw [decodeChars, decodeChars.go, decodeChars.go, further, further]
      simp

@[simp]
theorem decodeChars_nil : decodeChars [] = [] := by
  simp [decodeChars, decodeChars.go]

theorem decodeChars_cons (byte : UInt8) (bytes : Bytes) :
    decodeChars (byte :: bytes) =
      (next byte bytes).1.getD replacement :: decodeChars (next byte bytes).2 := by
  rw [decodeChars, decodeChars.go, go_eq]
  rfl

theorem decodeChars_of_char (c : Char) (rest : Bytes) :
    decodeChars (String.utf8EncodeChar c ++ rest) = c :: decodeChars rest := by
  cases encoded : String.utf8EncodeChar c with
  | nil => exact absurd encoded String.utf8EncodeChar_ne_nil
  | cons byte tail =>
    have taken : next byte (tail ++ rest) = (some c, rest) := by
      rw [next_eq_some_iff, encoded, List.cons_append]
    rw [List.cons_append, decodeChars_cons, taken]
    rfl

theorem decodeChars_of_invalid {part : Bytes} (invalid : Invalid part rest) :
    decodeChars (part ++ rest) = replacement :: decodeChars rest := by
  cases part with
  | nil => exact absurd invalid.begins (by simp)
  | cons byte part =>
    rw [List.cons_append, decodeChars_cons]
    cases taken : next byte (part ++ rest) with
    | mk decoded left =>
      cases decoded with
      | some c =>
        have stands := next_eq_some_iff.mp taken
        exact absurd ⟨left, stands.symm⟩ (invalid.unencoded c)
      | none =>
        obtain ⟨part', same, invalid'⟩ := exists_invalid_of_next taken
        obtain ⟨-, rfl⟩ := invalid.unique invalid' same
        rfl

theorem mends_decodeChars (bytes : Bytes) : Mends bytes (decodeChars bytes) := by
  induction length : bytes.length using Nat.strongRecOn generalizing bytes with
  | ind _ ih =>
    subst length
    cases bytes with
    | nil => exact decodeChars_nil ▸ .nil
    | cons byte bytes =>
      have shorter := Nat.lt_succ_of_le (length_next_le byte bytes)
      have further := ih _ shorter _ rfl
      rw [decodeChars_cons]
      cases taken : next byte bytes with
      | mk decoded rest =>
        rw [taken] at further
        cases decoded with
        | some c => exact next_eq_some_iff.mp taken ▸ .char c further
        | none =>
          obtain ⟨part, split, invalid⟩ := exists_invalid_of_next taken
          exact split ▸ .invalid invalid further

/-- Decoding keeps the encoded characters and replaces the invalid parts, and nothing else does. -/
theorem decodeChars_eq_iff {chars : List Char} : decodeChars bytes = chars ↔ Mends bytes chars := by
  constructor
  · rintro rfl
    exact mends_decodeChars bytes
  · intro mends
    induction mends with
    | nil => exact decodeChars_nil
    | char c _ ih => rw [decodeChars_of_char, ih]
    | invalid invalid _ ih => rw [decodeChars_of_invalid invalid, ih]

theorem decodeChars_flatMap (chars : List Char) :
    decodeChars (chars.flatMap String.utf8EncodeChar) = chars := by
  induction chars with
  | nil => exact decodeChars_nil
  | cons c chars ih => rw [List.flatMap_cons, decodeChars_of_char, ih]

/-- A text is what its encoding decodes to. -/
theorem decodeLossy_ofString (text : String) : decodeLossy (Bytes.ofString text) = text := by
  rw [decodeLossy, Bytes.ofString, decodeChars_flatMap, String.ofList_toList]

end Text.Utf8

/-- A byte of seven bits is a whole character. -/
theorem Text.utf8EncodeChar_eq_of_mem {c : Char} {byte : UInt8}
    (member : byte ∈ String.utf8EncodeChar c) (short : byte.toNat < 128) :
    String.utf8EncodeChar c = [byte] ∧ c.toNat = byte.toNat := by
  have scalar := Utf8.isScalar c
  rcases Nat.lt_or_ge c.toNat 0x80 with one | several
  · rw [Utf8.encode_of_lt one] at member ⊢
    obtain rfl := List.mem_singleton.mp member
    exact ⟨rfl, (Utf8.toNat_ofNat (by omega)).symm⟩
  · -- Each byte of a longer encoding has its highest bit set.
    exfalso
    rcases Nat.lt_or_ge c.toNat 0x800 with two | several
    · rw [Utf8.encode_of_two several two] at member
      simp only [List.mem_cons, List.not_mem_nil, or_false] at member
      rcases member with rfl | rfl <;> rw [UInt8.toNat_ofNat'] at short <;> omega
    rcases Nat.lt_or_ge c.toNat 0x10000 with three | several
    · rw [Utf8.encode_of_three several three] at member
      simp only [List.mem_cons, List.not_mem_nil, or_false] at member
      rcases member with rfl | rfl | rfl <;> rw [UInt8.toNat_ofNat'] at short <;> omega
    · rw [Utf8.encode_of_four several] at member
      simp only [List.mem_cons, List.not_mem_nil, or_false] at member
      rcases member with rfl | rfl | rfl | rfl <;> rw [UInt8.toNat_ofNat'] at short <;> omega

namespace Bytes

theorem ofString_append (front back : String) :
    ofString (front ++ back) = ofString front ++ ofString back := by
  rw [ofString, String.toList_append, List.flatMap_append, ofString, ofString]

/-- A byte of seven bits in a text's encoding is a character of the text. -/
theorem mem_of_mem_ofString {text : String} {byte : UInt8} (member : byte ∈ ofString text)
    (short : byte.toNat < 128) : Char.ofNat byte.toNat ∈ text.toList := by
  obtain ⟨c, held, spelled⟩ := List.mem_flatMap.mp member
  rw [← (Text.utf8EncodeChar_eq_of_mem spelled short).2, Char.ofNat_toNat]
  exact held

theorem toByteArray_ofString (text : String) : (ofString text).toByteArray = text.toByteArray :=
  String.utf8Encode_toList

theorem length_ofString (text : String) : (ofString text).length = text.utf8ByteSize := by
  rw [String.utf8ByteSize, ← toByteArray_ofString, List.size_toByteArray]

/-- Valid UTF-8 is the encoding of a text. -/
theorem exists_ofString_of_isValidUTF8 {bytes : Bytes} (valid : bytes.toByteArray.IsValidUTF8) :
    ∃ text, ofString text = bytes := by
  obtain ⟨chars, encoded⟩ := valid
  refine ⟨String.ofList chars, ?_⟩
  rw [ofString, String.toList_ofList]
  exact (List.toByteArray_inj.mp encoded).symm

end Bytes

end WebSocket
