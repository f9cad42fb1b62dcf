import WebSocket.Close
import WebSocket.Proofs.BigEndian
import WebSocket.Proofs.Utf8

/-!
# Close payloads

A status code and a reason that may be sent fill at most the 125 bytes of a control frame, and
are read back from their payload as they are; a payload whose reason is UTF-8 is written again
byte for byte. Bytes that are not UTF-8 leave the code alone: the reason holds what can be
decoded, in order, and one replacement character for each invalid part
(`CloseFrame.encode_parse?`).
-/

namespace WebSocket

variable {high low : UInt8} {reason : Bytes} {frame : CloseFrame}

namespace CloseCode

theorem toNumber_ofNumber (number : UInt16) : (ofNumber number).toNumber = number := by
  unfold ofNumber
  split
  · next code found => simpa using List.find?_some found
  · rfl

/-- Named or not, a code is read back with its number. -/
theorem toNat_ofNumber_decode (high low : UInt8) :
    (ofNumber (UInt16.ofNat (BigEndian.decode [high, low]))).toNat =
      BigEndian.decode [high, low] := by
  have fits : BigEndian.decode [high, low] < UInt16.size := by
    simpa using BigEndian.decode_lt [high, low]
  rw [toNat, toNumber_ofNumber]
  exact UInt16.toNat_ofNat_of_lt' fits

theorem isReserved_iff {code : CloseCode} :
    code.isReserved = true ↔ code.toNat ∈ [1004, 1005, 1006, 1015] := List.contains_iff_mem

end CloseCode

namespace CloseFrame

theorem parse?_cons (high low : UInt8) (reason : Bytes) :
    parse? (high :: low :: reason) =
      some ⟨.ofNumber (.ofNat (BigEndian.decode [high, low])), Text.Utf8.decodeLossy reason⟩ :=
  rfl

/-- A close frame that was parsed has its code's two bytes in front. -/
theorem encode_code_of_parse? (parsed : parse? (high :: low :: reason) = some frame) :
    BigEndian.encode 2 frame.code.toNat = [high, low] := by
  cases parsed
  rw [CloseCode.toNat_ofNumber_decode]
  exact BigEndian.encode_decode [high, low]

theorem encode_of_reserved (reserved : frame.code.toNat ∈ [1004, 1005, 1006, 1015]) :
    encode frame = .error (.invalidCloseCode frame.code.toNat) := by
  rw [encode, if_pos (CloseCode.isReserved_iff.mpr reserved)]

theorem encode_of_long (free : frame.code.toNat ∉ [1004, 1005, 1006, 1015])
    (long : maxReason < frame.reason.utf8ByteSize) :
    encode frame = .error (.controlFrameTooLarge (frame.reason.utf8ByteSize + 2)) := by
  rw [encode, if_neg (mt CloseCode.isReserved_iff.mp free), Bytes.length_ofString, if_pos long]

theorem encode_of_short (free : frame.code.toNat ∉ [1004, 1005, 1006, 1015])
    (short : frame.reason.utf8ByteSize ≤ maxReason) :
    encode frame = .ok (BigEndian.encode 2 frame.code.toNat ++ Bytes.ofString frame.reason) := by
  rw [encode, if_neg (mt CloseCode.isReserved_iff.mp free), Bytes.length_ofString,
    if_neg (Nat.not_lt.mpr short)]

theorem encode_eq_invalidCloseCode_iff {number : Nat} :
    encode frame = .error (.invalidCloseCode number) ↔
      frame.code.toNat ∈ [1004, 1005, 1006, 1015] ∧ number = frame.code.toNat := by
  by_cases reserved : frame.code.toNat ∈ [1004, 1005, 1006, 1015]
  · simp only [encode_of_reserved reserved, reserved, true_and, Except.error.injEq,
      Error.invalidCloseCode.injEq, eq_comm]
  · rcases Nat.lt_or_ge maxReason frame.reason.utf8ByteSize with long | short
    · simp [encode_of_long reserved long, reserved]
    · simp [encode_of_short reserved short, reserved]

theorem encode_eq_controlFrameTooLarge_iff {size : Nat} :
    encode frame = .error (.controlFrameTooLarge size) ↔
      frame.code.toNat ∉ [1004, 1005, 1006, 1015] ∧ maxReason < frame.reason.utf8ByteSize ∧
        size = frame.reason.utf8ByteSize + 2 := by
  by_cases reserved : frame.code.toNat ∈ [1004, 1005, 1006, 1015]
  · simp [encode_of_reserved reserved, reserved]
  · rcases Nat.lt_or_ge maxReason frame.reason.utf8ByteSize with long | short
    · simp only [encode_of_long reserved long, reserved, long, not_false_eq_true, true_and,
        Except.error.injEq, Error.controlFrameTooLarge.injEq, eq_comm]
    · simp [encode_of_short reserved short, Nat.not_lt.mpr short]

/-- The longest reason fills the frame. -/
theorem length_payload_le (short : frame.reason.utf8ByteSize ≤ maxReason) :
    (BigEndian.encode 2 frame.code.toNat ++ Bytes.ofString frame.reason).length ≤
      Error.maxControlPayload := by
  rw [List.length_append, BigEndian.length_encode, Bytes.length_ofString, Nat.add_comm]
  exact Nat.add_le_add_right short 2

theorem length_of_encode {payload : Bytes} (encoded : encode frame = .ok payload) :
    payload.length ≤ Error.maxControlPayload := by
  by_cases reserved : frame.code.toNat ∈ [1004, 1005, 1006, 1015]
  · rw [encode_of_reserved reserved] at encoded
    cases encoded
  · rcases Nat.lt_or_ge maxReason frame.reason.utf8ByteSize with long | short
    · rw [encode_of_long reserved long] at encoded
      cases encoded
    · rw [encode_of_short reserved short] at encoded
      cases encoded
      exact length_payload_le short

/-- A payload is read with the number and the reason that it was written with, though a number
that has a name comes back as the named code. -/
theorem parse?_payload (frame : CloseFrame) :
    parse? (BigEndian.encode 2 frame.code.toNat ++ Bytes.ofString frame.reason) =
      some ⟨.ofNumber frame.code.toNumber, frame.reason⟩ := by
  have fits : frame.code.toNat < 256 ^ 2 := frame.code.toNumber.toNat_lt
  have read : BigEndian.decode (BigEndian.encode 2 frame.code.toNat) = frame.code.toNat := by
    rw [BigEndian.decode_encode, Nat.mod_eq_of_lt fits]
  have code : UInt16.ofNat frame.code.toNat = frame.code.toNumber := UInt16.ofNat_toNat
  have two : BigEndian.encode 2 frame.code.toNat =
      [UInt8.ofNat (frame.code.toNat >>> 8), UInt8.ofNat (frame.code.toNat >>> 0)] := rfl
  rw [two] at read ⊢
  rw [List.cons_append, List.cons_append, List.nil_append, parse?_cons, read, code,
    Text.Utf8.decodeLossy_ofString]

/-- Where a payload may be sent and its reason is UTF-8, writing undoes reading. -/
theorem encode_of_parse? (parsed : parse? (high :: low :: reason) = some frame)
    (free : frame.code.toNat ∉ [1004, 1005, 1006, 1015]) (short : reason.length ≤ maxReason)
    (valid : reason.toByteArray.IsValidUTF8) : encode frame = .ok (high :: low :: reason) := by
  have code := encode_code_of_parse? parsed
  obtain ⟨text, rfl⟩ := Bytes.exists_ofString_of_isValidUTF8 valid
  obtain rfl := Option.some.inj parsed
  rw [Bytes.length_ofString] at short
  simp only [Text.Utf8.decodeLossy_ofString] at free code ⊢
  rw [encode_of_short free short, code]
  rfl

/-- Close payloads are read back as they were written and written back as they were read, up to
the characters that stand for what is not UTF-8. -/
theorem encode_and_parse? :
    (∀ frame : CloseFrame,
      (∀ number, encode frame = .error (.invalidCloseCode number) ↔
        frame.code.toNat ∈ [1004, 1005, 1006, 1015] ∧ number = frame.code.toNat) ∧
      (∀ size, encode frame = .error (.controlFrameTooLarge size) ↔
        frame.code.toNat ∉ [1004, 1005, 1006, 1015] ∧ 123 < frame.reason.utf8ByteSize ∧
          size = frame.reason.utf8ByteSize + 2) ∧
      (frame.code.toNat ∉ [1004, 1005, 1006, 1015] → frame.reason.utf8ByteSize ≤ 123 →
        ∃ payload parsed, encode frame = .ok payload ∧ payload.length ≤ 125 ∧
          parse? payload = some parsed ∧ parsed.code.toNat = frame.code.toNat ∧
          parsed.reason = frame.reason)) ∧
    (∀ payload : Bytes, 2 ≤ payload.length →
      ∃ parsed, parse? payload = some parsed ∧
        parsed.code.toNat = BigEndian.decode (payload.take 2) ∧
        (∀ chars, Text.Utf8.Mends (payload.drop 2) chars ↔ parsed.reason.toList = chars) ∧
        (parsed.code.toNat ∉ [1004, 1005, 1006, 1015] → payload.length ≤ 125 →
          (payload.drop 2).toByteArray.IsValidUTF8 → encode parsed = .ok payload)) := by
  refine ⟨fun frame => ⟨fun number => encode_eq_invalidCloseCode_iff,
    fun size => encode_eq_controlFrameTooLarge_iff, fun free short => ?_⟩, fun payload long => ?_⟩
  · exact ⟨_, _, encode_of_short free short, length_payload_le short, parse?_payload frame,
      congrArg UInt16.toNat (CloseCode.toNumber_ofNumber _), rfl⟩
  · match payload, long with
    | high :: low :: reason, _ =>
      refine ⟨_, parse?_cons high low reason, CloseCode.toNat_ofNumber_decode high low,
        fun chars => ?_, fun free short valid => ?_⟩
      · rw [← Text.Utf8.decodeChars_eq_iff, Text.Utf8.decodeLossy, String.toList_ofList]
        rfl
      · have short : reason.length ≤ maxReason :=
          Nat.le_of_succ_le_succ (Nat.le_of_succ_le_succ short)
        exact encode_of_parse? (parse?_cons high low reason) free short valid

/-- A number that has a name, and a payload that breaks off a character in its reason. -/
theorem encode_and_parse?_named :
    (∃ payload parsed, encode ⟨.other 1000, "né"⟩ = .ok payload ∧ payload.length ≤ 125 ∧
      parse? payload = some parsed ∧ parsed.code.toNat = 1000 ∧ parsed.reason = "né") ∧
    (∃ parsed, parse? [3, 232, 0x6E, 0xC3, 0xA9] = some parsed ∧
      encode parsed = .ok [3, 232, 0x6E, 0xC3, 0xA9]) ∧
    (∃ parsed, parse? [3, 232, 0x6E, 0xE2, 0x82, 0x6E] = some parsed ∧
      Text.Utf8.Mends [0x6E, 0xE2, 0x82, 0x6E] parsed.reason.toList) := by
  refine ⟨(encode_and_parse?.1 _).2.2 (by decide) (by decide), ?_, ?_⟩
  · obtain ⟨parsed, read, code, -, back⟩ :=
      encode_and_parse?.2 [3, 232, 0x6E, 0xC3, 0xA9] (by decide)
    exact ⟨parsed, read, back (code ▸ by decide) (by decide) ⟨['n', 'é'], by decide⟩⟩
  · obtain ⟨parsed, read, -, mends, -⟩ :=
      encode_and_parse?.2 [3, 232, 0x6E, 0xE2, 0x82, 0x6E] (by decide)
    exact ⟨parsed, read, (mends _).mpr rfl⟩

example : parse? [3, 232, 0x6E, 0xE2, 0x82, 0x6E] = some ⟨.normal, "n\uFFFDn"⟩ := by decide +kernel

end CloseFrame

end WebSocket
