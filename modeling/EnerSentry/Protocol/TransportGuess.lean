import EnerSentry.Protocol.ResponseGrammar

/-!
Guessing the transport of a response. Whatever is parsed as TCP has nine bytes at least and the
protocol id 0; a serial frame with a zero in that place is shorter.
-/

namespace EnerSentry.Protocol
open EnerSentry.Lib.Packing

section Guess
variable {buf : List UInt8} {r : ModbusResponse}

theorem two_le_of_parsePdu {head : ModbusResponse} {echo : Nat} {pdu : List UInt8}
    (parsed : parsePdu head echo pdu = some r) : 2 ≤ pdu.length := by
  cases pdu with
  | nil => cases parsed
  | cons function rest =>
    cases rest with
    | nil =>
      unfold parsePdu at parsed
      simp at parsed
    | cons b rest => simp

/-- What the TCP parser accepts is nine bytes long and more. -/
theorem tcp_long (parsed : parseTcpResponse buf = some r) : 9 ≤ buf.length ∧ readU16BE buf 2 = 0 := by
  have found : headed buf = true := by
    by_contra lost
    rw [parseTcp_of_not_headed lost] at parsed
    cases parsed
  obtain ⟨tid, unitId, pdu, trailing, framed⟩ := headed_iff.mp found
  rw [framed.parse] at parsed
  have two := two_le_of_parsePdu parsed
  obtain ⟨pid, -, inside⟩ := framed.header
  exact ⟨by omega, pid⟩

/-- What the serial parser accepts is eight bytes long and less, or counts bytes in the third place. -/
theorem rtu_short (parsed : parseRtuResponse buf = some r) : buf.length ≤ 8 ∨ readU16BE buf 2 ≠ 0 := by
  obtain ⟨unitId, p, rfl, -⟩ := parseRtu_iff.mp parsed
  have counted : ∀ (function : UInt8) (data : List UInt8), data.length < 256 → data ≠ [] →
      readU16BE (withCrc (unitId :: function :: UInt8.ofNat data.length :: data)) 2 ≠ 0 := by
    intro function data short some zero
    have high := congrArg high zero
    rw [readU16BE, high_join] at high
    have count : (UInt8.ofNat data.length).toNat = 0 := congrArg UInt8.toNat high
    rw [UInt8.toNat_ofNat', Nat.mod_eq_of_lt short] at count
    exact some (List.eq_nil_of_length_eq_zero count)
  cases p with
  | exception => exact Or.inl (by simp [withCrc, ResponsePdu.bytes])
  | bits function data known short =>
    by_cases none : data = []
    · exact Or.inl (by simp [withCrc, ResponsePdu.bytes, none])
    · exact Or.inr (counted function data short none)
  | registers function words known short =>
    by_cases none : bytesOf words = []
    · exact Or.inl (by simp [withCrc, ResponsePdu.bytes, none])
    · have data := counted function (bytesOf words) (by rw [length_bytesOf]; exact short) none
      rw [length_bytesOf] at data
      exact Or.inr data
  | single => exact Or.inl (by simp [withCrc, ResponsePdu.bytes, writeU16BE])
  | multiple => exact Or.inl (by simp [withCrc, ResponsePdu.bytes, writeU16BE])

theorem not_both {r' : ModbusResponse} (tcp : parseTcpResponse buf = some r) : parseRtuResponse buf ≠ some r' := by
  intro rtu
  obtain ⟨long, pid⟩ := tcp_long tcp
  rcases rtu_short rtu with short | counted
  · omega
  · exact counted pid

/-- A frame that an explicit parser accepts is accepted by that parser alone, and guessed right. -/
structure GuessedRight (buf : List UInt8) : Prop where
  alone : ¬((parseTcpResponse buf).isSome = true ∧ (parseRtuResponse buf).isSome = true)
  tcp : ∀ r, parseTcpResponse buf = some r → parseResponse buf = some r
  rtu : ∀ r, parseRtuResponse buf = some r → parseResponse buf = some r

theorem guess_unambiguous (buf : List UInt8) : GuessedRight buf := by
  constructor
  · rintro ⟨tcp, rtu⟩
    obtain ⟨r, tcp⟩ := Option.isSome_iff_exists.mp tcp
    obtain ⟨r', rtu⟩ := Option.isSome_iff_exists.mp rtu
    exact not_both tcp rtu
  · intro r tcp
    have long := (tcp_long tcp).1
    rw [parseResponse, if_neg (by omega), tcp]
  · intro r rtu
    have long : ¬buf.length < 4 := by
      intro short
      rw [parseRtuResponse, if_pos (by simp [short])] at rtu
      cases rtu
    have other : parseTcpResponse buf = none := by
      by_contra some
      obtain ⟨r', tcp⟩ := Option.ne_none_iff_exists'.mp some
      exact not_both tcp rtu
    rw [parseResponse, if_neg long, other, rtu]

end Guess
end EnerSentry.Protocol
