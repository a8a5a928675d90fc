import EnerSentry.Sim.RemoteSession
import EnerSentry.Sim.RtuSlavePort

/-!
The client loop of the TCP server on a whole connection. A connection delivers its bytes in pieces, and
each turn of the loop collects a header and then as many bytes as the header announces. How the bytes
are cut into pieces makes no difference: the loop answers the requests that lie in the stream one
behind the other, up to the first that is malformed, incomplete or not answered.
-/

namespace EnerSentry.Sim
open EnerSentry.Lib EnerSentry.Lib.Packing EnerSentry.Protocol

/-- What `recv` still returns on a connection, piece by piece. An empty piece is a closed connection. -/
abbrev Pieces := List (List UInt8)

/-- The bytes that come before the connection is closed. -/
def delivered : Pieces → List UInt8
  | [] => []
  | piece :: pieces => if piece.isEmpty then [] else piece ++ delivered pieces

def recvAll : Pieces → Nat → Option (List UInt8 × Pieces)
  | pieces, 0 => some ([], pieces)
  | [], _ + 1 => none
  | piece :: pieces, n + 1 =>
      if piece.isEmpty then none
      else if n + 1 < piece.length then some (piece.take (n + 1), piece.drop (n + 1) :: pieces)
      else (recvAll pieces (n + 1 - piece.length)).map fun r => (piece ++ r.1, r.2)

section Turns
variable {S K : Type*} [Zero K]

/-- The reply to a request under the link faults of its unit, or nothing where the connection ends. -/
def replyUnder (eff : FaultEffect K) (hdr : MbapHeader) (respPdu : List UInt8) : Option (List UInt8) :=
  if respPdu.isEmpty || (eff.active && eff.dropLink) then none
  else
    let respPdu := if eff.active && eff.corruptByte && decide (3 < respPdu.length) then invertAt respPdu 3 else respPdu
    let resp : MbapHeader :=
      { transactionId := hdr.transactionId, length := UInt16.ofNat (respPdu.length + 1), unitId := hdr.unitId }
    some (emitMbap resp ++ respPdu)

/-- The link neither drops a reply nor changes a byte of it; it may hold it back. -/
def FaultEffect.Passes (eff : FaultEffect K) : Prop := (eff.active && (eff.dropLink || eff.corruptByte)) = false

instance (eff : FaultEffect K) : Decidable eff.Passes :=
  inferInstanceAs (Decidable ((eff.active && (eff.dropLink || eff.corruptByte)) = false))

variable (handler : ServingHandler S) (effect : S → UInt8 → FaultEffect K)

/-- One turn of the loop: the state it leaves, and the reply with what is left of the connection
unless the loop ends. -/
def clientTurn (s : S) (pieces : Pieces) : S × Option (List UInt8 × Pieces) :=
  match recvAll pieces 7 with
  | none => (s, none)
  | some (header, pieces) =>
      match parseMbap header with
      | none => (s, none)
      | some hdr =>
          if hdr.length < 2 || 255 < hdr.length.toNat - 1 then (s, none)
          else
            match recvAll pieces (hdr.length.toNat - 1) with
            | none => (s, none)
            | some (pdu, pieces) =>
                let (respPdu, s) := handler s hdr.unitId pdu
                (s, (replyUnder (effect s hdr.unitId) hdr respPdu).map fun reply => (reply, pieces))

/-- The turns of the loop until it ends or the server is closed, which it is before turn `turns`. -/
def clientTurns : Nat → S → Pieces → S × List (List UInt8)
  | 0, s, _ => (s, [])
  | turns + 1, s, pieces =>
      match clientTurn handler effect s pieces with
      | (s, none) => (s, [])
      | (s, some (reply, pieces)) =>
          let later := clientTurns turns s pieces
          (later.1, reply :: later.2)

/-- The requests that lie at the front of a stream of bytes. -/
def streamRequests : Nat → List UInt8 → List (MbapHeader × List UInt8)
  | 0, _ => []
  | turns + 1, bytes =>
      match mbapRequest bytes with
      | none => []
      | some (hdr, pdu) => (hdr, pdu) :: streamRequests turns (bytes.drop (7 + pdu.length))

/-- The replies to requests that are handled one after the other. -/
def answerAll (s : S) : List (MbapHeader × List UInt8) → S × List (List UInt8)
  | [] => (s, [])
  | (hdr, pdu) :: requests =>
      let done := handler s hdr.unitId pdu
      match replyUnder (effect done.2 hdr.unitId) hdr done.1 with
      | none => (done.2, [])
      | some reply =>
          let later := answerAll done.2 requests
          (later.1, reply :: later.2)

end Turns

section Pieces

/-- Bytes are collected across the pieces as if they had come in one. -/
theorem recvAll_delivered (pieces : Pieces) (n : Nat) :
    (∃ left, recvAll pieces n = some ((delivered pieces).take n, left) ∧ n ≤ (delivered pieces).length ∧
        delivered left = (delivered pieces).drop n) ∨
      (recvAll pieces n = none ∧ (delivered pieces).length < n) := by
  induction pieces generalizing n with
  | nil =>
    cases n with
    | zero => exact Or.inl ⟨[], rfl, Nat.le_refl 0, rfl⟩
    | succ n => exact Or.inr ⟨rfl, Nat.succ_pos n⟩
  | cons piece pieces ih =>
    cases n with
    | zero => exact Or.inl ⟨piece :: pieces, rfl, Nat.zero_le _, rfl⟩
    | succ n =>
      rw [recvAll, delivered]
      by_cases closed : piece.isEmpty = true
      · rw [if_pos closed, if_pos closed]
        exact Or.inr ⟨rfl, Nat.succ_pos n⟩
      · rw [if_neg closed, if_neg closed]
        by_cases enough : n + 1 < piece.length
        · rw [if_pos enough]
          refine Or.inl ⟨piece.drop (n + 1) :: pieces, ?_, ?_, ?_⟩
          · rw [List.take_append_of_le_length enough.le]
          · rw [List.length_append]
            omega
          · have rest : ¬(piece.drop (n + 1)).isEmpty = true := by
              rw [List.isEmpty_iff, List.drop_eq_nil_iff]
              omega
            rw [delivered, if_neg rest, List.drop_append_of_le_length enough.le]
        · rw [if_neg enough]
          have long := Nat.le_of_not_lt enough
          obtain ⟨left, got, room, rest⟩ | ⟨short, few⟩ := ih (n + 1 - piece.length)
          · refine Or.inl ⟨left, ?_, ?_, ?_⟩
            · rw [got, Option.map_some, List.take_append, List.take_of_length_le long]
            · rw [List.length_append]
              omega
            · rw [rest, List.drop_append, List.drop_of_length_le long, List.nil_append]
          · refine Or.inr ⟨?_, ?_⟩
            · rw [short, Option.map_none]
            · rw [List.length_append]
              omega

end Pieces

section Loop
variable {S K : Type*} [Zero K] (handler : ServingHandler S) (effect : S → UInt8 → FaultEffect K)

theorem replyUnder_passes {eff : FaultEffect K} (passes : eff.Passes) (hdr : MbapHeader) {respPdu : List UInt8}
    (filled : respPdu ≠ []) :
    replyUnder eff hdr respPdu = some (emitMbap
      { transactionId := hdr.transactionId, length := UInt16.ofNat (respPdu.length + 1), unitId := hdr.unitId } ++
        respPdu) := by
  rw [FaultEffect.Passes, Bool.and_or_distrib_left, Bool.or_eq_false_iff] at passes
  simp [replyUnder, filled, passes.1, passes.2]

theorem delivered_single (piece : List UInt8) : delivered [piece] = piece := by
  by_cases closed : piece.isEmpty
  · rw [delivered, if_pos closed]
    exact (List.isEmpty_iff.mp closed).symm
  · rw [delivered, if_neg closed, delivered, List.append_nil]

/-- A turn takes the request at the front of the stream, or ends the loop where there is none. -/
theorem clientTurn_stream (s : S) (pieces : Pieces) :
    (mbapRequest (delivered pieces) = none ∧ clientTurn handler effect s pieces = (s, none)) ∨
      ∃ hdr pdu left, mbapRequest (delivered pieces) = some (hdr, pdu) ∧
        delivered left = (delivered pieces).drop (7 + pdu.length) ∧
        clientTurn handler effect s pieces = ((handler s hdr.unitId pdu).2,
          (replyUnder (effect (handler s hdr.unitId pdu).2 hdr.unitId) hdr (handler s hdr.unitId pdu).1).map
            fun reply => (reply, left)) := by
  unfold clientTurn mbapRequest
  obtain ⟨left, header, -, rest⟩ | ⟨closed, short⟩ := recvAll_delivered pieces 7
  · rw [header]
    simp only
    cases parsed : parseMbap ((delivered pieces).take 7) with
    | none => exact Or.inl ⟨rfl, rfl⟩
    | some hdr =>
      simp only
      by_cases dirty : (decide (hdr.length < 2) || decide (255 < hdr.length.toNat - 1)) = true
      · rw [if_pos dirty, if_pos dirty]
        exact Or.inl ⟨rfl, rfl⟩
      · rw [if_neg dirty, if_neg dirty]
        obtain ⟨left', body, enough, rest'⟩ | ⟨closed, short⟩ := recvAll_delivered left (hdr.length.toNat - 1)
        · rw [rest] at body enough rest'
          have size : (((delivered pieces).drop 7).take (hdr.length.toNat - 1)).length = hdr.length.toNat - 1 :=
            List.length_take_of_le enough
          rw [body, if_neg (by simpa using size)]
          refine Or.inr ⟨hdr, _, left', rfl, ?_, rfl⟩
          rw [rest', size, List.drop_drop]
        · rw [rest] at short
          have size : (((delivered pieces).drop 7).take (hdr.length.toNat - 1)).length ≠ hdr.length.toNat - 1 := by
            rw [List.length_take]
            omega
          rw [closed, if_pos (by simpa using size)]
          exact Or.inl ⟨rfl, rfl⟩
  · have headless : parseMbap ((delivered pieces).take 7) = none := by
      rw [parseMbap, if_pos]
      rw [List.length_take]
      omega
    rw [closed, headless]
    exact Or.inl ⟨rfl, rfl⟩

/-- Over a link that passes, a request by itself is served as by the transport. -/
theorem clientTurn_passes (s : S) {frame pdu : List UInt8} {hdr : MbapHeader}
    (front : mbapRequest frame = some (hdr, pdu)) (passes : (effect (handler s hdr.unitId pdu).2 hdr.unitId).Passes) :
    (clientTurn handler effect s [frame]).2.map Prod.fst = (serveFrame handler .tcp s frame).1 := by
  obtain ⟨nothing, -⟩ | ⟨hdr', pdu', left, taken, -, turned⟩ := clientTurn_stream handler effect s [frame]
  · rw [delivered_single, front] at nothing
    cases nothing
  · rw [delivered_single, front] at taken
    obtain ⟨rfl, rfl⟩ := Prod.mk.inj (Option.some.inj taken)
    rw [turned, serveFrame]
    simp only [clientLoop_eq, front, Option.map_map, Option.bind_some]
    by_cases silent : (handler s hdr.unitId pdu).1.isEmpty
    · simp [replyUnder, silent]
    · rw [replyUnder_passes passes hdr (by simpa using silent), if_neg silent]
      rfl

/-- A connection is served as its bytes say: the replies are those to the requests at the front of the
stream, one after the other, whatever pieces the bytes came in. -/
theorem connection_served (turns : Nat) (s : S) (pieces : Pieces) :
    clientTurns handler effect turns s pieces =
      answerAll handler effect s (streamRequests turns (delivered pieces)) := by
  induction turns generalizing s pieces with
  | zero => rfl
  | succ turns ih =>
    rw [clientTurns, streamRequests]
    obtain ⟨none, ended⟩ | ⟨hdr, pdu, left, front, rest, turned⟩ := clientTurn_stream handler effect s pieces
    · rw [none, ended]
      rfl
    · rw [front, turned]
      simp only [answerAll]
      cases replyUnder (effect (handler s hdr.unitId pdu).2 hdr.unitId) hdr (handler s hdr.unitId pdu).1 with
      | none => rfl
      | some reply => simp only [Option.map_some, ih, rest]

end Loop
end EnerSentry.Sim
