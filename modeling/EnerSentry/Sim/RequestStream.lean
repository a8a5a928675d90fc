import EnerSentry.Sim.PipelinedSession

/-!
The requests that lie in the bytes of a connection. The server takes the first of them, a loss of the last
bytes leaves a beginning of them, and a whole frame behind whole frames is one request more.
-/

namespace EnerSentry.Sim
open EnerSentry.Lib EnerSentry.Protocol

/-- All requests from the front of a stream to the first that is malformed or incomplete. -/
def requestsIn (bytes : List UInt8) : List (MbapHeader × List UInt8) := streamRequests bytes.length bytes

/-- A frame that is filled by its request. -/
structure WholeRequest (frame : List UInt8) (hdr : MbapHeader) (pdu : List UInt8) : Prop where
  read : mbapRequest frame = some (hdr, pdu)
  size : frame.length = 7 + pdu.length

section Streams
variable {bytes : List UInt8} {hdr : MbapHeader} {pdu : List UInt8}

theorem length_mbapRequest (front : mbapRequest bytes = some (hdr, pdu)) : 7 + pdu.length ≤ bytes.length := by
  unfold mbapRequest at front
  cases parsed : parseMbap (bytes.take 7) with
  | none =>
    rw [parsed] at front
    cases front
  | some header =>
    have long : 7 ≤ bytes.length := by
      by_contra short
      rw [parseMbap, if_pos (by rw [List.length_take]; omega)] at parsed
      cases parsed
    simp only [parsed, Option.ite_none_left_eq_some, Option.some.injEq, Prod.mk.injEq] at front
    obtain ⟨-, -, -, rfl⟩ := front
    rw [List.length_take, List.length_drop]
    omega

/-- More turns than there are bytes find nothing more. -/
theorem streamRequests_enough (n m : Nat) (bytes : List UInt8) (enough : bytes.length ≤ n) (room : bytes.length ≤ m) :
    streamRequests n bytes = streamRequests m bytes := by
  induction n generalizing m bytes with
  | zero =>
    obtain rfl := List.length_eq_zero_iff.mp (Nat.le_zero.mp enough)
    cases m <;> rfl
  | succ n ih =>
    cases m with
    | zero =>
      obtain rfl := List.length_eq_zero_iff.mp (Nat.le_zero.mp room)
      rfl
    | succ m =>
      rw [streamRequests, streamRequests]
      cases front : mbapRequest bytes with
      | none => rfl
      | some request =>
        have size := length_mbapRequest front
        have rest := ih m (bytes.drop (7 + request.2.length))
          (by rw [List.length_drop]; omega) (by rw [List.length_drop]; omega)
        exact congrArg (request :: ·) rest

theorem requestsIn_none (none : mbapRequest bytes = none) : requestsIn bytes = [] := by
  rw [requestsIn]
  cases bytes with
  | nil => rfl
  | cons byte bytes => rw [List.length_cons, streamRequests, none]

theorem requestsIn_some (front : mbapRequest bytes = some (hdr, pdu)) :
    requestsIn bytes = (hdr, pdu) :: requestsIn (bytes.drop (7 + pdu.length)) := by
  have size := length_mbapRequest front
  obtain ⟨n, length⟩ := Nat.exists_eq_add_of_lt (show 0 < bytes.length by omega)
  rw [requestsIn, length, streamRequests, front]
  apply congrArg ((hdr, pdu) :: ·)
  exact streamRequests_enough _ _ _ (by rw [List.length_drop]; omega) (Nat.le_refl _)

/-- A stream that is cut off holds a beginning of its requests. -/
theorem requestsIn_take (n : Nat) (bytes : List UInt8) : requestsIn (bytes.take n) <+: requestsIn bytes := by
  induction size : bytes.length using Nat.strong_induction_on generalizing n bytes with
  | h length ih =>
    subst size
    cases front : mbapRequest (bytes.take n) with
    | none =>
      rw [requestsIn_none front]
      exact List.nil_prefix
    | some request =>
      have whole : mbapRequest (bytes.take n ++ bytes.drop n) = some request := mbapRequest_append front
      rw [List.take_append_drop] at whole
      have size := length_mbapRequest whole
      rw [requestsIn_some front, requestsIn_some whole, List.drop_take]
      exact (List.prefix_cons_inj request).mpr
        (ih _ (by rw [List.length_drop]; omega) _ _ rfl)

/-- Frames that lie behind one another are read one by one. -/
theorem requestsIn_flatten {frames : List (List UInt8)} (whole : ∀ f ∈ frames, ∃ hdr pdu, WholeRequest f hdr pdu) :
    requestsIn frames.flatten = frames.filterMap mbapRequest := by
  induction frames with
  | nil => rfl
  | cons frame frames ih =>
    obtain ⟨first, later⟩ := List.forall_mem_cons.mp whole
    obtain ⟨hdr, pdu, own⟩ := first
    rw [List.flatten_cons, requestsIn_some (mbapRequest_append own.read), ← own.size, List.drop_left, ih later,
      List.filterMap_cons_some own.read]

/-- What the engine builds is a whole request. -/
theorem wholeRequest_built {req : ModbusRequest} (tcp : req.transport = .tcp) (encoded : requestPdu req = some pdu)
    (filled : pdu ≠ []) (short : pdu.length ≤ 255) (built : buildRequest req ≠ []) :
    WholeRequest (buildRequest req)
      ⟨req.transactionId, 0, UInt16.ofNat (1 + pdu.length), req.slaveAddress⟩ pdu := by
  obtain ⟨own, same, frame⟩ := built_frame built
  obtain rfl : pdu = own := Option.some.inj (encoded.symm.trans same)
  rw [tcp] at frame
  rw [frame]
  exact ⟨mbapRequest_framed _ _ filled short, by rw [List.length_append]; rfl⟩

end Streams
end EnerSentry.Sim
