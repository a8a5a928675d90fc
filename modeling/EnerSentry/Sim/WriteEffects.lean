import EnerSentry.Sim.RegisterBank
import EnerSentry.Sim.RequestDecoding

/-!
What a write request does to the published registers. A request addresses a span of coils or of
holding registers and carries a value for each of them. A span that passes the sixteen-bit end of
the addresses is stored from address 0 on instead.
-/

namespace EnerSentry.Sim
open EnerSentry.Lib.Packing EnerSentry.Protocol

/-- Consecutive addresses, each with the value sent for it. -/
structure Span (V : Type*) where
  addr : UInt16
  qty : Nat
  value : Nat → V

namespace Span
variable {S V : Type*}

def nothing (default : V) : Span V := ⟨0, 0, fun _ => default⟩

/-- The value sent for an address. -/
def sent (span : Span V) (a : Nat) : Option V :=
  if span.addr.toNat ≤ a ∧ a < span.addr.toNat + span.qty then some (span.value (a - span.addr.toNat)) else none

def Inside (span : Span V) (size : Nat) : Prop := span.addr.toNat + span.qty ≤ size

instance (span : Span V) (size : Nat) : Decidable (span.Inside size) := Nat.decLe _ _

/-- The values stored one after the other, as the handlers do it. -/
def store (span : Span V) (write : S → UInt16 → V → S) (s : S) : S :=
  (List.range span.qty).foldl (fun s i => write s (span.addr + UInt16.ofNat i) (span.value i)) s

/-- How far an address lies behind the start of the span, going round at the end of the addresses. -/
def behind (span : Span V) (a : Nat) : Nat := (a + 65536 - span.addr.toNat) % 65536

/-- Every address past the last one already holds what is sent for it, and so does the address that
is written in its place. -/
def Settled (span : Span V) (cell : Nat → Option V) : Prop :=
  ∀ a v, span.sent a = some v → 65536 ≤ a → cell a = some v ∧ cell (a - 65536) = some v

/-- A single write changes its own cell, if there is one. -/
def Writes (cell : S → Nat → Option V) (write : S → UInt16 → V → S) : Prop :=
  ∀ s reg v a, cell (write s reg v) a = if a = reg.toNat then (cell s a).map fun _ => v else cell s a

variable {cell : S → Nat → Option V} {write : S → UInt16 → V → S} {span : Span V}

@[simp] theorem store_nothing {default : V} (s : S) : (nothing default).store write s = s := rfl

theorem store_one (addr : UInt16) (value : Nat → V) (s : S) :
    (Span.mk addr 1 value).store write s = write s addr (value 0) := by
  change write s (addr + 0) (value 0) = write s addr (value 0)
  rw [UInt16.add_zero]

theorem sent_add {i : Nat} (inside : i < span.qty) : span.sent (span.addr.toNat + i) = some (span.value i) := by
  rw [sent, if_pos ⟨Nat.le_add_right _ _, Nat.add_lt_add_left inside _⟩, Nat.add_sub_cancel_left]

theorem sent_eq_some {a : Nat} {v : V} : span.sent a = some v ↔
    ∃ i < span.qty, a = span.addr.toNat + i ∧ span.value i = v := by
  constructor
  · intro sent
    obtain ⟨⟨low, high⟩, same⟩ := Option.ite_none_right_eq_some.mp sent
    exact ⟨a - span.addr.toNat, by omega, by omega, Option.some.inj same⟩
  · rintro ⟨i, inside, rfl, rfl⟩
    exact sent_add inside

theorem wrapped_toNat (addr : UInt16) (i : Nat) : (addr + UInt16.ofNat i).toNat = (addr.toNat + i) % 65536 := by
  rw [UInt16.toNat_add, UInt16.toNat_ofNat']
  omega

theorem store_succ (n : Nat) (addr : UInt16) (value : Nat → V) (s : S) :
    (Span.mk addr (n + 1) value).store write s =
      write ((Span.mk addr n value).store write s) (addr + UInt16.ofNat n) (value n) := by
  rw [store, List.range_succ, List.foldl_concat]
  rfl

theorem cell_store_upTo (writes : Writes cell write) (addr : UInt16) (value : Nat → V) (s : S) (a : Nat) :
    ∀ n ≤ 65536, cell ((Span.mk addr n value).store write s) a =
      if a < 65536 ∧ (a + 65536 - addr.toNat) % 65536 < n then
        (cell s a).map fun _ => value ((a + 65536 - addr.toNat) % 65536)
      else cell s a := by
  have bound := addr.toNat_lt
  intro n
  induction n with
  | zero => simp [store]
  | succ n ih =>
    intro small
    rw [store_succ, writes, wrapped_toNat, ih (by omega)]
    by_cases here : a = (addr.toNat + n) % 65536
    · have last : (a + 65536 - addr.toNat) % 65536 = n := by omega
      rw [if_pos here, if_neg (by omega), if_pos (by omega), last]
    · rw [if_neg here]
      by_cases earlier : a < 65536 ∧ (a + 65536 - addr.toNat) % 65536 < n
      · rw [if_pos earlier, if_pos (by omega)]
      · rw [if_neg earlier, if_neg (by omega)]

/-- Every cell after a span has been stored: the cells of the span hold what was sent for the
address they are written for. -/
theorem cell_store (writes : Writes cell write) (span : Span V) (small : span.qty ≤ 65536) (s : S) (a : Nat) :
    cell (span.store write s) a =
      if a < 65536 ∧ span.behind a < span.qty then (cell s a).map fun _ => span.value (span.behind a)
      else cell s a :=
  cell_store_upTo writes span.addr span.value s a span.qty small

theorem isSome_cell_store (writes : Writes cell write) (small : span.qty ≤ 65536) (s : S) (a : Nat) :
    (cell (span.store write s) a).isSome = (cell s a).isSome := by
  rw [cell_store writes span small]
  split
  · rw [Option.isSome_map]
  · rfl

/-- Stored cells are read back in the order in which they were sent. -/
theorem cell_store_wrapped (writes : Writes cell write) (small : span.qty ≤ 65536) {s : S} {i : Nat}
    (sent : i < span.qty) (there : (cell s ((span.addr + UInt16.ofNat i).toNat)).isSome = true) :
    cell (span.store write s) (span.addr + UInt16.ofNat i).toNat = some (span.value i) := by
  have bound := span.addr.toNat_lt
  obtain ⟨v, held⟩ := Option.isSome_iff_exists.mp there
  rw [cell_store writes span small, held]
  have offset : span.behind (span.addr + UInt16.ofNat i).toNat = i := by
    rw [behind, wrapped_toNat]
    omega
  rw [offset, if_pos ⟨UInt16.toNat_lt _, sent⟩, Option.map_some]

/-- The place of an addressed cell in the span, and of the one it is stored in past the wrap. -/
theorem behind_add {i : Nat} (low : span.addr.toNat + i < 65536) : span.behind (span.addr.toNat + i) = i := by
  have bound := span.addr.toNat_lt
  rw [behind]
  omega

theorem behind_wrap {i : Nat} (past : 65536 ≤ span.addr.toNat + i) (small : i < 65536) :
    span.behind (span.addr.toNat + i - 65536) = i := by
  have bound := span.addr.toNat_lt
  rw [behind]
  omega

theorem lt_of_sent {a size : Nat} {v : V} (sent : span.sent a = some v) (inside : span.Inside size) : a < size := by
  obtain ⟨i, below, rfl, -⟩ := sent_eq_some.mp sent
  rw [Inside] at inside
  omega

/-- If nothing but the addressed cells changes, the cells on both sides of the wrap are settled. -/
theorem settled_of_stored (writes : Writes cell write) (small : span.qty ≤ 65536) {s : S} {size : Nat}
    (cells : ∀ a, (cell s a).isSome = true ↔ a < size) (inside : span.Inside size)
    (stored : ∀ a, cell (span.store write s) a = (span.sent a).or (cell s a)) : span.Settled (cell s) := by
  intro a v sent past
  have held := lt_of_sent sent inside
  obtain ⟨i, below, rfl, rfl⟩ := sent_eq_some.mp sent
  have bound := span.addr.toNat_lt
  have beyond := stored (span.addr.toNat + i)
  have under := stored (span.addr.toNat + i - 65536)
  rw [cell_store writes span small, if_neg (by omega), sent] at beyond
  have outside : span.sent (span.addr.toNat + i - 65536) = none := by
    rw [Span.sent, if_neg (by omega)]
  obtain ⟨w, there⟩ := Option.isSome_iff_exists.mp ((cells (span.addr.toNat + i - 65536)).mpr
    (lt_of_le_of_lt (Nat.sub_le _ _) held))
  rw [cell_store writes span small, behind_wrap past (by omega), if_pos ⟨by omega, below⟩, outside, there] at under
  exact ⟨beyond, there.trans under.symm⟩

/-- A cell that is stored into but not addressed is one under the wrap. -/
theorem sent_wrapped {a : Nat} (unsent : span.sent a = none) (wrapped : a < 65536 ∧ span.behind a < span.qty) :
    span.sent (a + 65536) = some (span.value (span.behind a)) := by
  have bound := span.addr.toNat_lt
  refine sent_eq_some.mpr ⟨span.behind a, wrapped.2, ?_, rfl⟩
  have apart : ¬(span.addr.toNat ≤ a ∧ a < span.addr.toNat + span.qty) := by
    intro within
    rw [Span.sent, if_pos within] at unsent
    cases unsent
  simp only [behind] at wrapped ⊢
  omega

/-- The stored cells are the addressed ones, and nothing else changes, exactly when the cells on both
sides of the wrap are settled. -/
theorem cell_store_iff (writes : Writes cell write) (small : span.qty ≤ 65536) {s : S} {size : Nat}
    (cells : ∀ a, (cell s a).isSome = true ↔ a < size) (inside : span.Inside size) :
    (∀ a, cell (span.store write s) a = (span.sent a).or (cell s a)) ↔ span.Settled (cell s) := by
  constructor
  · exact settled_of_stored writes small cells inside
  · intro settled a
    rw [cell_store writes span small]
    cases sent : span.sent a with
    | some v =>
      have held := lt_of_sent sent inside
      obtain ⟨i, below, rfl, rfl⟩ := sent_eq_some.mp sent
      by_cases low : span.addr.toNat + i < 65536
      · obtain ⟨w, there⟩ := Option.isSome_iff_exists.mp ((cells _).mpr held)
        rw [behind_add low, if_pos ⟨low, below⟩, there]
        rfl
      · rw [if_neg (by omega), (settled _ _ sent (by omega)).1]
        rfl
    | none =>
      rw [Option.none_or]
      by_cases wrapped : a < 65536 ∧ span.behind a < span.qty
      · have same := (settled _ _ (sent_wrapped sent wrapped) (Nat.le_add_left _ _)).2
        rw [Nat.add_sub_cancel] at same
        rw [if_pos wrapped, same]
        rfl
      · rw [if_neg wrapped]

/-- A span that ends within the addresses has nothing past them. -/
theorem settled_of_inside (span : Span V) (inside : span.Inside 65536) (cell : Nat → Option V) :
    span.Settled cell := by
  intro a v sent past
  obtain ⟨i, below, rfl, -⟩ := sent_eq_some.mp sent
  rw [Inside] at inside
  omega

end Span

section Requests

/-- The coils a write addresses, with bit `i` of the packed bytes for the coil `i` behind the first. -/
def coilSpan (pdu : List UInt8) : Span Bool :=
  if pdu.headD 0 == 0x05 then ⟨be16 pdu 1, 1, fun _ => be16 pdu 3 == 0xFF00⟩
  else if pdu.headD 0 == 0x0F then ⟨be16 pdu 1, (be16 pdu 3).toNat, bitAt (pdu.drop 6)⟩
  else .nothing false

/-- The holding registers a write addresses, with one big-endian word for each. -/
def wordSpan (pdu : List UInt8) : Span UInt16 :=
  if pdu.headD 0 == 0x06 then ⟨be16 pdu 1, 1, fun _ => be16 pdu 3⟩
  else if pdu.headD 0 == 0x10 then ⟨be16 pdu 1, (be16 pdu 3).toNat, fun i => be16 (pdu.drop 6) (2 * i)⟩
  else .nothing 0

/-- The request is well formed, and what it addresses is there. -/
def Accepted (regs : SlaveRegset) (pdu : List UInt8) : Prop :=
  (decodeCommand pdu).isSome = true ∧ (coilSpan pdu).Inside (regs.coils.length * 8) ∧
    (wordSpan pdu).Inside regs.holding.length

/-- The registers as the handlers leave them. -/
def written (regs : SlaveRegset) (pdu : List UInt8) : SlaveRegset :=
  (wordSpan pdu).store SlaveRegset.setHolding
    { regs with coils := (coilSpan pdu).store writeCoil regs.coils }

/-- The addressed coils and holding registers hold what was sent, all else is what it was. -/
structure Stores (pdu : List UInt8) (before after : SlaveRegset) : Prop where
  coils : ∀ a, coilAt after.coils a = ((coilSpan pdu).sent a).or (coilAt before.coils a)
  holding : ∀ a, after.holding[a]? = ((wordSpan pdu).sent a).or before.holding[a]?
  rest : after = { before with coils := after.coils, holding := after.holding }

/-- The read of what a write addresses. -/
def readBack (pdu : List UInt8) : List UInt8 :=
  if pdu.headD 0 == 0x05 || pdu.headD 0 == 0x0F then
    0x01 :: (appendU16BE (coilSpan pdu).addr ++ appendU16BE (UInt16.ofNat (coilSpan pdu).qty))
  else 0x03 :: (appendU16BE (wordSpan pdu).addr ++ appendU16BE (UInt16.ofNat (wordSpan pdu).qty))

/-- The values of a write, as the answer to a read carries them. -/
def sentData (pdu : List UInt8) : List UInt8 :=
  if pdu.headD 0 == 0x05 || pdu.headD 0 == 0x0F then packBits (coilSpan pdu).value (coilSpan pdu).qty
  else bytesOf ((List.range (wordSpan pdu).qty).map (wordSpan pdu).value)

variable {regs : SlaveRegset} {pdu : List UInt8}

theorem writeCode_cases {fc : UInt8} (write : isWriteCode fc = true) :
    fc = 0x05 ∨ fc = 0x06 ∨ fc = 0x0F ∨ fc = 0x10 := by
  simpa [isWriteCode, or_assoc] using write

theorem be16_drop (n i : Nat) : be16 (pdu.drop n) i = be16 pdu (n + i) := by
  simp [be16, List.getD_eq_getElem?_getD, Nat.add_assoc]

theorem bitAt_drop (n i : Nat) : bitAt (pdu.drop n) i = (pdu.getD (n + i / 8) 0).toNat.testBit (i % 8) := by
  simp [bitAt, List.getD_eq_getElem?_getD]

/-- A request is carried out as a whole or refused with an exception. -/
def Answers (regs : SlaveRegset) (pdu : List UInt8) : Prop :=
  (Accepted regs pdu ∧ dispatchFull regs pdu true = ({ bytes := pdu.take 5 }, written regs pdu)) ∨
    (¬Accepted regs pdu ∧ ∃ code, dispatchFull regs pdu true = (exceptionPdu (pdu.headD 0) code, regs))

/-- Every handler checks the form of its request first, and then the range. -/
theorem answers_of_checks {ill outside : Prop} [Decidable ill] [Decidable outside]
    {done : DispatchResult × SlaveRegset}
    (handled : dispatchFull regs pdu true =
      if ill then (exceptionPdu (pdu.headD 0) 0x03, regs)
      else if outside then (exceptionPdu (pdu.headD 0) 0x02, regs)
      else done)
    (carried : ¬ill → done = ({ bytes := pdu.take 5 }, written regs pdu))
    (accepted : Accepted regs pdu ↔ ¬ill ∧ ¬outside) : Answers regs pdu := by
  by_cases formed : ill
  · exact Or.inr ⟨fun both => (accepted.mp both).1 formed, 0x03, by rw [handled, if_pos formed]⟩
  · by_cases range : outside
    · exact Or.inr ⟨fun both => (accepted.mp both).2 range, 0x02, by rw [handled, if_neg formed, if_pos range]⟩
    · exact Or.inl ⟨accepted.mpr ⟨formed, range⟩,
        by rw [handled, if_neg formed, if_neg range, carried formed]⟩

theorem isSome_unless {α : Type*} {ill : Prop} [Decidable ill] (x : α) :
    (if ill then none else some x).isSome = true ↔ ¬ill := by
  split <;> simp_all

theorem answers_writeSingleCoil (rest : List UInt8) : Answers regs (0x05 :: rest) := by
  refine answers_of_checks rfl (fun _ => ?_) ?_
  · change _ = (_, { regs with coils :=
      (Span.mk (be16 (0x05 :: rest) 1) 1 fun _ => be16 (0x05 :: rest) 3 == 0xFF00).store writeCoil regs.coils })
    rw [Span.store_one]
  · change ((if ((0x05 :: rest).length != 5 ||
        (be16 (0x05 :: rest) 3 != 0xFF00 && be16 (0x05 :: rest) 3 != 0x0000)) = true
      then none else some _).isSome = true ∧ (be16 (0x05 :: rest) 1).toNat + 1 ≤ regs.coils.length * 8 ∧
        0 ≤ regs.holding.length) ↔ _
    rw [isSome_unless]
    exact and_congr_right fun _ => ⟨fun range => by omega, fun range => ⟨by omega, Nat.zero_le _⟩⟩

theorem answers_writeSingleRegister (rest : List UInt8) : Answers regs (0x06 :: rest) := by
  refine answers_of_checks rfl (fun _ => ?_) ?_
  · change _ = (_, (Span.mk (be16 (0x06 :: rest) 1) 1 fun _ => be16 (0x06 :: rest) 3).store
      SlaveRegset.setHolding regs)
    rw [Span.store_one]
  · change ((if ((0x06 :: rest).length != 5) = true then none else some _).isSome = true ∧
      0 ≤ regs.coils.length * 8 ∧ (be16 (0x06 :: rest) 1).toNat + 1 ≤ regs.holding.length) ↔ _
    rw [isSome_unless]
    exact and_congr_right fun _ => ⟨fun range => by omega, fun range => ⟨Nat.zero_le _, by omega⟩⟩

/-- The four bytes behind the function code, as they are echoed. -/
theorem take_five {fc : UInt8} {rest : List UInt8} (long : 5 ≤ (fc :: rest).length) :
    (fc :: rest).take 5 = fc :: (appendU16BE (be16 (fc :: rest) 1) ++ appendU16BE (be16 (fc :: rest) 3)) := by
  match rest, long with
  | a :: b :: c :: d :: rest, _ => exact five_bytes (show (fc :: a :: b :: c :: [d]).length = 5 from rfl)

theorem answers_writeMultiple {fc : UInt8} {rest : List UInt8} {limit size : Nat} {byteCountOf : Nat → Nat}
    {change : UInt16 → Nat → SlaveRegset}
    (handled : dispatchFull regs (fc :: rest) true = writeMultiple fc regs (fc :: rest) limit size byteCountOf change)
    (changed : change (be16 (fc :: rest) 1) (be16 (fc :: rest) 3).toNat = written regs (fc :: rest))
    (accepted : Accepted regs (fc :: rest) ↔
      wellCounted (fc :: rest) limit (byteCountOf (be16 (fc :: rest) 3).toNat) = true ∧
        (be16 (fc :: rest) 1).toNat + (be16 (fc :: rest) 3).toNat ≤ size) :
    Answers regs (fc :: rest) := by
  refine answers_of_checks handled (fun formed => ?_) ?_
  · simp only [Bool.or_eq_true, decide_eq_true_eq, not_or] at formed
    rw [changed, take_five (by omega)]
  · rw [accepted, wellCounted, Bool.not_eq_true', Bool.not_eq_true, Nat.not_lt]

theorem answers_writeCoils (rest : List UInt8) : Answers regs (0x0F :: rest) := by
  have handled : dispatchFull regs (0x0F :: rest) true = writeCoils regs (0x0F :: rest) := rfl
  refine answers_writeMultiple handled ?_ ?_
  · change _ = { regs with coils := (Span.mk (be16 (0x0F :: rest) 1) (be16 (0x0F :: rest) 3).toNat
      (bitAt ((0x0F :: rest).drop 6))).store writeCoil regs.coils }
    simp only [Span.store, bitAt_drop]
  · change ((if wellCounted (0x0F :: rest) 1968 _ = true then some _ else none).isSome = true ∧ _ ∧ 0 ≤ _) ↔ _
    rw [Option.isSome_ite]
    exact and_congr_right fun _ => and_iff_left (Nat.zero_le _)

theorem answers_writeRegisters (rest : List UInt8) : Answers regs (0x10 :: rest) := by
  have handled : dispatchFull regs (0x10 :: rest) true = writeRegisters regs (0x10 :: rest) := rfl
  refine answers_writeMultiple handled ?_ ?_
  · change _ = (Span.mk (be16 (0x10 :: rest) 1) (be16 (0x10 :: rest) 3).toNat
      fun i => be16 ((0x10 :: rest).drop 6) (2 * i)).store SlaveRegset.setHolding regs
    simp only [Span.store, be16_drop]
  · change ((if wellCounted (0x10 :: rest) 123 _ = true then some _ else none).isSome = true ∧ 0 ≤ _ ∧ _) ↔ _
    rw [Option.isSome_ite]
    exact and_congr_right fun _ => and_iff_right (Nat.zero_le _)

theorem answers_write (regs : SlaveRegset) (write : isWriteCode (pdu.headD 0) = true) : Answers regs pdu := by
  cases pdu with
  | nil => cases write
  | cons fc rest =>
    obtain rfl | rfl | rfl | rfl := writeCode_cases write
    · exact answers_writeSingleCoil rest
    · exact answers_writeSingleRegister rest
    · exact answers_writeCoils rest
    · exact answers_writeRegisters rest

theorem writes_holding : Span.Writes (fun (r : SlaveRegset) a => r.holding[a]?) SlaveRegset.setHolding := by
  intro r reg v a
  simp only [SlaveRegset.setHolding, List.getElem?_set]
  by_cases same : a = reg.toNat
  · subst same
    by_cases inside : reg.toNat < r.holding.length <;> simp [inside]
  · rw [if_neg (Ne.symm same), if_neg same]

theorem store_setHolding (span : Span UInt16) (r : SlaveRegset) :
    span.store SlaveRegset.setHolding r = { r with holding := (span.store SlaveRegset.setHolding r).holding } := by
  obtain ⟨addr, n, value⟩ := span
  induction n with
  | zero => rfl
  | succ n ih =>
    rw [Span.store_succ, ih]
    rfl

theorem coils_written : (written regs pdu).coils = (coilSpan pdu).store writeCoil regs.coils := by
  rw [written, store_setHolding]

theorem isSome_coilAt (bytes : List UInt8) (a : Nat) : (coilAt bytes a).isSome = true ↔ a < bytes.length * 8 := by
  simp only [coilAt, Option.isSome_map, isSome_getElem?]
  exact Nat.div_lt_iff_lt_mul (by decide)

theorem bitAt_of_coilAt {bytes : List UInt8} {a : Nat} {v : Bool} (held : coilAt bytes a = some v) :
    bitAt bytes a = v := by
  obtain ⟨b, there, rfl⟩ := Option.map_eq_some_iff.mp held
  rw [bitAt, List.getD_eq_getElem?_getD, there, Option.getD_some]

theorem isSome_holding (r : SlaveRegset) (a : Nat) : (r.holding[a]?).isSome = true ↔ a < r.holding.length := by
  simp only [isSome_getElem?]

theorem qty_wellCounted {limit byteCount : Nat} (counted : wellCounted pdu limit byteCount = true) :
    0 < (be16 pdu 3).toNat ∧ (be16 pdu 3).toNat ≤ limit := by
  simp only [wellCounted, Bool.not_eq_true', Bool.or_eq_false_iff, beq_eq_false_iff_ne, decide_eq_false_iff_not,
    Nat.not_lt] at counted
  refine ⟨Nat.pos_of_ne_zero fun zero => ?_, counted.1.1.2⟩
  exact counted.1.1.1.2 (UInt16.toNat_inj.mp zero)

/-- A write that is accepted addresses coils or registers, no more than its limit allows. -/
theorem qty_accepted (write : isWriteCode (pdu.headD 0) = true) (accepted : Accepted regs pdu) :
    (pdu.headD 0 == 0x05 || pdu.headD 0 == 0x0F) = true ∧
      0 < (coilSpan pdu).qty ∧ (coilSpan pdu).qty ≤ 1968 ∧ (wordSpan pdu).qty = 0 ∨
    (pdu.headD 0 == 0x05 || pdu.headD 0 == 0x0F) = false ∧
      0 < (wordSpan pdu).qty ∧ (wordSpan pdu).qty ≤ 123 ∧ (coilSpan pdu).qty = 0 := by
  obtain ⟨formed, -⟩ := accepted
  cases pdu with
  | nil => cases write
  | cons fc rest =>
    obtain rfl | rfl | rfl | rfl := writeCode_cases write
    · exact Or.inl ⟨rfl, Nat.one_pos, Nat.le_add_left 1 1967, rfl⟩
    · exact Or.inr ⟨rfl, Nat.one_pos, Nat.le_add_left 1 122, rfl⟩
    · change (if wellCounted (0x0F :: rest) 1968 _ = true then some _ else none).isSome = true at formed
      rw [Option.isSome_ite] at formed
      obtain ⟨some, few⟩ := qty_wellCounted formed
      exact Or.inl ⟨rfl, some, few, rfl⟩
    · change (if wellCounted (0x10 :: rest) 123 _ = true then some _ else none).isSome = true at formed
      rw [Option.isSome_ite] at formed
      obtain ⟨some, few⟩ := qty_wellCounted formed
      exact Or.inr ⟨rfl, some, few, rfl⟩

theorem few_accepted (write : isWriteCode (pdu.headD 0) = true) (accepted : Accepted regs pdu) :
    (coilSpan pdu).qty ≤ 65536 ∧ (wordSpan pdu).qty ≤ 65536 := by
  have few := qty_accepted write accepted
  omega

/-- Nothing is lost at the end of the addresses. -/
def Kept (regs : SlaveRegset) (pdu : List UInt8) : Prop :=
  (coilSpan pdu).Settled (coilAt regs.coils) ∧ (wordSpan pdu).Settled fun a => regs.holding[a]?

theorem stores_iff (write : isWriteCode (pdu.headD 0) = true) (accepted : Accepted regs pdu) :
    Stores pdu regs (written regs pdu) ↔ Kept regs pdu := by
  have few := few_accepted write accepted
  have coils := Span.cell_store_iff coilAt_writeCoil few.1 (isSome_coilAt regs.coils) accepted.2.1
  have holding := Span.cell_store_iff writes_holding few.2
    (isSome_holding { regs with coils := (coilSpan pdu).store writeCoil regs.coils }) accepted.2.2
  constructor
  · intro stores
    have coilsKept := stores.coils
    rw [coils_written] at coilsKept
    exact ⟨coils.mp coilsKept, holding.mp stores.holding⟩
  · rintro ⟨coilsKept, holdingKept⟩
    refine ⟨?_, holding.mpr holdingKept, ?_⟩
    · rw [coils_written]
      exact coils.mpr coilsKept
    · rw [coils_written]
      exact store_setHolding _ _

/-- The cell at the wrapped address of an addressed one exists. -/
theorem wrapped_lt {V : Type*} {span : Span V} {size i : Nat} (inside : span.Inside size) (sent : i < span.qty) :
    (span.addr + UInt16.ofNat i).toNat < size := by
  rw [Span.wrapped_toNat]
  rw [Span.Inside] at inside
  have cut := Nat.mod_le (span.addr.toNat + i) 65536
  omega

theorem bitAt_written (accepted : Accepted regs pdu) (few : (coilSpan pdu).qty ≤ 65536) {i : Nat}
    (sent : i < (coilSpan pdu).qty) :
    bitAt (written regs pdu).coils (((coilSpan pdu).addr.toNat + i) % 65536) = (coilSpan pdu).value i := by
  rw [coils_written, ← Span.wrapped_toNat]
  exact bitAt_of_coilAt (Span.cell_store_wrapped coilAt_writeCoil few sent
    ((isSome_coilAt _ _).mpr (wrapped_lt accepted.2.1 sent)))

theorem holding_written (accepted : Accepted regs pdu) (few : (wordSpan pdu).qty ≤ 65536) {i : Nat}
    (sent : i < (wordSpan pdu).qty) :
    (written regs pdu).holding.getD (((wordSpan pdu).addr.toNat + i) % 65536) 0 = (wordSpan pdu).value i := by
  have there := (isSome_holding regs _).mpr (wrapped_lt accepted.2.2 sent)
  have held := Span.cell_store_wrapped writes_holding few
    (s := { regs with coils := (coilSpan pdu).store writeCoil regs.coils }) sent there
  rw [Span.wrapped_toNat] at held
  rw [List.getD_eq_getElem?_getD, written, held, Option.getD_some]

theorem length_coils_written (few : (coilSpan pdu).qty ≤ 65536) :
    (written regs pdu).coils.length * 8 = regs.coils.length * 8 := by
  refine eq_of_forall_lt_iff fun a => ?_
  rw [coils_written, ← isSome_coilAt, ← isSome_coilAt, Span.isSome_cell_store coilAt_writeCoil few]

theorem length_holding_written (few : (wordSpan pdu).qty ≤ 65536) :
    (written regs pdu).holding.length = regs.holding.length := by
  refine eq_of_forall_lt_iff fun a => ?_
  rw [← isSome_holding, written, Span.isSome_cell_store writes_holding few, isSome_holding]

/-- A read that passes the checks is answered with the cells it addresses. -/
theorem dispatch_read_inside (regs : SlaveRegset) {fc : UInt8} (addr : UInt16) {n : Nat}
    (read : isReadCode fc = true) (some : 0 < n)
    (few : n ≤ (area regs fc).limit) (inside : addr.toNat + n ≤ (area regs fc).size) :
    (dispatchFull regs (fc :: (appendU16BE addr ++ appendU16BE (UInt16.ofNat n))) false).1 =
      { bytes := fc :: UInt8.ofNat ((area regs fc).data addr.toNat n).length :: (area regs fc).data addr.toNat n } := by
  have limit : (area regs fc).limit ≤ 2000 := by
    cases area regs fc with
    | bits _ => exact Nat.le_refl 2000
    | words _ => exact (by decide : 125 ≤ 2000)
  have qty : (UInt16.ofNat n).toNat = n := by
    rw [UInt16.toNat_ofNat']
    omega
  have asked : ¬(UInt16.ofNat n == 0 || decide ((area regs fc).limit < n)) = true := by
    rw [Bool.or_eq_true, not_or, beq_iff_eq, ← UInt16.toNat_inj, qty, decide_eq_true_eq]
    exact ⟨Nat.ne_of_gt some, Nat.not_lt.mpr few⟩
  refine (dispatch_read read).trans ?_
  rw [qty, if_neg asked, if_neg (Nat.not_lt.mpr inside)]

/-- A read of what was written finds it, whether or not the addresses wrapped. -/
theorem dispatch_readBack (write : isWriteCode (pdu.headD 0) = true) (accepted : Accepted regs pdu) :
    (dispatchFull (written regs pdu) (readBack pdu) false).1 =
      { bytes := (readBack pdu).headD 0 :: UInt8.ofNat (sentData pdu).length :: sentData pdu } := by
  obtain ⟨coilsFew, wordsFew⟩ := few_accepted write accepted
  obtain ⟨kind, some, few, -⟩ | ⟨kind, some, few, -⟩ := qty_accepted write accepted
  · have inside : (coilSpan pdu).Inside ((written regs pdu).coils.length * 8) := by
      rw [length_coils_written coilsFew]
      exact accepted.2.1
    have values : (area (written regs pdu) 0x01).data (coilSpan pdu).addr.toNat (coilSpan pdu).qty =
        packBits (coilSpan pdu).value (coilSpan pdu).qty :=
      packBits_congr fun i sent => bitAt_written accepted coilsFew sent
    rw [readBack, if_pos kind, sentData, if_pos kind]
    refine (dispatch_read_inside _ _ (show isReadCode 0x01 = true from rfl) some ?_ inside).trans ?_
    · exact few.trans (show 1968 ≤ 2000 by decide)
    · rw [values]
      rfl
  · have inside : (wordSpan pdu).Inside (written regs pdu).holding.length := by
      rw [length_holding_written wordsFew]
      exact accepted.2.2
    have values : (area (written regs pdu) 0x03).data (wordSpan pdu).addr.toNat (wordSpan pdu).qty =
        bytesOf ((List.range (wordSpan pdu).qty).map (wordSpan pdu).value) :=
      congrArg bytesOf (List.map_congr_left fun i member =>
        holding_written accepted wordsFew (List.mem_range.mp member))
    have other : ¬(pdu.headD 0 == 0x05 || pdu.headD 0 == 0x0F) = true := by
      rw [kind]
      exact Bool.false_ne_true
    rw [readBack, if_neg other, sentData, if_neg other]
    refine (dispatch_read_inside _ _ (show isReadCode 0x03 = true from rfl) some ?_ inside).trans ?_
    · exact few.trans (show 123 ≤ 125 by decide)
    · rw [values]
      rfl

end Requests

section Bank
variable {slaveId : UInt8} {bank : RegisterBank} {allSlaves : List UInt8} {regs : SlaveRegset} {pdu : List UInt8}

/-- A write is refused and nothing is published, or it is echoed, the slave's registers hold what was
sent where it was sent and nothing else has changed, and a read of the range returns it. -/
def WriteMeets (slaveId : UInt8) (bank : RegisterBank) (allSlaves pdu : List UInt8) : Prop :=
  let served := dispatchBySlaveId slaveId bank allSlaves pdu
  (∃ code, served = (some (exceptionPdu (pdu.headD 0) code), bank)) ∨
    (served.1 = some { bytes := pdu.take 5 } ∧
      (∀ other, other ≠ slaveId → served.2 other = bank other) ∧
      (∃ before after, bank slaveId = some before ∧ served.2 slaveId = some after ∧ Stores pdu before after) ∧
      (dispatchBySlaveId slaveId served.2 allSlaves (readBack pdu)).1 =
        some { bytes := (readBack pdu).headD 0 :: UInt8.ofNat (sentData pdu).length :: sentData pdu })

theorem dispatchBySlaveId_known (listed : slaveId ∈ allSlaves) (known : bank slaveId = some regs) (pdu : List UInt8) :
    dispatchBySlaveId slaveId bank allSlaves pdu =
      (some (serveSnapshot bank slaveId regs pdu).1, (serveSnapshot bank slaveId regs pdu).2) := by
  rw [dispatchBySlaveId, if_pos listed, RegisterBank.snapshot, known]

theorem dispatchBySlaveId_refused (listed : slaveId ∈ allSlaves) (known : bank slaveId = some regs)
    (write : isWriteCode (pdu.headD 0) = true) (refused : ¬Accepted regs pdu) :
    ∃ code, dispatchBySlaveId slaveId bank allSlaves pdu = (some (exceptionPdu (pdu.headD 0) code), bank) := by
  obtain ⟨accepted, -⟩ | ⟨-, code, answer⟩ := answers_write regs write
  · exact absurd accepted refused
  · refine ⟨code, ?_⟩
    simp only [dispatchBySlaveId_known listed known, serveSnapshot, write, answer]
    rfl

theorem dispatchBySlaveId_accepted (listed : slaveId ∈ allSlaves) (known : bank slaveId = some regs)
    (write : isWriteCode (pdu.headD 0) = true) (accepted : Accepted regs pdu) :
    dispatchBySlaveId slaveId bank allSlaves pdu =
      (some { bytes := pdu.take 5 }, bank.publish slaveId (written regs pdu)) := by
  obtain ⟨-, answer⟩ | ⟨refused, -⟩ := answers_write regs write
  · simp only [dispatchBySlaveId_known listed known, serveSnapshot, write, answer]
    rfl
  · exact absurd accepted refused

theorem isWriteCode_readBack (pdu : List UInt8) : isWriteCode ((readBack pdu).headD 0) = false := by
  rw [readBack]
  split <;> rfl

theorem dispatchBySlaveId_readBack (listed : slaveId ∈ allSlaves) (write : isWriteCode (pdu.headD 0) = true)
    (accepted : Accepted regs pdu) :
    (dispatchBySlaveId slaveId (bank.publish slaveId (written regs pdu)) allSlaves (readBack pdu)).1 =
      some { bytes := (readBack pdu).headD 0 :: UInt8.ofNat (sentData pdu).length :: sentData pdu } := by
  rw [dispatchBySlaveId_known listed (bank.publish_same slaveId _), serveSnapshot, isWriteCode_readBack,
    Bool.false_and, if_neg Bool.false_ne_true, dispatch_readBack write accepted]

theorem kept_of_meets (listed : slaveId ∈ allSlaves) (known : bank slaveId = some regs)
    (write : isWriteCode (pdu.headD 0) = true) (accepted : Accepted regs pdu)
    (meets : WriteMeets slaveId bank allSlaves pdu) : Kept regs pdu := by
  simp only [WriteMeets, dispatchBySlaveId_accepted listed known write accepted] at meets
  obtain ⟨code, refused⟩ | ⟨-, -, ⟨before, after, there, published, exact⟩, -⟩ := meets
  · cases congrArg (fun r => r.1.map DispatchResult.exception) refused
  · rw [RegisterBank.publish_same] at published
    obtain rfl := Option.some.inj (known.symm.trans there)
    obtain rfl := Option.some.inj published
    exact (stores_iff write accepted).mp exact

/-- Every write is carried out or refused as it should be, exactly when an accepted one has nothing
to lose at the end of the addresses. -/
theorem write_iff (listed : slaveId ∈ allSlaves) (known : bank slaveId = some regs)
    (write : isWriteCode (pdu.headD 0) = true) :
    WriteMeets slaveId bank allSlaves pdu ↔ (Accepted regs pdu → Kept regs pdu) := by
  constructor
  · exact fun meets accepted => kept_of_meets listed known write accepted meets
  · intro holds
    by_cases accepted : Accepted regs pdu
    · simp only [WriteMeets, dispatchBySlaveId_accepted listed known write accepted]
      refine Or.inr ⟨trivial, fun other apart => bank.publish_other _ apart, ?_, ?_⟩
      · exact ⟨regs, written regs pdu, known, bank.publish_same slaveId _,
          (stores_iff write accepted).mpr (holds accepted)⟩
      · exact dispatchBySlaveId_readBack listed write accepted
    · exact Or.inl (dispatchBySlaveId_refused listed known write accepted)

/-- Coils 2 and 3 are set. -/
def coilWrite : List UInt8 := [0x0F, 0x00, 0x02, 0x00, 0x02, 0x01, 0x03]

theorem write_iff_coils : WriteMeets 1 (fun _ => some { coils := [0x00] }) [1] coilWrite :=
  (write_iff (by decide) rfl (by decide)).mpr fun _ =>
    ⟨(coilSpan coilWrite).settled_of_inside (by decide) _, (wordSpan coilWrite).settled_of_inside (by decide) _⟩

/-- The registers of a slave with a point at address 65535. -/
def pastTopRegs : SlaveRegset := { holding := List.replicate 65551 0 }

/-- Registers 65535 and 65536 are to take 0 and 1. -/
def pastTopWrite : List UInt8 := [0x10, 0xFF, 0xFF, 0x00, 0x02, 0x04, 0x00, 0x00, 0x00, 0x01]

/-- Register 0 takes the 1, and register 65536 stays 0. -/
theorem write_fails : ¬WriteMeets 1 (fun _ => some pastTopRegs) [1] pastTopWrite := by
  intro meets
  have size : pastTopRegs.holding.length = 65551 := List.length_replicate
  have accepted : Accepted pastTopRegs pastTopWrite :=
    ⟨by decide, Nat.zero_le _, (show 65535 + 2 ≤ pastTopRegs.holding.length by rw [size]; decide)⟩
  have kept := kept_of_meets (List.mem_singleton.mpr rfl) rfl rfl accepted meets
  have sent : (wordSpan pastTopWrite).sent 65536 = some 1 := by decide
  have held := (kept.2 65536 1 sent (Nat.le_refl _)).1
  have zero : pastTopRegs.holding[65536]? = some 0 := List.getElem?_replicate_of_lt (by decide)
  cases zero.symm.trans held

end Bank
end EnerSentry.Sim
