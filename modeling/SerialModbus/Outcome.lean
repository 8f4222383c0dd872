import SerialModbus.Line

/-! What an exchange finds out about a slave: what the slave has to say, or a failure. -/
namespace SerialModbus.Exchange
open SerialModbus.Frame MbusSerialMasterProtocol

/- A request to one slave, whose answer has n bytes of data when it is no exception. -/
structure Asked (q : Frame) (n : Nat) : Prop where
  single : q.address ≠ 0
  some : 0 < n
  positive : ¬ q.function.toInt8 < 0
  fits : (Slave.order q.function q.data).replyLength = n

/- What the slaves have to say to a request. -/
def truth (slaves : UInt8 → Option Slave) (q : Frame) : Except Int (List UInt8) :=
  match slaves q.address with
  | none => .error FTALK_REPLY_TIMEOUT_ERROR
  | some s =>
      let answer := (s.answer q.function q.data).2
      if answer.1 = q.function then .ok answer.2
      else .error (FTALK_MBUS_EXCEPTION_RESPONSE + (answer.2.getD 0 0).toInt8.toInt)

theorem positiveMarked {b : UInt8} (positive : ¬ b.toInt8 < 0) : (b ||| 0x80) ≠ b :=
  @Hex.eachByte (fun b => ¬ b.toInt8 < 0 → (b ||| 0x80) ≠ b) (by decide +kernel) b positive

theorem heardParts {n : Nat} {received bytes : List UInt8} (some : 0 < n) (ok : heard n received = .ok bytes) :
    ∃ k, 0 < k ∧ bytes.length = 2 * k + 9 ∧ bytes = received.take (2 * k + 9) ∧
      (n = k ∨ k = 1 ∧ MbusAsciiMasterProtocol.normal bytes = false) := by
  unfold heard at ok
  split at ok <;> try contradiction
  rename_i many
  split at ok
  · split at ok <;> try contradiction
    rename_i more
    cases Except.ok.inj ok
    refine ⟨n, some, ?_, rfl, Or.inl rfl⟩
    rw [List.length_take]
    omega
  · rename_i stops
    cases Except.ok.inj ok
    refine ⟨1, Nat.one_pos, ?_, rfl, ?_⟩
    · rw [List.length_take]
      omega
    · cases said : MbusAsciiMasterProtocol.normal (received.take 11) with
      | false => exact Or.inr ⟨rfl, rfl⟩
      | true =>
        have few : ¬ 11 < 2 * n + 9 := fun more => stops ⟨said, more⟩
        exact Or.inl (by omega)

theorem distortShort (fault : Fault) (chars : List UInt8) : (fault.distort chars).length ≤ chars.length := by
  cases fault with
  | none => exact Nat.le_refl _
  | damaged i x => exact Nat.le_of_eq List.length_set
  | cut n => exact List.length_take_le' n chars
  | _ => exact Nat.zero_le _

/- What arrives in full length has one character changed at most. -/
theorem distortWhole {fault : Fault} {chars : List UInt8} (long : chars.length ≤ (fault.distort chars).length)
    (some : chars ≠ []) : ∃ i x, fault.distort chars = chars.set i x := by
  cases fault with
  | none => exact ⟨chars.length, 0, (List.set_eq_of_length_le (Nat.le_refl _)).symm⟩
  | damaged i x => exact ⟨i, x, rfl⟩
  | cut n =>
    replace long : chars.length ≤ (chars.take n).length := long
    rw [List.length_take] at long
    have all : chars.take n = chars := List.take_of_length_le (by omega)
    exact ⟨chars.length, 0, all.trans (List.set_eq_of_length_le (Nat.le_refl _)).symm⟩
  | _ => exact absurd (List.eq_nil_of_length_eq_zero (Nat.le_zero.mp long)) some

theorem distortDigit {fault : Fault} {chars : List UInt8} (kept : ∀ x, fault ≠ .damaged 3 x)
    (long : 3 < (fault.distort chars).length) :
    MbusAsciiMasterProtocol.normal (fault.distort chars) = MbusAsciiMasterProtocol.normal chars := by
  have same : (fault.distort chars).getD 3 0 = chars.getD 3 0 := by
    cases fault with
    | none => rfl
    | damaged i x =>
      have other : i ≠ 3 := fun three => kept x (by rw [three])
      simp only [Fault.distort, List.getD_eq_getElem?_getD, List.getElem?_set_ne other]
    | cut n =>
      replace long : 3 < (chars.take n).length := long
      rw [List.length_take] at long
      simp only [Fault.distort, List.getD_eq_getElem?_getD]
      rw [List.getElem?_take_of_lt (by omega)]
    | _ => exact absurd long (Nat.not_lt_zero 3)
  simp only [MbusAsciiMasterProtocol.normal, same]

theorem normalTake (chars : List UInt8) (k : Nat) :
    MbusAsciiMasterProtocol.normal (chars.take (2 * k + 9)) = MbusAsciiMasterProtocol.normal chars := by
  simp only [MbusAsciiMasterProtocol.normal, List.getD_eq_getElem?_getD]
  rw [List.getElem?_take_of_lt (by omega)]

theorem textNormal (m : Frame) (rest : List UInt8) :
    MbusAsciiMasterProtocol.normal (text m ++ rest) = false ↔ m.function.toInt8 < 0 :=
  MbusAsciiMasterProtocol.markedDigit

/- The answer of a slave has the length asked for, or is an exception. -/
theorem answered {q : Frame} {n : Nat} (asked : Asked q n) (s : Slave) :
    ((s.answer q.function q.data).2.1 = q.function ∧ (s.answer q.function q.data).2.2.length = n) ∨
      ∃ code, (code = 1 ∨ code = 2) ∧ s.answer q.function q.data = s.exception q.function code := by
  have cases := s.performCases q.function (Slave.order q.function q.data)
  rw [asked.fits] at cases
  exact cases

/- A frame that arrives in full, with a character changed at most, is the one that was
sent. -/
theorem arrived {m r : Frame} {fault : Fault} {k : Nat} {c d : UInt8} (count : m.data.length = k)
    (room : r.data.length ≤ k)
    (same : (fault.distort (text r ++ lineEnd)).take (2 * k + 9) = text m ++ [c, d]) : m = r := by
  have size : (text r ++ lineEnd).length = 2 * r.data.length + 9 := by
    rw [List.length_append, textLength]
    rfl
  have short := distortShort fault (text r ++ lineEnd)
  have whole := congrArg List.length same
  rw [List.length_take, List.length_append, textLength, count] at whole
  replace whole : min (2 * k + 9) (fault.distort (text r ++ lineEnd)).length = 2 * k + 9 := whole
  have equal : r.data.length = k := by omega
  obtain ⟨i, x, set⟩ := @distortWhole fault (text r ++ lineEnd) (by omega) (by simp [text])
  rw [List.take_of_length_le (by omega), set] at same
  exact MbusAsciiMasterProtocol.damagedSame (count.trans equal.symm) same

/- A text that is marked as an exception although the one sent was not has that digit
changed. -/
theorem markedChanged {m r : Frame} {fault : Fault} {k : Nat} {c d : UInt8} (positive : ¬ r.function.toInt8 < 0)
    (negative : m.function.toInt8 < 0)
    (same : (fault.distort (text r ++ lineEnd)).take (2 * k + 9) = text m ++ [c, d]) :
    ∃ x, fault = .damaged 3 x := by
  by_contra kept
  have whole := congrArg List.length same
  rw [List.length_take, List.length_append, textLength] at whole
  replace whole : min (2 * k + 9) _ = 2 * m.data.length + 9 := whole
  have digit := distortDigit (fun x differs => kept ⟨x, differs⟩)
    (show 3 < (fault.distort (text r ++ lineEnd)).length by omega)
  have front := normalTake (fault.distort (text r ++ lineEnd)) k
  rw [same, (textNormal m [c, d]).mpr negative, digit] at front
  exact positive ((textNormal r lineEnd).mp front.symm)

theorem noReply {slaves : UInt8 → Option Slave} {q : Frame} (absent : slaves q.address = none) :
    Line.reply slaves q = [] := by
  unfold Line.reply
  split
  · rfl
  · rw [absent]

theorem slaveReply {slaves : UInt8 → Option Slave} {q : Frame} {s : Slave} (single : q.address ≠ 0)
    (there : slaves q.address = some s) :
    Line.reply slaves q =
      text ⟨q.address, (s.answer q.function q.data).2.1, (s.answer q.function q.data).2.2⟩ ++ lineEnd := by
  unfold Line.reply
  rw [if_neg single, there]

/- A text that arrives is what the slave answered, or its digit that marks an exception
is another one. -/
theorem replyArrived {q m : Frame} {n k : Nat} {fault : Fault} {slaves : UInt8 → Option Slave} {c d : UInt8}
    (asked : Asked q n) (some : 0 < k) (count : m.data.length = k)
    (fits : n = k ∨ k = 1 ∧ m.function.toInt8 < 0)
    (same : (incoming fault slaves q).take (2 * k + 9) = text m ++ [c, d]) :
    ∃ s, slaves q.address = .some s ∧
      ((s.answer q.function q.data).2 = (m.function, m.data) ∨ ∃ x, fault = .damaged 3 x ∧ m.function.toInt8 < 0) := by
  unfold incoming at same
  cases there : slaves q.address with
  | none =>
    rw [noReply there] at same
    have short := distortShort fault []
    have none := List.eq_nil_of_length_eq_zero (Nat.le_zero.mp short)
    rw [none] at same
    simp [text] at same
  | some s =>
    refine ⟨s, rfl, ?_⟩
    rw [slaveReply asked.single there] at same
    by_cases room : (s.answer q.function q.data).2.2.length ≤ k
    · have found := arrived count room same
      exact Or.inl (by rw [found])
    · rcases answered asked s with ⟨plain, size⟩ | ⟨code, _, refused⟩
      · have marked : k = 1 ∧ m.function.toInt8 < 0 := fits.resolve_left (by omega)
        have positive : ¬ (s.answer q.function q.data).2.1.toInt8 < 0 := by
          rw [plain]
          exact asked.positive
        obtain ⟨x, changed⟩ := @markedChanged m
          ⟨q.address, (s.answer q.function q.data).2.1, (s.answer q.function q.data).2.2⟩ fault k c d positive
          marked.2 same
        exact Or.inr ⟨x, changed, marked.2⟩
      · rw [refused] at room
        exact absurd some room

/- An exchange finds out what the slaves have to say, or asks to be tried again, unless
it could not be sent or the digit that marks an exception is the one that changed. -/
theorem outcomeCases {q : Frame} {n : Nat} (asked : Asked q n) (fault : Fault) (slaves : UInt8 → Option Slave) :
    outcome fault slaves q n = truth slaves q ∨ again (outcome fault slaves q n) = true ∨
      (fault = .blocked ∧ outcome fault slaves q n = .error FTALK_SEND_TIMEOUT_ERROR) ∨
      ((∃ x, fault = .damaged 3 x) ∧ ∃ e, outcome fault slaves q n = .error e) := by
  unfold outcome
  split
  · rename_i blocked
    exact Or.inr (Or.inr (Or.inl ⟨blocked, rfl⟩))
  · rw [if_neg (not_or.mpr ⟨asked.single, Nat.pos_iff_ne_zero.mp asked.some⟩)]
    cases received : heard n (incoming fault slaves q) with
    | error e =>
      refine Or.inr (Or.inl ?_)
      unfold heard at received
      split at received
      · cases received
        rfl
      · split at received <;> try contradiction
        split at received <;> try contradiction
        cases received
        rfl
    | ok bytes =>
      obtain ⟨k, some, size, taken, fits⟩ := heardParts asked.some received
      have judged := MbusAsciiMasterProtocol.checkJudged size some (fits.imp_right And.right) q.address q.function
      dsimp only
      generalize MbusAsciiMasterProtocol.check q.address q.function n bytes = result at judged
      cases judged with
      | refused e retried => exact Or.inr (Or.inl retried)
      | exception marked data c d count negative mine same =>
        obtain ⟨s, there, said⟩ := replyArrived (m := ⟨q.address, marked, data⟩) asked some count
          (fits.imp_right (fun short => ⟨short.1, negative⟩)) (taken.symm.trans same)
        rcases said with answer | ⟨x, changed, _⟩
        · refine Or.inl ?_
          have other : marked ≠ q.function := fun plain => asked.positive (plain ▸ negative)
          simp only [truth, there, answer, if_neg other]
        · exact Or.inr (Or.inr (Or.inr ⟨⟨x, changed⟩, _, rfl⟩))
      | accepted data c d count positive same =>
        have plain : n = k := fits.resolve_right (by
          rintro ⟨_, marked⟩
          rw [same] at marked
          exact positive ((textNormal ⟨q.address, q.function, data⟩ [c, d]).mp marked))
        obtain ⟨s, there, said⟩ := replyArrived (m := ⟨q.address, q.function, data⟩) asked some count
          (Or.inl plain) (taken.symm.trans same)
        rcases said with answer | ⟨x, _, negative⟩
        · refine Or.inl ?_
          simp only [truth, there, answer, if_true]
        · exact absurd negative positive

theorem heardText {m : Frame} {n : Nat} (some : 0 < n)
    (fits : (m.data.length = n ∧ ¬ m.function.toInt8 < 0) ∨ (m.data.length = 1 ∧ m.function.toInt8 < 0)) :
    heard n (text m ++ lineEnd) = .ok (text m ++ lineEnd) := by
  have size : (text m ++ lineEnd).length = 2 * m.data.length + 9 := by
    rw [List.length_append, textLength]
    rfl
  have first := normalTake (text m ++ lineEnd) 1
  have marked := textNormal m lineEnd
  unfold heard
  rw [first, if_neg (by omega)]
  rcases fits with ⟨count, positive⟩ | ⟨count, negative⟩
  · have plain := Bool.eq_true_of_not_eq_false (mt marked.mp positive)
    by_cases more : 11 < 2 * n + 9
    · rw [if_pos ⟨plain, more⟩, if_neg (by omega), List.take_of_length_le (by omega)]
    · rw [if_neg (fun both => more both.2), List.take_of_length_le (by omega)]
  · rw [marked.mpr negative, if_neg (fun both => Bool.false_ne_true both.1), List.take_of_length_le (by omega)]

/- Without a fault it does find out. -/
theorem outcomeIntact {q : Frame} {n : Nat} (asked : Asked q n) (slaves : UInt8 → Option Slave) :
    outcome .none slaves q n = truth slaves q := by
  have plain : incoming .none slaves q = Line.reply slaves q := rfl
  unfold outcome truth
  rw [if_neg (by simp), if_neg (not_or.mpr ⟨asked.single, Nat.pos_iff_ne_zero.mp asked.some⟩), plain]
  cases there : slaves q.address with
  | none =>
    rw [noReply there]
    rfl
  | some s =>
    rw [slaveReply asked.single there]
    dsimp only
    rcases answered asked s with ⟨same, size⟩ | ⟨code, _, refused⟩
    · generalize s.answer q.function q.data = answer at same size
      obtain ⟨t, function, data⟩ := answer
      dsimp only at same size ⊢
      subst same
      have accepted := MbusAsciiMasterProtocol.checkAccepts size asked.positive q.address 0x0D 0x0A
      rw [@heardText ⟨q.address, q.function, data⟩ n asked.some (Or.inl ⟨size, asked.positive⟩), if_pos rfl]
      exact accepted
    · have marked : (q.function ||| 0x80).toInt8 < 0 :=
        @Hex.eachByte (fun b => (b ||| 0x80).toInt8 < 0) (by decide +kernel) q.function
      have other : (s.exception q.function code).2.1 ≠ q.function := positiveMarked asked.positive
      have read := @heardText ⟨q.address, (s.exception q.function code).2.1, (s.exception q.function code).2.2⟩ n
        asked.some (Or.inr ⟨rfl, marked⟩)
      rw [refused, read, if_neg other]
      exact MbusAsciiMasterProtocol.exceptionReported q.address q.function code 0x0D 0x0A asked.positive n

/- Data comes back from a slave that has heard the request. -/
theorem okHeard {q : Frame} {n : Nat} (asked : Asked q n) {fault : Fault} {slaves : UInt8 → Option Slave}
    {data : List UInt8} (ok : outcome fault slaves q n = .ok data) : Heard fault ∧ truth slaves q = .ok data := by
  have cases := outcomeCases asked fault slaves
  rw [ok] at cases
  constructor
  · constructor
    · rintro rfl
      cases ok
    · rintro rfl
      unfold outcome at ok
      rw [if_neg (by simp), if_neg (not_or.mpr ⟨asked.single, Nat.pos_iff_ne_zero.mp asked.some⟩)] at ok
      cases ok
  · rcases cases with found | retried | ⟨_, failed⟩ | ⟨_, e, failed⟩
    · exact found.symm
    · cases retried
    · cases failed
    · cases failed

end SerialModbus.Exchange
