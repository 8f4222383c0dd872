import Mathlib.Data.List.GetD
import SerialModbus.Frame
import SerialModbus.Protocol

/-! The ASCII protocol (MbusAsciiMasterProtocol.cpp). A reply is decoded in the buffer
that it was received in. -/
namespace SerialModbus.MbusAsciiMasterProtocol
open Hex SerialModbus.Frame

def HDR_LEN : Nat := 1 + 2 * 2
def FRAME_LEN : Nat := HDR_LEN + 1 * 2 + 2
def EXC_MSG_LEN : Nat := FRAME_LEN + 1 * 2

def assemble (address function : UInt8) (sendData : List UInt8) : List UInt8 :=
  let checkSum := sendData.foldl (· + ·) (0 + address + function)
  let checkSum := -checkSum
  [':'.toUInt8, hiNibbletoHex address, loNibbletoHex address, hiNibbletoHex function, loNibbletoHex function] ++
    sendData.flatMap (fun b => [hiNibbletoHex b, loNibbletoHex b]) ++
    [hiNibbletoHex checkSum, loNibbletoHex checkSum, 0x0D, 0x0A]

/- Any function code > 0x80 is an exception msg. -/
def normal (bufferArr : List UInt8) : Bool := (bufferArr.getD 3 0).toInt8 < '8'.toUInt8.toInt8

/- for (i = 0; i < bytesToDecode; i++, idx += 2), with i behind idx in one buffer -/
def decodeLoop : Nat → Nat → UInt8 → List UInt8 → Option (UInt8 × List UInt8)
  | 0, _, checkSum, bufferArr => some (checkSum, bufferArr)
  | n + 1, i, checkSum, bufferArr => do
      let decodedByte ← hexToByte (bufferArr.getD (2 * i + 1) 0) (bufferArr.getD (2 * i + 2) 0)
      decodeLoop n (i + 1) (checkSum + decodedByte) (bufferArr.set i decodedByte)

/- The sum of the decoded bytes, and the buffer with them and the checksum in front. -/
def decodeBuffer (bytesToDecode : Nat) (bufferArr : List UInt8) : Option (UInt8 × List UInt8) :=
  if bufferArr.getD 0 0 ≠ colon then none
  else do
    let (checkSum, bufferArr) ← decodeLoop bytesToDecode 0 0 bufferArr
    let idx := 1 + 2 * bytesToDecode
    let decodedByte ← hexToByte (bufferArr.getD idx 0) (bufferArr.getD (idx + 1) 0)
    some (checkSum, bufferArr.set bytesToDecode decodedByte)

/- From the comment "Check frame" on; last is the byte after the decoded ones. -/
def checkFrame (address function : UInt8) (rcvDataLen : Nat) (checkSum last : UInt8) (bufferArr : List UInt8) :
    Except Int (List UInt8) :=
  if -checkSum ≠ last then .error FTALK_CHECKSUM_ERROR
  else if (bufferArr.getD 1 0 &&& 0x7F) ≠ function ∨ bufferArr.getD 0 0 ≠ address then
    .error FTALK_INVALID_FRAME_ERROR
  else if (bufferArr.getD 1 0).toInt8 < 0 then
    .error (FTALK_MBUS_EXCEPTION_RESPONSE + (bufferArr.getD 2 0).toInt8.toInt)
  else .ok ((bufferArr.drop 2).take rcvDataLen)

def check (address function : UInt8) (rcvDataLen : Nat) (bufferArr : List UInt8) : Except Int (List UInt8) :=
  let bytesToDecode := (bufferArr.length - 3) / 2 - 1
  match decodeBuffer bytesToDecode bufferArr with
  | none => .error FTALK_INVALID_FRAME_ERROR
  | some (checkSum, bufferArr) =>
      checkFrame address function rcvDataLen checkSum (bufferArr.getD bytesToDecode 0) bufferArr

def ascii : Framing where
  assemble := assemble
  EXC_MSG_LEN := EXC_MSG_LEN
  bytesExpected := fun rcvDataLen => rcvDataLen * 2 + FRAME_LEN
  normal := normal
  check := check

/-! A request is the text of its message. -/

theorem foldSum (bytes : List UInt8) (start : UInt8) : bytes.foldl (· + ·) start = start + bytes.sum := by
  induction bytes generalizing start with
  | nil => exact (add_zero start).symm
  | cons b rest ih => rw [List.foldl_cons, ih, List.sum_cons, add_assoc]

theorem assembleText (address function : UInt8) (sendData : List UInt8) :
    assemble address function sendData = text ⟨address, function, sendData⟩ ++ lineEnd := by
  have sums : -(sendData.foldl (· + ·) (0 + address + function)) = lrc ⟨address, function, sendData⟩ := by
    rw [foldSum, lrc, body, List.sum_cons, List.sum_cons, zero_add, add_assoc]
  have coded : encode (sealed ⟨address, function, sendData⟩) =
      hiNibbletoHex address :: loNibbletoHex address :: hiNibbletoHex function :: loNibbletoHex function ::
        (encode sendData ++ encode [lrc ⟨address, function, sendData⟩]) := by
    rw [sealed, encodeAppend]
    rfl
  have pairs : sendData.flatMap (fun b => [hiNibbletoHex b, loNibbletoHex b]) = encode sendData := rfl
  simp only [assemble, text, sums, coded, pairs]
  simp [lineEnd, colon]

/-! Decoding where the text stands gives what decoding it elsewhere gives: what is
overwritten has been read. -/

theorem unread (done whole : List UInt8) (j : Nat) (behind : done.length ≤ j) :
    (done ++ whole.drop done.length).getD j 0 = whole.getD j 0 := by
  rw [List.getD_append_right _ _ _ _ behind, List.getD_eq_getElem?_getD, List.getElem?_drop,
    Nat.add_sub_cancel' behind, List.getD_eq_getElem?_getD]

theorem written (done whole : List UInt8) (b : UInt8) (room : done.length < whole.length) :
    (done ++ whole.drop done.length).set done.length b = done ++ [b] ++ whole.drop (done ++ [b]).length := by
  rw [List.set_append_right _ _ (Nat.le_refl _), Nat.sub_self, List.drop_eq_getElem_cons room,
    List.set_cons_zero, List.append_assoc, List.length_append]
  rfl

theorem decodeLoopPlain (n : Nat) (checkSum : UInt8) (done whole : List UInt8)
    (room : 2 * (done.length + n) + 1 ≤ whole.length) :
    decodeLoop n done.length checkSum (done ++ whole.drop done.length) =
      (decode ((whole.drop (2 * done.length + 1)).take (2 * n))).map
        (fun bytes => (checkSum + bytes.sum, done ++ bytes ++ whole.drop (done ++ bytes).length)) := by
  induction n generalizing checkSum done with
  | zero => simp [decodeLoop, decode]
  | succ n ih =>
    have first : 2 * done.length + 1 < whole.length := by omega
    have second : 2 * done.length + 1 + 1 < whole.length := by omega
    have pair : (whole.drop (2 * done.length + 1)).take (2 * (n + 1)) =
        whole.getD (2 * done.length + 1) 0 :: whole.getD (2 * done.length + 2) 0 ::
          (whole.drop (2 * (done.length + 1) + 1)).take (2 * n) := by
      rw [List.drop_eq_getElem_cons first, List.drop_eq_getElem_cons second, Nat.mul_add,
        List.getD_eq_getElem _ _ first, List.getD_eq_getElem _ _ second]
      rfl
    rw [decodeLoop, unread _ _ _ (by omega), unread _ _ _ (by omega), pair, decode]
    cases hexToByte (whole.getD (2 * done.length + 1) 0) (whole.getD (2 * done.length + 2) 0) with
    | none => rfl
    | some b =>
      have next := ih (checkSum + b) (done ++ [b]) (by rw [List.length_append]; simp; omega)
      rw [List.length_append, List.length_singleton] at next
      simp only [bind, Option.bind_some]
      rw [written _ _ _ (by omega), List.length_append, List.length_singleton, next]
      cases decode ((whole.drop (2 * (done.length + 1) + 1)).take (2 * n)) with
      | none => rfl
      | some bytes => simp [add_assoc]

/- The characters after the colon, and the last byte decoded apart from the others. -/
theorem decodeBufferPlain (k : Nat) (bufferArr : List UInt8) (room : 2 * k + 3 ≤ bufferArr.length) :
    decodeBuffer k bufferArr =
      if bufferArr.getD 0 0 = colon then
        (decode ((bufferArr.drop 1).take (2 * (k + 1)))).map
          (fun bytes => ((bytes.take k).sum, bytes ++ bufferArr.drop (k + 1)))
      else none := by
  unfold decodeBuffer
  by_cases begun : bufferArr.getD 0 0 = colon
  · have split : (bufferArr.drop 1).take (2 * (k + 1)) =
        (bufferArr.drop 1).take (2 * k) ++ [bufferArr.getD (1 + 2 * k) 0, bufferArr.getD (1 + 2 * k + 1) 0] := by
      have first : 1 + 2 * k < bufferArr.length := by omega
      have second : 1 + 2 * k + 1 < bufferArr.length := by omega
      rw [Nat.mul_add, List.take_add, List.drop_drop, List.drop_eq_getElem_cons first,
        List.drop_eq_getElem_cons second, List.getD_eq_getElem _ _ first, List.getD_eq_getElem _ _ second]
      rfl
    have loop := decodeLoopPlain k 0 [] bufferArr (by simp; omega)
    simp only [List.length_nil, List.drop_zero, List.nil_append, zero_add, Nat.mul_zero] at loop
    rw [if_neg (not_not.mpr begun), if_pos begun, loop, split]
    cases decoded : decode ((bufferArr.drop 1).take (2 * k)) with
    | none => rw [decodeSnoc, decoded]; rfl
    | some bytes =>
      have count : bytes.length = k := by
        have spread := decodeLength decoded
        simp at spread
        omega
      have behind : bytes.length ≤ 1 + 2 * k := by omega
      simp only [Option.map_some, bind, Option.bind_some]
      rw [unread _ _ _ behind, unread _ _ _ (by omega), decodeSnoc, decoded]
      cases hexToByte (bufferArr.getD (1 + 2 * k) 0) (bufferArr.getD (1 + 2 * k + 1) 0) with
      | none => rfl
      | some last =>
        have put := written bytes bufferArr last (by omega)
        rw [List.length_append, List.length_singleton] at put
        subst count
        simp only [Option.bind_some, Option.map_some, put, List.take_left]
  · rw [if_pos begun, if_neg begun]

/-! What a reply must be to be accepted. -/

theorem maskPositive : ∀ b : UInt8, ¬ b.toInt8 < 0 → b &&& 0x7F = b :=
  @eachByte (fun b => ¬ b.toInt8 < 0 → b &&& 0x7F = b) (by decide +kernel)

theorem exceptionDigit : ∀ b : UInt8, (hiNibbletoHex b).toInt8 < '8'.toUInt8.toInt8 ↔ ¬ b.toInt8 < 0 :=
  @eachByte (fun b => (hiNibbletoHex b).toInt8 < '8'.toUInt8.toInt8 ↔ ¬ b.toInt8 < 0) (by decide +kernel)

theorem reported (code : UInt8) : FTALK_MBUS_EXCEPTION_RESPONSE + code.toInt8.toInt ≠ FTALK_SUCCESS :=
  @eachByte (fun b => FTALK_MBUS_EXCEPTION_RESPONSE + b.toInt8.toInt ≠ FTALK_SUCCESS) (by decide +kernel) code

/- A buffer of k + 1 bytes as text, with the colon and a line end. -/
theorem checkDecoded {k : Nat} {chars : List UInt8} {c d : UInt8} (count : chars.length = 2 * (k + 1))
    (begun : UInt8) (address function : UInt8) (rcvDataLen : Nat) :
    check address function rcvDataLen (begun :: chars ++ [c, d]) =
      if begun = colon then
        match decode chars with
        | none => .error FTALK_INVALID_FRAME_ERROR
        | some bytes =>
            checkFrame address function rcvDataLen (bytes.take k).sum (bytes.getD k 0)
              (bytes ++ (begun :: chars ++ [c, d]).drop (k + 1))
      else .error FTALK_INVALID_FRAME_ERROR := by
  have size : (begun :: chars ++ [c, d]).length = 2 * k + 5 := by
    simp
    omega
  have toDecode : ((begun :: chars ++ [c, d]).length - 3) / 2 - 1 = k := by omega
  have body : ((begun :: chars ++ [c, d]).drop 1).take (2 * (k + 1)) = chars := by
    rw [← count]
    simp
  have head : (begun :: chars ++ [c, d]).getD 0 0 = begun := rfl
  have plain := decodeBufferPlain k (begun :: chars ++ [c, d]) (by omega)
  rw [body, head] at plain
  simp only [check, toDecode, plain]
  by_cases first : begun = colon
  · simp only [if_pos first]
    cases decoded : decode chars with
    | none => rfl
    | some bytes =>
      have long : bytes.length = k + 1 := by
        have same := decodeLength decoded
        omega
      have last : (bytes ++ (begun :: chars ++ [c, d]).drop (k + 1)).getD k 0 = bytes.getD k 0 :=
        List.getD_append _ _ _ _ (by omega)
      simp only [Option.map_some, last]
  · simp only [if_neg first]

theorem replyParts {k : Nat} {reply : List UInt8} (size : reply.length = k + 3) :
    ∃ begun chars c d, reply = begun :: chars ++ [c, d] ∧ chars.length = k := by
  obtain ⟨begun, rest, rfl⟩ := List.exists_cons_of_length_eq_add_one size
  have long : rest.length = k + 2 := by simpa using size
  refine ⟨begun, rest.take k, rest[k], rest[k + 1], ?_, by simp [long]⟩
  have last : rest.drop k = [rest[k], rest[k + 1]] := by
    rw [List.drop_eq_getElem_cons (by omega), List.drop_eq_getElem_cons (by omega),
      List.drop_eq_nil_of_le (by omega)]
  rw [List.cons_append, ← last, List.take_append_drop]

theorem bytesParts {n : Nat} {bytes : List UInt8} (size : bytes.length = n + 3) :
    ∃ x y middle last, bytes = x :: y :: (middle ++ [last]) ∧ middle.length = n := by
  obtain ⟨x, rest, rfl⟩ := List.exists_cons_of_length_eq_add_one size
  obtain ⟨y, more, rfl⟩ := List.exists_cons_of_length_eq_add_one (show rest.length = n + 1 + 1 by simpa using size)
  obtain ⟨middle, last, rfl⟩ := (List.eq_nil_or_concat more).resolve_left (by
    intro empty
    simp [empty] at size)
  exact ⟨x, y, middle, last, by simp, by simpa using size⟩

/- What a reply with k data bytes is judged to be. -/
inductive Judged (address function : UInt8) (k : Nat) (reply : List UInt8) : Except Int (List UInt8) → Prop where
  | refused (e : Int) (retried : MbusSerialMasterProtocol.again (.error e) = true) :
      Judged address function k reply (.error e)
  | exception (marked : UInt8) (data : List UInt8) (c d : UInt8) (count : data.length = k)
      (negative : marked.toInt8 < 0) (mine : marked &&& 0x7F = function)
      (same : reply = text ⟨address, marked, data⟩ ++ [c, d]) :
      Judged address function k reply (.error (FTALK_MBUS_EXCEPTION_RESPONSE + (data.getD 0 0).toInt8.toInt))
  | accepted (data : List UInt8) (c d : UInt8) (count : data.length = k) (positive : ¬ function.toInt8 < 0)
      (same : reply = text ⟨address, function, data⟩ ++ [c, d]) : Judged address function k reply (.ok data)

theorem markedDigit {begun lo hi : UInt8} {y : UInt8} {rest : List UInt8} :
    normal (begun :: hi :: lo :: hiNibbletoHex y :: rest) = false ↔ y.toInt8 < 0 := by
  have digit : (begun :: hi :: lo :: hiNibbletoHex y :: rest).getD 3 0 = hiNibbletoHex y := rfl
  rw [normal, digit, decide_eq_false_iff_not, exceptionDigit, not_not]

theorem checkJudged {k n : Nat} {reply : List UInt8} (size : reply.length = 2 * k + 9) (some : 0 < k)
    (fits : n = k ∨ normal reply = false) (address function : UInt8) :
    Judged address function k reply (check address function n reply) := by
  obtain ⟨begun, chars, c, d, rfl, count⟩ := @replyParts (2 * (k + 2 + 1)) reply (by omega)
  rw [checkDecoded count]
  split
  · rename_i first
    split
    · exact .refused _ rfl
    · rename_i bytes decoded
      have spread := decodeLength decoded
      have long : bytes.length = k + 3 := by omega
      obtain ⟨x, y, data, last, rfl, rfl⟩ := bytesParts long
      have coded := (decodeExact _ _).mp decoded
      have marked : normal (begun :: chars ++ [c, d]) = false ↔ y.toInt8 < 0 := by
        rw [coded]
        exact markedDigit
      have front : (x :: y :: (data ++ [last])).take (data.length + 2) = x :: y :: data := by simp
      have back : (x :: y :: (data ++ [last])).getD (data.length + 2) 0 = last := by simp
      rw [front, back]
      unfold checkFrame
      split
      · exact .refused _ rfl
      · rename_i sound
        split
        · exact .refused _ rfl
        · rename_i mine
          rw [not_or, not_not, not_not] at mine
          obtain ⟨masked, rfl⟩ := mine
          have sums : (x :: y :: (data ++ [last])).sum = 0 := by
            have zero := neg_eq_iff_add_eq_zero.mp (not_not.mp sound)
            rw [← zero]
            simp [add_assoc]
          have whole := (sealedExact x y data last).mp sums
          have same : begun :: chars ++ [c, d] = text ⟨x, y, data⟩ ++ [c, d] := by
            rw [coded, whole, first, text]
          split
          · rename_i negative
            have code : (x :: y :: (data ++ [last]) ++ (begun :: chars ++ [c, d]).drop (data.length + 2 + 1)).getD 2 0 =
                data.getD 0 0 := by
              show (data ++ [last] ++ _).getD 0 0 = _
              rw [List.append_assoc, List.getD_append _ _ _ _ some]
            rw [code]
            exact .exception y data c d rfl negative masked same
          · rename_i positive
            have equal : n = data.length := fits.resolve_right (mt marked.mp positive)
            have kept : ((x :: y :: (data ++ [last]) ++ (begun :: chars ++ [c, d]).drop (data.length + 2 + 1)).drop
                2).take n = data := by
              rw [equal]
              simp
            have plain : y = function := (maskPositive y positive).symm.trans masked
            rw [kept]
            subst plain
            exact .accepted data c d rfl positive same
  · exact .refused _ rfl

/- The text of a message with this address and function gives its data. -/
theorem checkAccepts {n : Nat} {function : UInt8} {data : List UInt8} (count : data.length = n)
    (positive : ¬ function.toInt8 < 0) (address c d : UInt8) :
    check address function n (text ⟨address, function, data⟩ ++ [c, d]) = .ok data := by
  have long : (encode (sealed ⟨address, function, data⟩)).length = 2 * (n + 2 + 1) := by
    simp only [sealed, body, encodeLength, List.length_append, List.length_cons, List.length_nil, count]
  have shape : sealed ⟨address, function, data⟩ =
      address :: function :: (data ++ [lrc ⟨address, function, data⟩]) := rfl
  have front : (sealed ⟨address, function, data⟩).take (n + 2) = body ⟨address, function, data⟩ := by
    rw [← count]
    simp [shape, body]
  have back : (sealed ⟨address, function, data⟩).getD (n + 2) 0 = lrc ⟨address, function, data⟩ := by
    rw [← count]
    simp [shape]
  have kept : ∀ rest, ((sealed ⟨address, function, data⟩ ++ rest).drop 2).take n = data := by
    intro rest
    rw [← count]
    simp [shape]
  have one : ∀ rest, (sealed ⟨address, function, data⟩ ++ rest).getD 1 0 = function := fun _ => rfl
  have zero : ∀ rest, (sealed ⟨address, function, data⟩ ++ rest).getD 0 0 = address := fun _ => rfl
  have balance : -(body ⟨address, function, data⟩).sum = lrc ⟨address, function, data⟩ := rfl
  rw [text, checkDecoded long, if_pos rfl, (decodeExact _ _).mpr rfl]
  simp only [checkFrame, front, back, kept, one, zero, balance, maskPositive function positive, ne_eq,
    not_true_eq_false, or_self, if_false, positive]

/- A reply of the length that was asked for is accepted when it is the text of a message
with this address and function, whatever its last two characters are. -/
theorem checkExact {n : Nat} {reply : List UInt8} {function : UInt8} (size : reply.length = 2 * n + 9)
    (some : 0 < n) (positive : ¬ function.toInt8 < 0) (address : UInt8) (data : List UInt8) :
    check address function n reply = .ok data ↔
      data.length = n ∧ ∃ c d, reply = text ⟨address, function, data⟩ ++ [c, d] := by
  constructor
  · intro ok
    have judged := checkJudged size some (Or.inl rfl) address function
    rw [ok] at judged
    cases judged with
    | accepted data c d count positive same => exact ⟨count, c, d, same⟩
  · rintro ⟨count, c, d, rfl⟩
    exact checkAccepts count positive address c d

theorem checkExactOne : check 7 3 1 (text ⟨7, 3, [5]⟩ ++ [0, 9]) = .ok [5] ↔
    [(5 : UInt8)].length = 1 ∧ ∃ c d, text ⟨7, 3, [5]⟩ ++ [0, 9] = text ⟨7, 3, [5]⟩ ++ [c, d] :=
  checkExact rfl (by decide) (by decide) 7 [5]

/- Whatever the port and what is behind it do: data that a message comes back with was
received, after the request of one of its attempts, as the text of one whole message with
its address and its function. -/
theorem replyGenuine {δ : Type} (w : Win32 δ) {address function : UInt8} {sendData data : List UInt8} {n : Nat}
    {m : MbusSerialMasterProtocol δ} (single : address ≠ 0) (some : 0 < n) (positive : ¬ function.toInt8 < 0)
    (ok : (MbusSerialMasterProtocol.deliverMessage w ascii address function sendData n m).1 = .ok data) :
    data.length = n ∧ ∃ k ≤ m.retryCnt.toNat, ∃ c d,
      MbusSerialMasterProtocol.Received w ascii address function sendData n m k
        (text ⟨address, function, data⟩ ++ [c, d])
        (MbusSerialMasterProtocol.deliverMessage w ascii address function sendData n m).2.serialPort := by
  obtain ⟨k, within, bytes, ⟨p, sent, gave⟩, judged⟩ := MbusSerialMasterProtocol.deliverReceived w ascii
    (not_or.mpr ⟨single, Nat.pos_iff_ne_zero.mp some⟩) ok
  replace judged : check address function n bytes = .ok data := judged
  have sizes : ∃ k, 0 < k ∧ bytes.length = 2 * k + 9 ∧ (n = k ∨ normal bytes = false) := by
    rcases MbusSerialMasterProtocol.receiveReplyLength w ascii (congrArg Prod.fst gave) with
      ⟨short, marked | few⟩ | ⟨long, _, _⟩
    · exact ⟨1, Nat.one_pos, short, Or.inr marked⟩
    · replace few : n * 2 + 9 ≤ 11 := few
      exact ⟨1, Nat.one_pos, short, Or.inl (by omega)⟩
    · replace long : bytes.length = n * 2 + 9 := long
      exact ⟨n, some, by omega, Or.inl rfl⟩
  obtain ⟨i, more, size, fits⟩ := sizes
  have found := checkJudged size more fits address function
  rw [judged] at found
  cases found with
  | accepted data c d count _ same =>
    -- a text that is marked as an exception has another function
    have plain : normal bytes ≠ false := by
      rw [same]
      exact fun marked => positive (markedDigit.mp marked)
    exact ⟨count.trans (fits.resolve_right plain).symm, k, within, c, d, p, sent, same ▸ gave⟩

/- No failure has the code of success. -/
theorem checkFails {address function : UInt8} {n : Nat} {reply : List UInt8} {e : Int}
    (failed : check address function n reply = .error e) : e ≠ FTALK_SUCCESS := by
  unfold check at failed
  dsimp only at failed
  split at failed
  · cases failed
    decide
  · unfold checkFrame at failed
    split at failed
    · cases failed
      decide
    · split at failed
      · cases failed
        decide
      · split at failed <;> try contradiction
        cases failed
        exact reported _

/- The text of an exception gives its code, unless it reads as negative, when it lowers
the result. -/
theorem exceptionReported (address function code c d : UInt8) (positive : ¬ function.toInt8 < 0) (n : Nat) :
    check address function n (text ⟨address, function ||| 0x80, [code]⟩ ++ [c, d]) =
      .error (FTALK_MBUS_EXCEPTION_RESPONSE + code.toInt8.toInt) := by
  have masked : (function ||| 0x80) &&& 0x7F = function :=
    @eachByte (fun b => ¬ b.toInt8 < 0 → (b ||| 0x80) &&& 0x7F = b) (by decide +kernel) function positive
  have negative : (function ||| 0x80).toInt8 < 0 :=
    @eachByte (fun b => (b ||| 0x80).toInt8 < 0) (by decide +kernel) function
  have count : (encode (sealed ⟨address, function ||| 0x80, [code]⟩)).length = 2 * (3 + 1) := by
    simp [sealed, body]
  have balance : -(body ⟨address, function ||| 0x80, [code]⟩).sum = lrc ⟨address, function ||| 0x80, [code]⟩ := rfl
  rw [text, checkDecoded count, if_pos rfl, (decodeExact _ _).mpr rfl]
  have front : (sealed ⟨address, function ||| 0x80, [code]⟩).take 3 = body ⟨address, function ||| 0x80, [code]⟩ := rfl
  have back : (sealed ⟨address, function ||| 0x80, [code]⟩).getD 3 0 = lrc ⟨address, function ||| 0x80, [code]⟩ := rfl
  have one : ∀ rest, (sealed ⟨address, function ||| 0x80, [code]⟩ ++ rest).getD 1 0 = function ||| 0x80 :=
    fun _ => rfl
  have zero : ∀ rest, (sealed ⟨address, function ||| 0x80, [code]⟩ ++ rest).getD 0 0 = address := fun _ => rfl
  have two : ∀ rest, (sealed ⟨address, function ||| 0x80, [code]⟩ ++ rest).getD 2 0 = code := fun _ => rfl
  simp only [checkFrame, front, back, one, zero, two, balance, masked, ne_eq, not_true_eq_false, if_false,
    or_self, negative, if_true]

/-! One damaged character. -/

/- A text of digits with one character changed is the text of bytes with one changed. -/
theorem encodeSet {xs ys : List UInt8} {i : Nat} {c : UInt8} (same : (encode xs).set i c = encode ys) :
    ∃ b, ys = xs.set (i / 2) b := by
  induction xs generalizing ys i with
  | nil =>
    have none : ys = [] := encodeInjective (same.symm.trans rfl)
    exact ⟨0, by rw [none]; rfl⟩
  | cons x rest ih =>
    cases ys with
    | nil => cases i <;> simp at same
    | cons y later =>
      match i with
      | 0 =>
        obtain ⟨_, more⟩ := List.cons.inj same
        obtain ⟨_, tail⟩ := List.cons.inj more
        exact ⟨y, by rw [encodeInjective tail]; rfl⟩
      | 1 =>
        obtain ⟨_, more⟩ := List.cons.inj same
        obtain ⟨_, tail⟩ := List.cons.inj more
        exact ⟨y, by rw [encodeInjective tail]; rfl⟩
      | i + 2 =>
        obtain ⟨hi, more⟩ := List.cons.inj same
        obtain ⟨lo, tail⟩ := List.cons.inj more
        obtain ⟨b, changed⟩ := ih tail
        have first : x = y := by
          have left := encodedDecodes x
          rw [hi, lo, encodedDecodes y] at left
          exact (Option.some.inj left).symm
        refine ⟨b, ?_⟩
        rw [Nat.add_div_right i (by decide), List.set_cons_succ, first, changed]

theorem sealedSame {m r : Frame} {i : Nat} {b : UInt8} (changed : r.sealed = m.sealed.set i b) :
    r.sealed = m.sealed := by
  by_cases within : i < m.sealed.length
  · have zero : (m.sealed.set i b).sum = m.sealed.sum := by
      rw [← changed, sealedSum, sealedSum]
    rw [changed, Checksum.sumSetSame within zero, List.set_getElem_self]
  · rw [changed, List.set_eq_of_length_le (Nat.le_of_not_lt within)]

theorem sealedInjective {m r : Frame} (same : r.sealed = m.sealed) : r = m := by
  obtain ⟨address, function, data⟩ := m
  obtain ⟨address', function', data'⟩ := r
  simp only [sealed, body, List.cons_append, List.cons.injEq] at same
  obtain ⟨rfl, rfl, tail⟩ := same
  rw [List.append_inj_left' tail rfl]

/- Two texts of one length that differ in one character before their last two are the
texts of one message. -/
theorem damagedSame {m r : Frame} {i : Nat} {x c d e g : UInt8} (size : r.data.length = m.data.length)
    (same : (m.text ++ [c, d]).set i x = r.text ++ [e, g]) : r = m := by
  have long : r.text.length = m.text.length := by rw [textLength, textLength, size]
  by_cases inside : i < m.text.length
  · rw [List.set_append_left _ _ inside] at same
    have texts := List.append_inj_left' same rfl
    apply sealedInjective
    cases i with
    | zero =>
      obtain ⟨_, tail⟩ := List.cons.inj texts
      exact (encodeInjective tail).symm
    | succ i =>
      obtain ⟨_, tail⟩ := List.cons.inj texts
      obtain ⟨b, changed⟩ := encodeSet tail
      exact sealedSame changed
  · rw [List.set_append_right _ _ (Nat.le_of_not_lt inside)] at same
    obtain ⟨_, tail⟩ := List.cons.inj (List.append_inj_left same long.symm)
    exact (sealedInjective (encodeInjective tail)).symm

end SerialModbus.MbusAsciiMasterProtocol
