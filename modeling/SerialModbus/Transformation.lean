import SerialModbus.Delivery

/-! A register value on its way back to a number: the text that the poll thread
sends, the bytes and their length in the hardware object, the variable that the
transformation makes of them. A consumer of the object has its first dlen bytes. -/
namespace SerialModbus.Transformation
open Text Global HWService Delivery
open Addressing (lookedUp)

/- QString(const char *): the characters in front of the first NUL. -/
def fromAscii (data : List PVSSchar) : QString :=
  (data.takeWhile (· != 0)).map (fun b => Char.ofNat b.toNat)

/- TransformRegister::toVar: the value of the IntegerVar, or a null pointer. -/
def toVar (data : List PVSSchar) (dlen : Nat) : Option Int :=
  if dlen ≥ itemSize .REGISTERS then some (toInt (fromAscii data)) else none

/- Exactly dlen bytes of the object, and a NUL behind them. -/
def copied (o : HWObject) : List PVSSchar := o.data.take o.dlen ++ [0]

/- The object carries v: dlen covers the text and stays in the buffer, which is the
text and its NUL, and its dlen bytes read back as v. -/
def Carries (v : Int) (o : HWObject) : Prop :=
  (number v).length ≤ o.dlen ∧ o.dlen ≤ o.data.length ∧ toVar (copied o) o.dlen = some v

/- Texts of three or four characters. -/
theorem numberLength (v : Int) : 3 ≤ (number v).length ∧ (number v).length ≤ 4 ↔
    (100 ≤ v ∧ v ≤ 9999) ∨ (-999 ≤ v ∧ v ≤ -10) := by
  cases v with
  | ofNat n =>
    have two : (Nat.toDigits 10 n).length ≤ 2 ↔ n < 100 := Nat.length_toDigits_le_iff (by decide) (by decide)
    have four : (Nat.toDigits 10 n).length ≤ 4 ↔ n < 10000 := Nat.length_toDigits_le_iff (by decide) (by decide)
    simp only [number, Decimal.render, Int.ofNat_eq_natCast]
    omega
  | negSucc n =>
    have one : (Nat.toDigits 10 (n + 1)).length ≤ 1 ↔ n + 1 < 10 :=
      Nat.length_toDigits_le_iff (by decide) (by decide)
    have three : (Nat.toDigits 10 (n + 1)).length ≤ 3 ↔ n + 1 < 1000 :=
      Nat.length_toDigits_le_iff (by decide) (by decide)
    simp only [number, Decimal.render, List.length_cons, Int.negSucc_eq]
    omega

theorem asciiChar {c : Char} (small : c.toNat < 256) (nonzero : c.toNat ≠ 0) :
    Char.ofNat (UInt8.ofNat c.toNat).toNat = c ∧ UInt8.ofNat c.toNat ≠ 0 := by
  have same : (UInt8.ofNat c.toNat).toNat = c.toNat := by
    rw [UInt8.toNat_ofNat']
    exact Nat.mod_eq_of_lt small
  constructor
  · rw [same, Char.ofNat_toNat]
  · intro zero
    rw [zero] at same
    exact nonzero same.symm

/- Text without NULs is read back whole, whatever stands behind its NUL. -/
theorem asciiText {s : QString} (plain : ∀ c ∈ s, c.toNat < 256 ∧ c.toNat ≠ 0) (rest : List PVSSchar) :
    fromAscii (toAscii s ++ 0 :: rest) = s := by
  induction s with
  | nil => rfl
  | cons c tail ih =>
    obtain ⟨small, nonzero⟩ := plain c List.mem_cons_self
    obtain ⟨same, solid⟩ := asciiChar small nonzero
    have back := ih (fun d mem => plain d (List.mem_cons_of_mem _ mem))
    simp only [fromAscii, toAscii, List.map_cons, if_pos small, List.cons_append] at back ⊢
    rw [List.takeWhile_cons_of_pos (by simpa using solid), List.map_cons, same, back]

theorem numberPlain {v : Int} {c : Char} (mem : c ∈ number v) : c.toNat < 256 ∧ c.toNat ≠ 0 := by
  rcases Decimal.renderChars mem with digit | sign
  · have range : 48 ≤ c.toNat ∧ c.toNat ≤ 57 := Char.isDigit_iff_toNat.mp digit
    omega
  · subst sign
    decide

/- A text within dlen is read back from the copy. -/
theorem copyReads {v : Int} (low : -2147483648 ≤ v) (high : v ≤ 2147483647) {o : HWObject}
    (data : o.data = cString (number v)) (covers : (number v).length ≤ o.dlen)
    (long : itemSize .REGISTERS ≤ o.dlen) : toVar (copied o) o.dlen = some v := by
  have size : (toAscii (number v)).length = (number v).length := List.length_map _
  have parts : ∃ rest, copied o = toAscii (number v) ++ 0 :: rest := by
    rw [copied, data, cString, List.take_append, List.take_of_length_le (by omega), List.append_assoc]
    cases o.dlen - (toAscii (number v)).length with
    | zero => exact ⟨[], rfl⟩
    | succ n => exact ⟨[0], by simp⟩
  obtain ⟨rest, shape⟩ := parts
  rw [toVar, if_pos long, shape, asciiText (fun c mem => numberPlain mem), toIntNumber low high]

theorem objectCarries {v : Int} (low : -2147483648 ≤ v) (high : v ≤ 2147483647) (fullName : QString)
    (invalid : Bool) : Carries v (objectFor fullName (cString (number v)) invalid) ↔
      (100 ≤ v ∧ v ≤ 9999) ∨ (-999 ≤ v ∧ v ≤ -10) := by
  have size : (objectFor fullName (cString (number v)) invalid).data.length = (number v).length + 1 := by
    simp [objectFor, cString, toAscii]
  rw [← numberLength, Carries, size]
  constructor
  · intro ⟨covers, within, _⟩
    simp only [objectFor, pointerSize] at covers within
    omega
  · intro ⟨short, long⟩
    have four : (objectFor fullName (cString (number v)) invalid).dlen = 4 := rfl
    have covers : (number v).length ≤ (objectFor fullName (cString (number v)) invalid).dlen := by
      rw [four]
      exact long
    exact ⟨covers, by omega, copyReads low high rfl covers (Nat.le_refl 4)⟩

/-! What storeToDB hands over, in every run of the service. -/

/- Each store so far handed over the text of its message, if anything. -/
def HandsText (calls : List Call) : Prop :=
  ∀ stored, .storeToDB stored ∈ calls → ∃ fullName,
    stored.outcome.obj = objectFor fullName (cString stored.message.value) stored.message.invalid

theorem handleHands {pvss : Pvss} {st t : Process} {msg : Message} (hands : HandsText st.calls)
    (ok : handle pvss st msg = some t) : HandsText t.calls := by
  obtain ⟨driver, outcome, stored, rfl⟩ := handleCases ok
  intro s mem
  rcases List.mem_append.mp mem with before | here
  · exact hands s before
  · cases List.mem_singleton.mp here
    exact ⟨_, (storeFrame stored).1⟩

theorem setHands {calls : List Call} (values : List DpValue) (hands : HandsText calls) :
    HandsText (calls ++ values.map Call.dpSet) := by
  intro s mem
  rcases List.mem_append.mp mem with before | here
  · exact hands s before
  · obtain ⟨_, _, other⟩ := List.mem_map.mp here
    contradiction

theorem actHands {pvss : Pvss} {s t : Service} {action : Action} (hands : HandsText s.process.calls)
    (ok : act pvss s action = some t) : HandsText t.process.calls := by
  cases actDoes ok with
  | storeNext p msg rest q queue turned =>
    refine handleHands ?_ turned
    exact hands
  | setNext p v rest queue => exact setHands [v] hands
  | configure p q op configured =>
    rw [(configureQueues configured).2.2]
    exact hands
  | _ => exact hands

theorem runHands {pvss : Pvss} {mapper : HWMapper} {actions : List Action} {s : Service}
    (ok : Runs.run (act pvss) (start mapper) actions = some s) : HandsText s.process.calls :=
  Runs.invariant (P := fun s => HandsText s.process.calls) (fun _ _ _ hands moved => actHands hands moved)
    (fun _ mem => absurd mem (by simp [start, Process.boot])) ok

/- The message is for a registered name without a cycle count. -/
def Plain (st : Process) (msg : Message) : Prop :=
  Registered st.mapper.objects (lookedUp st.driver msg) ∧ Driver.hasParameter (lookedUp st.driver msg) = false
instance (st msg) : Decidable (Plain st msg) := by
  unfold Plain; infer_instance

/- The manager has the object, together with the registered one of its name. -/
def Handed (outcome : Outcome) : Prop :=
  ∃ obj addrObj, outcome = .toDp obj addrObj ∧ addrObj.address = obj.address

theorem plainHanded {pvss : Pvss} {st : Process} {msg : Message} {driver : Driver} {outcome : Outcome}
    (plain : Plain st msg)
    (stored : storeToDB pvss st.driver st.mapper.objects msg.address (cString msg.value) msg.invalid =
      some (driver, outcome)) : Handed outcome := by
  obtain ⟨present, unmarked⟩ := plain
  obtain ⟨addrObj, _, same, shape⟩ := storeRegistered pvss (cString msg.value) msg.invalid present
  replace unmarked : Driver.hasParameter (st.driver.getParamAddress msg.address) = false := unmarked
  rw [shape, unmarked, if_neg Bool.false_ne_true] at stored
  cases Option.some.inj stored
  exact ⟨_, addrObj, rfl, same⟩

theorem plainLater {pvss : Pvss} {st t : Process} {msg : Message} (ok : handle pvss st msg = some t)
    {other : Message} (plain : Plain st other) : Plain t other := by
  obtain ⟨mapper, names, _⟩ := Suppression.handleFrame ok
  rw [Plain, names, mapper]
  exact plain

/- Every message that is handled has its store on record. -/
theorem runStores {pvss : Pvss} {st t : Process} {msgs : List Message}
    (ok : Runs.run (handle pvss) st msgs = some t) :
    st.calls <+: t.calls ∧ ∀ msg ∈ msgs, ∃ stored, .storeToDB stored ∈ t.calls ∧ stored.message = msg ∧
      (Plain st msg → Handed stored.outcome) := by
  induction msgs generalizing st with
  | nil =>
    cases Option.some.inj ok
    exact ⟨List.prefix_refl _, fun _ mem => absurd mem List.not_mem_nil⟩
  | cons msg rest ih =>
    obtain ⟨u, first, tail⟩ := Option.bind_eq_some_iff.mp ok
    obtain ⟨kept, later⟩ := ih tail
    obtain ⟨driver, outcome, made, rfl⟩ := handleCases first
    refine ⟨(List.prefix_append _ _).trans kept, ?_⟩
    intro other mem
    rcases List.mem_cons.mp mem with rfl | behind
    · exact ⟨_, kept.subset (List.mem_append_right _ (List.mem_singleton.mpr rfl)), rfl,
        fun plain => plainHanded plain made⟩
    · obtain ⟨stored, there, same, hands⟩ := later other behind
      exact ⟨stored, there, same, fun plain => hands (plainLater first plain)⟩

theorem workProcHands {pvss : Pvss} {p q : Process} (hands : HandsText p.calls)
    (worked : workProc pvss p = some q) : HandsText q.calls ∧
      ∀ msg ∈ p.messages, ∃ stored, .storeToDB stored ∈ q.calls ∧ stored.message = msg ∧
        (Plain p msg → Handed stored.outcome) := by
  rw [workProcRun] at worked
  obtain ⟨t, ran, rfl⟩ := Option.map_eq_some_iff.mp worked
  constructor
  · apply setHands
    exact Runs.invariant (P := fun st => HandsText st.calls) (fun _ _ _ h moved => handleHands h moved) hands ran
  · intro msg mem
    obtain ⟨stored, made, same, handed⟩ := (runStores ran).2 msg mem
    exact ⟨stored, List.mem_append_left _ made, same, handed⟩

/- In any state of the service, for any 32-bit value: the next workProc stores the
text of a register value, and hands it to the manager when its name is registered
without a cycle count. Whenever an object that carries it is handed to the manager,
the object reads back as the value exactly for texts of three or four characters. -/
theorem registerCarried (pvss : Pvss) (mapper : HWMapper) (actions : List Action) (s : Service)
    (ok : Runs.run (act pvss) (start mapper) actions = some s) (agent addr reference v : Int)
    (invalid : Bool) (low : -2147483648 ≤ v) (high : v ≤ 2147483647) (q : Process)
    (worked : workProc pvss (setStatus s.process agent addr reference DriverTypes.REGISTERS.code (number v)
      invalid) = some q) :
    let msg := message agent addr reference DriverTypes.REGISTERS.code (number v) invalid
    (∃ stored, .storeToDB stored ∈ q.calls ∧ stored.message = msg ∧
      (Plain s.process msg → Handed stored.outcome)) ∧
    ∀ stored obj addrObj, .storeToDB stored ∈ q.calls → stored.message = msg →
      stored.outcome = .toDp obj addrObj →
      (Carries v obj ↔ (100 ≤ v ∧ v ≤ 9999) ∨ (-999 ≤ v ∧ v ≤ -10)) := by
  intro msg
  have before : HandsText (setStatus s.process agent addr reference DriverTypes.REGISTERS.code (number v)
    invalid).calls := runHands ok
  obtain ⟨hands, stores⟩ := workProcHands before worked
  constructor
  · exact stores msg (List.mem_append_right _ (List.mem_singleton.mpr rfl))
  · intro stored obj addrObj mem same handed
    obtain ⟨fullName, object⟩ := hands stored mem
    rw [handed, same] at object
    replace object : obj = objectFor fullName (cString (number v)) invalid := object
    rw [object]
    exact objectCarries low high fullName invalid

/- A register is configured without a cycle count. -/
def oneRegister : List Action :=
  [.configure (.addDpPa none ⟨"1_1702_1.1".toList, DriverTypes.REGISTERS.code⟩ true)]

/- A reading of it goes to the manager. -/
theorem oneRegisterRead (v : Int) : ∃ s q, Runs.run (act Pvss.front) (start ⟨[], []⟩) oneRegister = some s ∧
    Plain s.process (message 1 1 1 DriverTypes.REGISTERS.code (number v) false) ∧
    workProc Pvss.front (setStatus s.process 1 1 1 DriverTypes.REGISTERS.code (number v) false) = some q := by
  have facts : (Runs.run (act Pvss.front) (start ⟨[], []⟩) oneRegister).map
      (fun s => decide (Plain s.process (message 1 1 1 DriverTypes.REGISTERS.code [] false) ∧
        s.process.messages = [])) = some true := by decide
  obtain ⟨s, ok, fact⟩ := Option.map_eq_some_iff.mp facts
  obtain ⟨plain, none⟩ := of_decide_eq_true fact
  have windows : Suppression.Windows
      (setStatus s.process 1 1 1 DriverTypes.REGISTERS.code (number v) false) := runWindows ok
  obtain ⟨q, worked⟩ := (Suppression.drainReturns Pvss.front windows).mpr fun msg mem => by
    rcases List.mem_append.mp mem with waiting | sent
    · rw [none] at waiting
      cases waiting
    · cases List.mem_singleton.mp sent
      exact fun _ marked => absurd (plain.2.symm.trans marked) Bool.false_ne_true
  exact ⟨s, q, ok, plain, worked⟩

/- A register that reads 123. -/
theorem registerCarriedThree : ∃ s q stored obj addrObj,
    Runs.run (act Pvss.front) (start ⟨[], []⟩) oneRegister = some s ∧
    workProc Pvss.front (setStatus s.process 1 1 1 DriverTypes.REGISTERS.code (number 123) false) = some q ∧
    .storeToDB stored ∈ q.calls ∧ stored.outcome = .toDp obj addrObj ∧ Carries 123 obj := by
  obtain ⟨s, q, ok, plain, worked⟩ := oneRegisterRead 123
  obtain ⟨⟨stored, mem, same, hands⟩, carries⟩ := registerCarried Pvss.front ⟨[], []⟩ oneRegister s ok 1 1 1
    123 false (by decide) (by decide) q worked
  obtain ⟨obj, addrObj, handed, _⟩ := hands plain
  exact ⟨s, q, stored, obj, addrObj, ok, worked, mem, handed,
    (carries stored obj addrObj mem same handed).mpr (Or.inl (by decide))⟩

/- A register that reads 5: four bytes of a buffer of two. -/
theorem notCarried : ¬ ∀ (pvss : Pvss) (mapper : HWMapper) (actions : List Action) (s : Service),
    Runs.run (act pvss) (start mapper) actions = some s →
    ∀ agent addr reference v invalid, -2147483648 ≤ v → v ≤ 2147483647 → ∀ q,
      workProc pvss (setStatus s.process agent addr reference DriverTypes.REGISTERS.code (number v) invalid) =
        some q →
      ∀ stored obj addrObj, .storeToDB stored ∈ q.calls →
        stored.message = message agent addr reference DriverTypes.REGISTERS.code (number v) invalid →
        stored.outcome = .toDp obj addrObj → Carries v obj := by
  intro all
  obtain ⟨s, q, ok, plain, worked⟩ := oneRegisterRead 5
  have before : HandsText (setStatus s.process 1 1 1 DriverTypes.REGISTERS.code (number 5) false).calls :=
    runHands ok
  obtain ⟨hands, stores⟩ := workProcHands before worked
  obtain ⟨stored, mem, same, handed⟩ := stores _ (List.mem_append_right _ (List.mem_singleton.mpr rfl))
  obtain ⟨obj, addrObj, toDp, _⟩ := handed plain
  have carries := all Pvss.front ⟨[], []⟩ oneRegister s ok 1 1 1 5 false (by decide) (by decide) q
    worked stored obj addrObj mem same toDp
  obtain ⟨fullName, object⟩ := hands stored mem
  rw [toDp, same] at object
  replace object : obj = objectFor fullName (cString (number 5)) false := object
  rw [object] at carries
  exact absurd ((objectCarries (by decide) (by decide) fullName false).mp carries) (by decide)

end SerialModbus.Transformation
