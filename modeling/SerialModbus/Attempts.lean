import SerialModbus.Outcome

/-! The memories of the slaves while one message is tried again and again. -/
namespace SerialModbus.Exchange
open SerialModbus.Frame MbusSerialMasterProtocol
open MbusAsciiMasterProtocol (ascii)

theorem servedOne (slaves : UInt8 → Option Slave) {q : Frame} (single : q.address ≠ 0) :
    Line.served slaves q =
      Function.update slaves q.address ((slaves q.address).map (fun s => (s.answer q.function q.data).1)) :=
  if_neg single

/- A request that is heard again changes nothing more, and finds out the same. -/
theorem servedTwice (slaves : UInt8 → Option Slave) {q : Frame} (single : q.address ≠ 0) :
    Line.served (Line.served slaves q) q = Line.served slaves q := by
  rw [servedOne _ single, servedOne slaves single, Function.update_idem, Function.update_self]
  cases there : slaves q.address with
  | none => rfl
  | some s =>
    have again := s.performTwice q.function (Slave.order q.function q.data)
    have same : ((s.answer q.function q.data).1.answer q.function q.data).1 = (s.answer q.function q.data).1 :=
      congrArg Prod.fst again
    simp only [Option.map_some, same]

theorem servedTruth (slaves : UInt8 → Option Slave) {q : Frame} (single : q.address ≠ 0) :
    truth (Line.served slaves q) q = truth slaves q := by
  unfold truth
  rw [servedOne slaves single, Function.update_self]
  cases there : slaves q.address with
  | none => rfl
  | some s =>
    have again := s.performTwice q.function (Slave.order q.function q.data)
    have same : (s.answer q.function q.data).1.answer q.function q.data = s.answer q.function q.data := again
    simp only [Option.map_some, same]

/- The memories that attempts of one request can leave. -/
def Either (slaves : UInt8 → Option Slave) (q : Frame) (now : UInt8 → Option Slave) : Prop :=
  now = slaves ∨ now = Line.served slaves q

theorem eitherHeard {slaves now : UInt8 → Option Slave} {q : Frame} (single : q.address ≠ 0)
    (either : Either slaves q now) (fault : Fault) :
    Either slaves q (heardBy fault now q) ∧ (Heard fault → heardBy fault now q = Line.served slaves q) ∧
      truth now q = truth slaves q := by
  unfold heardBy
  rcases either with rfl | rfl
  · refine ⟨?_, fun heard => if_pos heard, rfl⟩
    split
    · exact Or.inr rfl
    · exact Or.inl rfl
  · rw [servedTwice slaves single, ite_self]
    exact ⟨Or.inr rfl, fun _ => rfl, servedTruth slaves single⟩

/- The master after k attempts of a request. -/
structure Standing (m : MbusSerialMasterProtocol Line) (q : Frame) (k : Nat) (b : MbusSerialMasterProtocol Line) :
    Prop where
  opened : b.isOpen = true
  faults : b.serialPort.os.faults = m.serialPort.os.faults
  sent : b.serialPort.os.sent = m.serialPort.os.sent + k
  either : Either m.serialPort.os.slaves q b.serialPort.os.slaves

section Attempts
variable {m b : MbusSerialMasterProtocol Line} {q : Frame} {k n : Nat}

theorem standingNext (single : q.address ≠ 0) (standing : Standing m q k b) (n : Nat) :
    Standing m q (k + 1) (transceive q.address q.function q.data n b).2 := by
  obtain ⟨_, went⟩ := transceiveLine standing.opened q n
  have talked := transceiveTalked Line.win32 ascii q.address q.function q.data n b
  have heard := (eitherHeard single standing.either (b.serialPort.os.faults b.serialPort.os.sent)).1
  constructor
  · exact (talkedOpen talked).trans standing.opened
  · rw [went.faults, standing.faults]
  · rw [went.sent, standing.sent]
    rfl
  · rw [went.slaves]
    exact heard

theorem standingBefore (opened : m.isOpen = true) (single : q.address ≠ 0) (n k : Nat) :
    Standing m q k (Retry.before (transceive q.address q.function q.data n) m k) := by
  induction k with
  | zero => exact ⟨opened, rfl, rfl, Or.inl rfl⟩
  | succ k ih =>
    rw [Retry.beforeLast]
    exact standingNext single ih n

theorem attemptAt (standing : Standing m q k b) (n : Nat) :
    (transceive q.address q.function q.data n b).1 =
      outcome (m.serialPort.os.faults (m.serialPort.os.sent + k)) b.serialPort.os.slaves q n := by
  obtain ⟨result, _⟩ := transceiveLine standing.opened q n
  rw [result, standing.faults, standing.sent]

/- Data comes from a slave that has served the message. -/
theorem attemptServes (asked : Asked q n) (standing : Standing m q k b) {data : List UInt8}
    (ok : (transceive q.address q.function q.data n b).1 = .ok data) :
    truth m.serialPort.os.slaves q = .ok data ∧
      (transceive q.address q.function q.data n b).2.serialPort.os.slaves = Line.served m.serialPort.os.slaves q := by
  obtain ⟨result, went⟩ := transceiveLine standing.opened q n
  rw [result] at ok
  obtain ⟨heard, true⟩ := okHeard asked ok
  obtain ⟨_, served, same⟩ := eitherHeard asked.single standing.either (b.serialPort.os.faults b.serialPort.os.sent)
  exact ⟨same.symm.trans true, went.slaves.trans (served heard)⟩

/- Whatever happens on the line, a delivered message is served once or not at all, and
data that comes back is the answer of a slave that has served it. -/
theorem deliverSafe (asked : Asked q n) :
    Either m.serialPort.os.slaves q (deliver q.address q.function q.data n m).2.serialPort.os.slaves ∧
    ∀ data, (deliver q.address q.function q.data n m).1 = .ok data →
      truth m.serialPort.os.slaves q = .ok data ∧
      (deliver q.address q.function q.data n m).2.serialPort.os.slaves = Line.served m.serialPort.os.slaves q := by
  unfold deliver deliverMessage
  split
  · rename_i opened
    obtain ⟨k, _, stopped⟩ := Retry.retryStops (transceive q.address q.function q.data n) again m.retryCnt.toNat m
    have standing := standingBefore opened asked.single n k
    replace stopped : Retry.retry (transceiveMessage Line.win32 ascii q.address q.function q.data n) again
      m.retryCnt.toNat m = _ := stopped
    rw [stopped]
    exact ⟨(standingNext asked.single standing n).either, fun data ok => attemptServes asked standing ok⟩
  · exact ⟨Or.inl rfl, fun data ok => by cases ok⟩

/- A message that would change no memory changes none, whatever happens to it. -/
theorem deliverKeeps {slaves : UInt8 → Option Slave} {faults : Nat → Fault} (here : m.serialPort.os.slaves = slaves)
    (along : m.serialPort.os.faults = faults) (untouched : Line.served slaves q = slaves) (n : Nat) :
    (deliver q.address q.function q.data n m).2.serialPort.os.slaves = slaves ∧
      (deliver q.address q.function q.data n m).2.serialPort.os.faults = faults := by
  unfold deliver deliverMessage
  split
  · rename_i opened
    have keeps : ∀ b : MbusSerialMasterProtocol Line,
        (b.isOpen = true ∧ b.serialPort.os.slaves = slaves ∧ b.serialPort.os.faults = faults) →
        (transceive q.address q.function q.data n b).2.isOpen = true ∧
          (transceive q.address q.function q.data n b).2.serialPort.os.slaves = slaves ∧
          (transceive q.address q.function q.data n b).2.serialPort.os.faults = faults := by
      intro b before
      have talked := transceiveTalked Line.win32 ascii q.address q.function q.data n b
      obtain ⟨_, went⟩ := transceiveLine before.1 q n
      refine ⟨(talkedOpen talked).trans before.1, ?_, went.faults.trans before.2.2⟩
      rw [went.slaves, before.2.1]
      unfold heardBy
      rw [untouched, ite_self]
    exact (Retry.retryKeeps keeps m.retryCnt.toNat ⟨opened, here, along⟩).2
  · exact ⟨here, along⟩

/- What a slave has to say is never taken for a failure that is tried again. -/
theorem truthFinal (asked : Asked q n) {slaves : UInt8 → Option Slave} {s : Slave}
    (there : slaves q.address = some s) : again (truth slaves q) = false := by
  unfold truth
  rw [there]
  dsimp only
  split
  · rfl
  · rename_i differs
    rcases answered asked s with ⟨same, _⟩ | ⟨code, one | two, refused⟩
    · exact absurd same differs
    · rw [refused, one]
      rfl
    · rw [refused, two]
      rfl

theorem truthRefused (asked : Asked q n) {slaves : UInt8 → Option Slave} {s : Slave}
    (there : slaves q.address = some s) (refused : ∀ data, truth slaves q ≠ .ok data) :
    Line.served slaves q = slaves := by
  have untouched : (s.answer q.function q.data).1 = s := by
    rcases answered asked s with ⟨same, _⟩ | ⟨code, _, same⟩
    · refine absurd ?_ (refused (s.answer q.function q.data).2.2)
      unfold truth
      rw [there]
      exact if_pos same
    · rw [same]
      rfl
  rw [servedOne slaves asked.single, there, Option.map_some, untouched, ← there, Function.update_eq_self]

/- The fault number k from now is none, it comes before the retries are used up, and until
then no message is stopped on its way out and no exception is feigned. -/
structure Passes (m : MbusSerialMasterProtocol Line) (k : Nat) : Prop where
  opened : m.isOpen = true
  within : k ≤ m.retryCnt.toNat
  intact : m.serialPort.os.faults (m.serialPort.os.sent + k) = .none
  benign : ∀ j < k, m.serialPort.os.faults (m.serialPort.os.sent + j) ≠ .blocked ∧
    ∀ x, m.serialPort.os.faults (m.serialPort.os.sent + j) ≠ .damaged 3 x

/- What the slave has to say comes back then, and the slave has served the message. -/
theorem deliverLive (asked : Asked q n) {s : Slave} (there : m.serialPort.os.slaves q.address = some s)
    (passes : Passes m k) :
    (deliver q.address q.function q.data n m).1 = truth m.serialPort.os.slaves q ∧
      (deliver q.address q.function q.data n m).2.serialPort.os.slaves =
        Line.served m.serialPort.os.slaves q := by
  obtain ⟨opened, within, intact, benign⟩ := passes
  have standing := standingBefore (q := q) opened asked.single n
  have same : ∀ j, truth (Retry.before (transceive q.address q.function q.data n) m j).serialPort.os.slaves q =
      truth m.serialPort.os.slaves q :=
    fun j => (eitherHeard asked.single (standing j).either .none).2.2
  have final := truthFinal asked there
  have last : (transceive q.address q.function q.data n
      (Retry.before (transceive q.address q.function q.data n) m k)).1 = truth m.serialPort.os.slaves q := by
    rw [attemptAt (standing k), intact, outcomeIntact asked, same]
  obtain ⟨i, stops, stopped⟩ := Retry.retryStops (transceive q.address q.function q.data n) again m.retryCnt.toNat m
  have early : i ≤ k := by
    by_contra late
    have failed := stops.failed k (Nat.lt_of_not_le late)
    rw [last, final] at failed
    contradiction
  have found : (transceive q.address q.function q.data n
      (Retry.before (transceive q.address q.function q.data n) m i)).1 = truth m.serialPort.os.slaves q := by
    rcases Nat.lt_or_eq_of_le early with before | rfl
    · have done : again (transceive q.address q.function q.data n
          (Retry.before (transceive q.address q.function q.data n) m i)).1 = false :=
        stops.last.resolve_left (by omega)
      obtain ⟨open', marked⟩ := benign i before
      rw [attemptAt (standing i)] at done ⊢
      rcases outcomeCases asked (m.serialPort.os.faults (m.serialPort.os.sent + i))
        (Retry.before (transceive q.address q.function q.data n) m i).serialPort.os.slaves with
        found | retried | ⟨blocked, _⟩ | ⟨⟨x, changed⟩, _⟩
      · rw [found, same]
      · rw [retried] at done
        contradiction
      · exact absurd blocked open'
      · exact absurd changed (marked x)
    · exact last
  have whole : deliver q.address q.function q.data n m =
      Retry.retry (transceive q.address q.function q.data n) again m.retryCnt.toNat m := by
    unfold deliver deliverMessage
    rw [if_pos opened]
    rfl
  rw [whole, stopped]
  refine ⟨found, ?_⟩
  cases told : truth m.serialPort.os.slaves q with
  | ok data => exact (attemptServes asked (standing i) (found.trans told)).2
  | error e =>
    have kept := truthRefused asked there (fun data ok => by rw [told] at ok; cases ok)
    rcases (standingNext asked.single (standing i) n).either with left | served
    · rw [left, kept]
    · exact served

theorem lossyPasses (slave : Slave) : Passes (bench slave lossy) 2 := by
  refine ⟨rfl, show 2 ≤ 3 by decide, rfl, ?_⟩
  intro j less
  match j, less with
  | 0, _ => exact ⟨show Fault.unanswered ≠ .blocked by decide, fun x => show Fault.unanswered ≠ .damaged 3 x by simp⟩
  | 1, _ => exact ⟨show Fault.damaged 9 70 ≠ .blocked by decide, fun x => show Fault.damaged 9 70 ≠ .damaged 3 x by simp⟩

/- The counters of a message that its third attempt delivers. -/
theorem deliverCountsLossy : ∃ k, k ≤ 3 ∧
    (deliver 7 5 [0, 2, 0, 0] 4 (bench ⟨[false, false, true], []⟩ lossy)).2.totalCounter = UInt32.ofNat (k + 1) ∧
    (deliver 7 5 [0, 2, 0, 0] 4 (bench ⟨[false, false, true], []⟩ lossy)).2.totalCounter = 3 ∧
    (deliver 7 5 [0, 2, 0, 0] 4 (bench ⟨[false, false, true], []⟩ lossy)).2.successCounter = 1 := by
  obtain ⟨k, stops, _, total, _⟩ :=
    deliverCounts Line.win32 ascii 7 5 [0, 2, 0, 0] 4 (bench ⟨[false, false, true], []⟩ lossy) rfl
  exact ⟨k, stops.within, total.trans (UInt32.zero_add _), by decide +kernel, by decide +kernel⟩

/- A register that reads 5. -/
theorem replyGenuineLossy : [2, 0, 5].length = 3 ∧ ∃ k ≤ 3, ∃ c d, Received Line.win32 ascii 7 3 [0, 0, 0, 1] 3
    (bench ⟨[], [5]⟩ lossy) k (text ⟨7, 3, [2, 0, 5]⟩ ++ [c, d])
    (deliver 7 3 [0, 0, 0, 1] 3 (bench ⟨[], [5]⟩ lossy)).2.serialPort :=
  @MbusAsciiMasterProtocol.replyGenuine _ Line.win32 7 3 [0, 0, 0, 1] [2, 0, 5] 3 (bench ⟨[], [5]⟩ lossy) (by decide)
    (by decide) (by decide) (by decide +kernel)

end Attempts

end SerialModbus.Exchange
