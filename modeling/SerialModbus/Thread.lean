import SerialModbus.Reports

/-! Runs of the poll thread of a master, while the devices on its line change. -/
namespace SerialModbus.MBusAsciiMaster
open Text (number)
open Delivery (Action sentMessages sentValues sentMessagesAppend sentValuesAppend)
open Global (DriverTypes Status)
open Exchange (memory kept)
open MbusMasterFunctions (bitInt)
open Polling (COIL_NUMBER REGISTER_NUMBER)

/- A turn of the thread, or a change of the line and what is connected to it. -/
inductive Event where
  | cycle
  | line (l : Line)

def step (around : Surroundings) (t : MBusAsciiMaster Line) : Event → Option (MBusAsciiMaster Line)
  | .cycle => cycle Line.win32 around t
  | .line l =>
      some {t with mbusProtocol := {t.mbusProtocol with serialPort := {t.mbusProtocol.serialPort with os := l}}}

/-! One turn. -/

section Turns
variable {around : Surroundings} {t u : MBusAsciiMaster Line} {agent : Int}

/- What a turn does: a poll, or a port that is closed. -/
inductive Cycles (around : Surroundings) (agent : Int) (t u : MBusAsciiMaster Line) : Prop where
  | active (look : around.isRedActive t.looks = true) (polls : Polls around agent t u)
  | passive (look : around.isRedActive t.looks = false) (closed : u.mbusProtocol.isOpen = false) (posts : Posts t u [] [])

/- Looks and sleep do not count. -/
theorem pollsSame {v w : MBusAsciiMaster Line} (polls : Polls around agent t u)
    (protocol : v.mbusProtocol = t.mbusProtocol) (mbus : v.mbus = t.mbus) (before : v.enqueued = t.enqueued)
    (opened : w.mbusProtocol.isOpen = u.mbusProtocol.isOpen) (after : w.enqueued = u.enqueued) :
    Polls around agent v w := by
  have moved : ∀ {messages values}, Posts t u messages values → Posts v w messages values := by
    rintro messages values ⟨actions, enqueued, sent, set⟩
    exact ⟨actions, by rw [after, enqueued, before], sent, set⟩
  cases polls with
  | reported reports beats active stillActive ready isOpen truthful beating posts live =>
    refine .reported reports beats active stillActive ?_ (opened.trans isOpen) ?_ ?_ ?_ ?_
    · rw [protocol]
      exact ready
    · rw [protocol, mbus]
      exact truthful
    · rw [mbus]
      exact beating
    · rw [mbus]
      exact moved posts
    · rw [protocol, mbus]
      exact live
  | refused active closed unset posts =>
    refine .refused active (by rw [protocol, closed]) (by rw [mbus]; exact unset) ?_
    rw [mbus]
    exact moved posts
  | fallen isOpen ends still posts =>
    exact .fallen (by rw [protocol, isOpen]) ends (opened.trans still) (moved posts)

theorem disconnectKeeps (t : MBusAsciiMaster Line) :
    Keeps t (tryToDisconnect Line.win32 t) ∧ (tryToDisconnect Line.win32 t).mbusProtocol.isOpen = false ∧
      (tryToDisconnect Line.win32 t).enqueued = t.enqueued := by
  unfold tryToDisconnect
  split
  · obtain ⟨closed, kept⟩ := Exchange.lineClose t.mbusProtocol.serialPort
    exact ⟨⟨rfl, rfl, kept.1, rfl, kept.2.1⟩, closed, rfl⟩
  · rename_i closed
    exact ⟨(staysSelf t).toKeeps, Bool.eq_false_of_not_eq_true closed, rfl⟩

/- The wait leaves all but the clock as it is. -/
theorem waitKeeps {start : Int} (ok : waitDelta Line.win32 around start t = some u) :
    u.mbusProtocol = t.mbusProtocol ∧ u.mbus = t.mbus ∧ u.thread = t.thread ∧ u.enqueued = t.enqueued := by
  obtain ⟨polling, _, ok⟩ := Option.bind_eq_some_iff.mp ok
  cases Option.some.inj ok
  split <;> exact ⟨rfl, rfl, rfl, rfl⟩

theorem cycleReports (known : t.mbus.agentID = some agent) (ok : cycle Line.win32 around t = some u) :
    Keeps t u ∧ Cycles around agent t u := by
  obtain ⟨v, turned, waited⟩ := Option.bind_eq_some_iff.mp ok
  obtain ⟨protocol, mbus, thread, enqueued⟩ := waitKeeps waited
  have rest : Keeps v u := by
    refine ⟨thread, mbus, ?_, ?_, ?_⟩ <;> rw [protocol]
  unfold turn at turned
  dsimp only [now, isRedActive] at turned
  split at turned
  · rename_i look
    obtain ⟨keeps, polls⟩ := pollReports (by exact known) turned
    have opened : u.mbusProtocol.isOpen = v.mbusProtocol.isOpen := by rw [protocol]
    refine ⟨keepsTrans ?_ rest, .active look (pollsSame polls rfl rfl rfl opened enqueued)⟩
    exact ⟨keeps.thread, keeps.mbus, keeps.memory, keeps.flags, keeps.faults⟩
  · rename_i look
    cases Option.some.inj turned
    obtain ⟨keeps, closed, same⟩ := disconnectKeeps {t with ticks := t.ticks + 1, looks := t.looks + 1}
    refine ⟨keepsTrans ⟨keeps.thread, keeps.mbus, keeps.memory, keeps.flags, keeps.faults⟩ rest,
      .passive (Bool.eq_false_of_not_eq_true look) (by rw [protocol, closed]) (postsNone (by rw [enqueued, same]))⟩

end Turns

/- The thread is to poll, its port can be opened or still be used, and all devices answer. -/
structure Ready (around : Surroundings) (t : MBusAsciiMaster Line) : Prop where
  active : around.isRedActive t.looks = true
  connects : t.mbusProtocol.isOpen = false ∧ Settable t.mbus ∨
    t.mbusProtocol.isOpen = true ∧ ∀ i, around.offEnd i = true
  healthy : ∀ b ∈ t.mbus.bus, Healthy t.mbusProtocol b

theorem readyReports {around : Surroundings} {t u : MBusAsciiMaster Line} {agent : Int}
    (known : t.mbus.agentID = some agent) (ready : Ready around t) (ok : cycle Line.win32 around t = some u) :
    ∃ reports values, List.Forall₂ (fun b r => r.Truthful t.mbusProtocol b ∧ r.complete = true) t.mbus.bus reports ∧
      Posts t u (messagesOf agent t.mbus.bus reports) values := by
  obtain ⟨_, cycles⟩ := cycleReports known ok
  cases cycles with
  | passive look closed posts =>
    rw [ready.active] at look
    cases look
  | active look polls =>
    cases polls with
    | fallen opened ends still posts =>
      obtain ⟨i, ends⟩ := ends
      rcases ready.connects with ⟨closed, _⟩ | ⟨_, gives⟩
      · rw [opened] at closed
        cases closed
      · rw [gives] at ends
        cases ends
    | refused active closed unset posts =>
      rcases ready.connects with ⟨_, settable⟩ | ⟨opened, _⟩
      · exact absurd settable unset
      · rw [opened] at closed
        cases closed
    | reported reports beats active stillActive _ opened truthful beating posts live =>
      have all := List.all_eq_true.mp (live ready.healthy)
      refine ⟨reports, _, ?_, posts⟩
      rw [List.forall₂_iff_get] at truthful ⊢
      exact ⟨truthful.1, fun i h h' => ⟨truthful.2 i h h', all _ (List.get_mem _ _)⟩⟩

/-! What is sent is the truth at some moment of the run. -/

theorem listedInvalid {agent b : Int} {type : DriverTypes} {values : List Int} {msg : Message}
    (mem : msg ∈ Report.listed agent b type values true) : msg.invalid = true := by
  obtain ⟨⟨value, i⟩, _, rfl⟩ := List.mem_map.mp mem
  rfl

theorem listedValid {agent b : Int} {type : DriverTypes} {α : Type} {f : α → Int} {values : List α} {msg : Message}
    (mem : msg ∈ Report.listed agent b type (values.map f) false) :
    ∃ (i : Nat) (v : α), values[i]? = some v ∧
      msg = HWService.message agent b ((i : Int) + 1) type.code (number (f v)) false := by
  obtain ⟨⟨value, i⟩, place, rfl⟩ := List.mem_map.mp mem
  have found := List.mem_zipIdx_iff_getElem?.mp place
  rw [List.getElem?_map] at found
  obtain ⟨v, here, rfl⟩ := Option.map_eq_some_iff.mp found
  exact ⟨i, v, here, rfl⟩

theorem listedShows {agent b : Int} {type : DriverTypes} {α : Type} {f : α → Int} {values : List α} {i : Nat} {v : α}
    (here : values[i]? = some v) :
    HWService.message agent b ((i : Int) + 1) type.code (number (f v)) false ∈
      Report.listed agent b type (values.map f) false := by
  refine List.mem_map.mpr ⟨(f v, i), List.mem_zipIdx_iff_getElem?.mpr ?_, rfl⟩
  rw [List.getElem?_map, here]
  rfl

/- The addresses of one bus: its coils and its registers, each from one on. -/
def allAddresses (agent b : Int) : List Text.QString :=
  (List.range COIL_NUMBER).map (fun i : Nat =>
    Text.sprintf HWService.DATA_FORMAT [agent, DriverTypes.COILS.code, b, (i : Int) + 1]) ++
  (List.range REGISTER_NUMBER).map (fun i : Nat =>
    Text.sprintf HWService.DATA_FORMAT [agent, DriverTypes.REGISTERS.code, b, (i : Int) + 1])

theorem listedAddresses (agent b : Int) (type : DriverTypes) (values : List Int) (invalid : Bool) :
    (Report.listed agent b type values invalid).map Message.address =
      (List.range values.length).map (fun i : Nat =>
        Text.sprintf HWService.DATA_FORMAT [agent, type.code, b, (i : Int) + 1]) := by
  have places : (Report.listed agent b type values invalid).map Message.address =
      (values.zipIdx.map Prod.snd).map (fun i : Nat =>
        Text.sprintf HWService.DATA_FORMAT [agent, type.code, b, (i : Int) + 1]) := by
    rw [Report.listed, List.map_map, List.map_map]
    rfl
  rw [places, List.zipIdx_map_snd, List.range_eq_range']

theorem reportAddresses {m : MbusSerialMasterProtocol Line} {b : Int} {r : Report} (truthful : r.Truthful m b)
    (agent : Int) : (r.messages agent b).map Message.address = allAddresses agent b := by
  have coils : ∀ {cells : List Bool}, kept Slave.coils m b 1 COIL_NUMBER = some cells →
      (cells.map bitInt).length = COIL_NUMBER := by
    intro cells keeps
    rw [List.length_map, Exchange.keptLength keeps]
  have registers : ∀ {words : List (BitVec 16)}, kept Slave.registers m b 1 REGISTER_NUMBER = some words →
      (words.map BitVec.toInt).length = REGISTER_NUMBER := by
    intro words keeps
    rw [List.length_map, Exchange.keptLength keeps]
  cases r with
  | silent =>
    simp only [Report.messages, List.map_append, listedAddresses, List.length_replicate]
    rfl
  | coilsOnly cells =>
    simp only [Report.messages, List.map_append, listedAddresses, List.length_replicate, coils truthful]
    rfl
  | answered cells words =>
    simp only [Report.messages, List.map_append, listedAddresses, coils truthful.1, registers truthful.2]
    rfl

/- A message about a bus: it is marked invalid, or gives a cell that the device there keeps. -/
def Told (m : MbusSerialMasterProtocol Line) (agent b : Int) (msg : Message) : Prop :=
  msg.address ∈ allAddresses agent b ∧
    (msg.invalid = true ∨
      (∃ (cells : List Bool) (i : Nat) (c : Bool), kept Slave.coils m b 1 COIL_NUMBER = some cells ∧ cells[i]? = some c ∧
        msg = HWService.message agent b ((i : Int) + 1) DriverTypes.COILS.code (number (bitInt c)) false) ∨
      ∃ (words : List (BitVec 16)) (i : Nat) (v : BitVec 16),
        kept Slave.registers m b 1 REGISTER_NUMBER = some words ∧ words[i]? = some v ∧
        msg = HWService.message agent b ((i : Int) + 1) DriverTypes.REGISTERS.code (number v.toInt) false)

theorem reportTold {m : MbusSerialMasterProtocol Line} {agent b : Int} {r : Report} {msg : Message}
    (truthful : r.Truthful m b) (mem : msg ∈ r.messages agent b) : Told m agent b msg := by
  refine ⟨reportAddresses truthful agent ▸ List.mem_map_of_mem mem, ?_⟩
  cases r with
  | silent =>
    rcases List.mem_append.mp mem with coils | registers
    · exact Or.inl (listedInvalid coils)
    · exact Or.inl (listedInvalid registers)
  | coilsOnly cells =>
    rcases List.mem_append.mp mem with coils | registers
    · obtain ⟨i, c, here, same⟩ := listedValid coils
      exact Or.inr (Or.inl ⟨cells, i, c, truthful, here, same⟩)
    · exact Or.inl (listedInvalid registers)
  | answered cells words =>
    rcases List.mem_append.mp mem with coils | registers
    · obtain ⟨i, c, here, same⟩ := listedValid coils
      exact Or.inr (Or.inl ⟨cells, i, c, truthful.1, here, same⟩)
    · obtain ⟨i, v, here, same⟩ := listedValid registers
      exact Or.inr (Or.inr ⟨words, i, v, truthful.2, here, same⟩)

section Messages
variable {m : MbusSerialMasterProtocol Line} {agent : Int} {bus : List Int} {reports : List Report}

theorem messagesTold (truthful : List.Forall₂ (fun b r => r.Truthful m b) bus reports) {msg : Message}
    (mem : msg ∈ messagesOf agent bus reports) : ∃ b ∈ bus, Told m agent b msg := by
  obtain ⟨⟨b, r⟩, pair, here⟩ := List.mem_flatMap.mp mem
  exact ⟨b, (List.of_mem_zip pair).1, reportTold (List.forall₂_zip truthful pair) here⟩

/- One message for each address of each bus, in their order. -/
theorem messagesAddresses (truthful : List.Forall₂ (fun b r => r.Truthful m b) bus reports) :
    (messagesOf agent bus reports).map Message.address = bus.flatMap (allAddresses agent) := by
  induction truthful with
  | nil => rfl
  | cons first rest ih =>
    rw [messagesOf, List.zip_cons_cons, List.flatMap_cons, List.map_append, List.flatMap_cons,
      reportAddresses first]
    exact congrArg _ ih

/- A device that has answered all is in the messages with each of its cells. -/
theorem messagesShow (answered : List.Forall₂ (fun b r => r.Truthful m b ∧ r.complete = true) bus reports) {b : Int}
    (mem : b ∈ bus) :
    (∀ (cells : List Bool) (i : Nat) (c : Bool),
      kept Slave.coils m b 1 COIL_NUMBER = some cells → cells[i]? = some c →
      HWService.message agent b ((i : Int) + 1) DriverTypes.COILS.code (number (bitInt c)) false ∈
        messagesOf agent bus reports) ∧
    ∀ (words : List (BitVec 16)) (i : Nat) (v : BitVec 16),
      kept Slave.registers m b 1 REGISTER_NUMBER = some words → words[i]? = some v →
      HWService.message agent b ((i : Int) + 1) DriverTypes.REGISTERS.code (number v.toInt) false ∈
        messagesOf agent bus reports := by
  induction answered with
  | nil => cases mem
  | cons first rest ih =>
    rename_i c r bus reports
    have shape : messagesOf agent (c :: bus) (r :: reports) = r.messages agent c ++ messagesOf agent bus reports := rfl
    rw [shape]
    rcases List.mem_cons.mp mem with rfl | later
    · obtain ⟨truthful, complete⟩ := first
      cases r with
      | silent => cases complete
      | coilsOnly cells => cases complete
      | answered cells words =>
        constructor
        · intro cells' i c keeps here
          cases Option.some.inj (truthful.1.symm.trans keeps)
          exact List.mem_append_left _ (List.mem_append_left _ (listedShows here))
        · intro words' i v keeps here
          cases Option.some.inj (truthful.2.symm.trans keeps)
          exact List.mem_append_left _ (List.mem_append_right _ (listedShows here))
    · obtain ⟨coils, registers⟩ := ih later
      exact ⟨fun cells i c keeps here => List.mem_append_right _ (coils cells i c keeps here),
        fun words i v keeps here => List.mem_append_right _ (registers words i v keeps here)⟩

end Messages

/-! A whole run. -/

/- One poll of a run: the events before it, and what it reported. -/
structure Visit where
  before : List Event
  reports : List Report

/- The run came to the visit, and what was reported was true there. -/
def Visited (around : Surroundings) (t : MBusAsciiMaster Line) (events : List Event) (v : Visit) : Prop :=
  v.before ++ [.cycle] <+: events ∧ ∃ there, Runs.run (step around) t v.before = some there ∧
    List.Forall₂ (fun b r => r.Truthful there.mbusProtocol b) t.mbus.bus v.reports

structure Ran (around : Surroundings) (agent : Int) (t : MBusAsciiMaster Line) (events : List Event)
    (u : MBusAsciiMaster Line) : Prop where
  mbus : u.mbus = t.mbus
  posts : ∃ (visits : List Visit) (actions : List Action), u.enqueued = t.enqueued ++ actions ∧
    sentMessages actions = visits.flatMap (fun v => messagesOf agent t.mbus.bus v.reports) ∧
    ∀ v ∈ visits, Visited around t events v

theorem stepRan {around : Surroundings} {agent : Int} {t u w : MBusAsciiMaster Line} {events : List Event} {e : Event}
    (known : t.mbus.agentID = some agent) (reached : Runs.run (step around) t events = some u)
    (ran : Ran around agent t events u) (ok : step around u e = some w) :
    Ran around agent t (events ++ [e]) w := by
  obtain ⟨visits, actions, enqueued, sent, visited⟩ := ran.posts
  have still : ∀ v ∈ visits, Visited around t (events ++ [e]) v := by
    intro v mem
    obtain ⟨before, there⟩ := visited v mem
    exact ⟨before.trans (List.prefix_append _ _), there⟩
  have quiet : ∀ {values}, Posts u w [] values → w.mbus = u.mbus → Ran around agent t (events ++ [e]) w := by
    rintro values ⟨more, enqueued', sent', _⟩ mbus
    refine ⟨mbus.trans ran.mbus, visits, actions ++ more, ?_, ?_, still⟩
    · rw [enqueued', enqueued, List.append_assoc]
    · rw [sentMessagesAppend, sent, sent', List.append_nil]
  cases e with
  | line l =>
    cases Option.some.inj ok
    exact quiet (postsNone rfl) rfl
  | cycle =>
    obtain ⟨keeps, cycles⟩ := cycleReports (by rw [ran.mbus, known]) ok
    cases cycles with
    | passive look closed posts => exact quiet posts keeps.mbus
    | active look polls =>
      cases polls with
      | fallen opened ends still posts => exact quiet posts keeps.mbus
      | refused active closed unset posts => exact quiet posts keeps.mbus
      | reported reports beats active stillActive ready opened truthful beating posts live =>
        obtain ⟨more, enqueued', sent', _⟩ := posts
        refine ⟨keeps.mbus.trans ran.mbus, visits ++ [⟨events, reports⟩], actions ++ more, ?_, ?_, ?_⟩
        · rw [enqueued', enqueued, List.append_assoc]
        · rw [sentMessagesAppend, sent, sent', List.flatMap_append, ran.mbus]
          simp
        · intro v mem
          rcases List.mem_append.mp mem with early | last
          · exact still v early
          · cases List.mem_singleton.mp last
            refine ⟨List.prefix_refl _, u, reached, ?_⟩
            rw [← ran.mbus]
            exact truthful

theorem runVisits {around : Surroundings} {agent : Int} {t u : MBusAsciiMaster Line} {events : List Event}
    (known : t.mbus.agentID = some agent) (ok : Runs.run (step around) t events = some u) :
    Ran around agent t events u := by
  have both := @Runs.history _ _ (step around)
    (fun events u => Runs.run (step around) t events = some u ∧ Ran around agent t events u) t ?_ ?_ _ _ ok
  · exact both.2
  · intro events e v w ⟨reached, ran⟩ moved
    refine ⟨?_, stepRan known reached ran moved⟩
    rw [Runs.runSnoc, reached]
    exact moved
  · exact ⟨rfl, rfl, [], [], (List.append_nil _).symm, rfl, fun v mem => by cases mem⟩

theorem visitsTold {around : Surroundings} {agent : Int} {t : MBusAsciiMaster Line} {events : List Event}
    {visits : List Visit} (visited : ∀ v ∈ visits, Visited around t events v) {msg : Message}
    (mem : msg ∈ visits.flatMap (fun v => messagesOf agent t.mbus.bus v.reports)) :
    ∃ before there, before ++ [.cycle] <+: events ∧ Runs.run (step around) t before = some there ∧
      ∃ b ∈ t.mbus.bus, Told there.mbusProtocol agent b msg := by
  obtain ⟨v, visit, here⟩ := List.mem_flatMap.mp mem
  obtain ⟨before, there, reached, truthful⟩ := visited v visit
  exact ⟨v.before, there, before, reached, messagesTold truthful here⟩

theorem visitsAddresses {around : Surroundings} {agent : Int} {t : MBusAsciiMaster Line} {events : List Event}
    {visits : List Visit} (visited : ∀ v ∈ visits, Visited around t events v) :
    (visits.flatMap (fun v => messagesOf agent t.mbus.bus v.reports)).map Message.address =
      (List.replicate visits.length (t.mbus.bus.flatMap (allAddresses agent))).flatten := by
  induction visits with
  | nil => rfl
  | cons v rest ih =>
    obtain ⟨_, there, _, truthful⟩ := visited v (List.mem_cons_self ..)
    rw [List.flatMap_cons, List.map_append, List.length_cons, List.replicate_succ, List.flatten_cons,
      messagesAddresses truthful, ih (fun w mem => visited w (List.mem_cons_of_mem v mem))]

/- A master with one bus, whose port is still closed, in a system that stays active. -/
def calm : Surroundings := ⟨fun i => i, fun _ => true, 1, fun _ => false⟩

def sample : MBusAsciiMaster Line where
  thread := 1
  mbus := {MBusAbstract.new [] with
    agentID := some 1
    port := "COM1".toList
    baudRate := some 9600
    dataBits := some 8
    stopBits := some 1
    parity := some 0
    polling := some 2000
    timeout := some 1000
    retry := some 3
    pollDelay := some 0
    bus := [7]}
  mbusProtocol :=
    let m := bench ⟨List.replicate COIL_NUMBER true, List.replicate REGISTER_NUMBER 5⟩ (fun _ => .none)
    {m with serialPort := {m.serialPort with isOpen := false}}
  ticks := 0
  looks := 0
  enqueued := []

theorem sampleTurns : ∃ u, Runs.run (step calm) (setAgentStatus calm .INITIALIZE sample) [.cycle] = some u :=
  Option.isSome_iff_exists.mp (by decide +kernel)

/- Messages sent in a part of a run, and whether the port is open after it. -/
structure Sends (agent : Int) (t u : MBusAsciiMaster Line) (rounds : Nat) : Prop where
  opened : u.mbusProtocol.isOpen = true
  mbus : u.mbus = t.mbus
  posts : ∃ actions, u.enqueued = t.enqueued ++ actions ∧
    (sentMessages actions).map Message.address =
      (List.replicate rounds (t.mbus.bus.flatMap (allAddresses agent))).flatten

section Endings
variable {around : Surroundings} {agent : Int} {t u : MBusAsciiMaster Line}

theorem sendsNone {values : List DpValue} (opened : u.mbusProtocol.isOpen = true) (mbus : u.mbus = t.mbus)
    (posts : Posts t u [] values) : Sends agent t u 0 := by
  obtain ⟨actions, enqueued, sent, _⟩ := posts
  exact ⟨opened, mbus, actions, enqueued, by rw [sent]; rfl⟩

theorem sendsTrans {v : MBusAsciiMaster Line} {rounds : Nat} (first : Sends agent t u rounds) (second : Sends agent u v 0) :
    Sends agent t v rounds := by
  obtain ⟨actions, enqueued, sent⟩ := first.posts
  obtain ⟨more, enqueued', none⟩ := second.posts
  refine ⟨second.opened, second.mbus.trans first.mbus, actions ++ more, ?_, ?_⟩
  · rw [enqueued', enqueued, List.append_assoc]
  · rw [sentMessagesAppend, List.map_append, none, sent]
    exact List.append_nil _

/- While the port is open and nothing comes back from the end of the function, nothing is
polled. -/
theorem openQuiet (never : ∀ i, around.offEnd i = false) (always : ∀ i, around.isRedActive i = true)
    (known : t.mbus.agentID = some agent) (opened : t.mbusProtocol.isOpen = true) {events : List Event}
    (ok : Runs.run (step around) t events = some u) : Sends agent t u 0 := by
  refine Runs.invariant (P := fun u => Sends agent t u 0) ?_ (sendsNone opened rfl (postsNone rfl)) ok
  intro v e w sends moved
  cases e with
  | line l =>
    cases Option.some.inj moved
    exact sendsTrans sends (sendsNone sends.opened rfl (postsNone rfl))
  | cycle =>
    obtain ⟨keeps, cycles⟩ := cycleReports (by rw [sends.mbus, known]) moved
    cases cycles with
    | passive look closed posts =>
      rw [always] at look
      cases look
    | active look polls =>
      cases polls with
      | fallen opened' ends still posts => exact sendsTrans sends (sendsNone still keeps.mbus posts)
      | refused active closed unset posts =>
        rw [sends.opened] at closed
        cases closed
      | reported reports beats active stillActive ready _ truthful beating posts live =>
        rcases ready with closed | ⟨i, ends⟩
        · rw [sends.opened] at closed
          cases closed
        · rw [never] at ends
          cases ends

end Endings

end SerialModbus.MBusAsciiMaster
