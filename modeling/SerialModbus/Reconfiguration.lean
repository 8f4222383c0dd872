import SerialModbus.Suppression

/-! Configurations that come and go while messages are drained. The smoothing queue
of a full name outlives its configuration, so what was stored under an earlier one
can show after the name is set up again. -/
namespace SerialModbus.Reconfiguration
open Text Window HWService Process Suppression
open Addressing (lookedUp addressFree)

/- A config comes or goes, or a message of setStatus is drained. -/
inductive Input where
  | config (op : ConfigOp)
  | drain (agent addr reference type : Int) (value : QString) (invalid : Bool)
  deriving DecidableEq, Repr

def Input.op : Input → Op
  | .config op => .config op
  | .drain agent addr reference type value invalid => .drain (message agent addr reference type value invalid)

/- The base address a is mapped to the full name f, and f has an object. -/
def Current (st : Process) (a f : QString) : Prop :=
  st.driver.getParamAddress a = f ∧ Registered st.mapper.objects f
instance (st a f) : Decidable (Current st a f) := by
  unfold Current; infer_instance

/- The process, and beside it the messages for a since f last became current. -/
structure Watched where
  process : Process
  heard : List Message

def forAddress (a : QString) : Op → List Message
  | .config _ => []
  | .addParamAddress _ => []
  | .drain msg => if msg.address = a then [msg] else []

def watch (pvss : Pvss) (a f : QString) (w : Watched) (input : Input) : Option Watched :=
  (step pvss w.process input.op).map (fun t =>
    ⟨t, if Current w.process a f ∧ Current t a f then w.heard ++ forAddress a input.op else []⟩)

def begin (mapper : HWMapper) : Watched := ⟨boot mapper, []⟩

/- When f becomes current nothing waits under it, or its count is too small to see it. -/
def Fresh (pvss : Pvss) (a f : QString) (w : Watched) (input : Input) : Prop :=
  ∀ t, step pvss w.process input.op = some t → ¬ Current w.process a f → Current t a f →
    Driver.extractTime f ≤ 1 ∨ w.process.driver.queue f = []

def Clean (pvss : Pvss) (mapper : HWMapper) (a f : QString) (inputs : List Input) : Prop :=
  Runs.EachStep (watch pvss a f) (Fresh pvss a f) (begin mapper) inputs

/- Wherever both runs have heard the same since f became current, they decide alike
about the next message for a. -/
def Agree (pvss pvss' : Pvss) (mapper mapper' : HWMapper) (a f : QString) (inputs inputs' : List Input) :
    Prop :=
  ∀ pre pre' w w', pre <+: inputs → pre' <+: inputs' →
    Runs.run (watch pvss a f) (begin mapper) pre = some w →
    Runs.run (watch pvss' a f) (begin mapper') pre' = some w' →
    Current w.process a f → Current w'.process a f → w.heard = w'.heard →
    ∀ msg, msg.address = a → (Forwards pvss w.process msg ↔ Forwards pvss' w'.process msg)

/- What f keeps of the messages heard, unless its count is too small to tell. -/
def Heard (a f : QString) (w : Watched) : Prop :=
  Current w.process a f → Driver.extractTime f ≤ 1 ∨
    w.process.driver.queue f =
      (w.heard.map (fun msg => firstByte msg.value)).rtake (Driver.extractTime f).toNat

theorem watchCases {pvss : Pvss} {a f : QString} {w u : Watched} {input : Input}
    (ok : watch pvss a f w input = some u) : step pvss w.process input.op = some u.process ∧
      u.heard = if Current w.process a f ∧ Current u.process a f then w.heard ++ forAddress a input.op
        else [] := by
  obtain ⟨t, moved, rfl⟩ := Option.map_eq_some_iff.mp ok
  exact ⟨moved, rfl⟩

/- Watching does not disturb the process. -/
theorem watchedRun {pvss : Pvss} {a f : QString} {mapper : HWMapper} {inputs : List Input} {w : Watched}
    (ok : Runs.run (watch pvss a f) (begin mapper) inputs = some w) :
    Runs.run (step pvss) (boot mapper) (inputs.flatMap (fun input => [input.op])) = some w.process := by
  have each : ∀ (w : Watched) (input : Input) (u : Watched), watch pvss a f w input = some u →
      Runs.run (step pvss) w.process [input.op] = some u.process := by
    intro w input u moved
    rw [Runs.runCons, (watchCases moved).1]
    rfl
  exact Runs.simulates each ok

theorem configureQueue {pvss : Pvss} {st t : Process} {op : ConfigOp} (ok : configure pvss st op = some t)
    (f : QString) : t.driver.queue f = st.driver.queue f := by
  rcases (configureDriver ok).1 with same | ⟨name, added⟩
  · rw [same]
  · rw [added]
    exact Driver.queueManaged _ _ _ _

/- A message changes neither the mapping nor the objects. -/
theorem handleCurrent {pvss : Pvss} {st t : Process} {msg : Message} (ok : handle pvss st msg = some t)
    (a f : QString) : Current t a f ↔ Current st a f := by
  obtain ⟨mapper, names, _⟩ := handleFrame ok
  have name : t.driver.getParamAddress a = st.driver.getParamAddress a := names ⟨a, 0, [], false⟩
  rw [Current, Current, mapper, name]

/- A message stored under f slides its queue by one sample. -/
theorem handleSlides {pvss : Pvss} {st t : Process} {msg : Message} {f : QString} (windows : Windows st)
    (ok : handle pvss st msg = some t) (mapped : lookedUp st.driver msg = f)
    (present : Registered st.mapper.objects f) (marked : Driver.hasParameter f = true) :
    t.driver.queue f = slide (Driver.extractTime f).toNat (st.driver.queue f) (firstByte msg.value) := by
  obtain ⟨driver, outcome, stored, rfl⟩ := handleCases ok
  obtain ⟨addrObj, _, _, shape⟩ := storeSmoothed pvss (cString msg.value) msg.invalid mapped present marked
    (windowsBounded windows marked)
  rw [shape] at stored
  split at stored <;> try contradiction
  obtain ⟨rfl, _⟩ := Prod.mk.inj (Option.some.inj stored)
  rw [Driver.queueInsert, if_pos rfl]
  rfl

/-! One input: what f keeps goes along with what was heard. -/

section Step

variable {pvss : Pvss} {a f : QString} {w u : Watched} {input : Input}
  (base : '$' ∉ a) (marked : Driver.hasParameter f = true)

include base marked in
theorem drainHeard {msg : Message} (sent : '$' ∉ msg.address) (windows : Windows w.process)
    (routed : w.process.driver.Routed) (heard : Heard a f w)
    (moved : handle pvss w.process msg = some u.process)
    (record : u.heard = if Current w.process a f ∧ Current u.process a f then
      w.heard ++ forAddress a (.drain msg) else []) : Heard a f u := by
  intro current
  have before := (handleCurrent moved a f).mp current
  rw [if_pos ⟨before, current⟩] at record
  refine (heard before).imp_right fun kept => ?_
  by_cases mine : msg.address = a
  · have mapped : lookedUp w.process.driver msg = f := by
      rw [lookedUp, mine]
      exact before.1
    rw [handleSlides windows moved mapped before.2 marked, kept, slideHistory, record, forAddress,
      if_pos mine, List.map_append]
    rfl
  · -- another base address has another full name, so its queue is another one
    have other : f ≠ lookedUp w.process.driver msg := by
      intro same
      apply mine
      apply Driver.routedInjective routed sent base
      rw [before.1]
      exact same.symm
    obtain ⟨_, _, queues⟩ := handleFrame moved
    rw [queues f other, kept, record, forAddress, if_neg mine, List.append_nil]

theorem configHeard {op : ConfigOp} (heard : Heard a f w) (fresh : Fresh pvss a f w (.config op))
    (moved : step pvss w.process (.config op) = some u.process)
    (record : u.heard = if Current w.process a f ∧ Current u.process a f then
      w.heard ++ forAddress a (.config op) else []) : Heard a f u := by
  intro current
  rw [configureQueue moved f]
  by_cases before : Current w.process a f
  · rw [if_pos ⟨before, current⟩, forAddress, List.append_nil] at record
    rw [record]
    exact heard before
  · rw [if_neg (fun both => before both.1)] at record
    refine (fresh u.process moved before current).imp_right fun empty => ?_
    rw [empty, record, List.map_nil, List.rtake_nil]

include base marked in
theorem stepHeard (windows : Windows w.process) (routed : w.process.driver.Routed) (heard : Heard a f w)
    (fresh : Fresh pvss a f w input) (ok : watch pvss a f w input = some u) : Heard a f u := by
  obtain ⟨moved, record⟩ := watchCases ok
  cases input with
  | config op => exact configHeard heard fresh moved record
  | drain agent addr reference type value invalid =>
    exact drainHeard base marked (addressFree agent type addr reference) windows routed heard moved record

end Step

theorem cleanHeard {pvss : Pvss} {mapper : HWMapper} {a f : QString} {inputs : List Input}
    (base : '$' ∉ a) (marked : Driver.hasParameter f = true) (clean : Clean pvss mapper a f inputs)
    {pre : List Input} {w : Watched} (part : pre <+: inputs)
    (ok : Runs.run (watch pvss a f) (begin mapper) pre = some w) : Heard a f w := by
  have keeps : ∀ (v : Watched) (input : Input) (u : Watched),
      Windows v.process ∧ v.process.driver.Routed ∧ Heard a f v → Fresh pvss a f v input →
      watch pvss a f v input = some u → Windows u.process ∧ u.process.driver.Routed ∧ Heard a f u := by
    intro v input u inv fresh moved
    obtain ⟨windows, routed, heard⟩ := inv
    have stepped := (watchCases moved).1
    exact ⟨stepWindows windows stepped, stepRouted routed stepped,
      stepHeard base marked windows routed heard fresh moved⟩
  have none : (begin mapper).process.driver.queue f = [] := rfl
  have start : Heard a f (begin mapper) :=
    fun _ => Or.inr (by rw [none, begin, List.map_nil, List.rtake_nil])
  exact (Runs.eachInvariant keeps ⟨bootWindows mapper, Driver.routedNew, start⟩ clean pre w part ok).2.2

/-! The decision about the next message, from what was heard alone. -/

theorem settledFew {n : Nat} (few : n ≤ 1) (window : List PVSSchar) (x : PVSSchar) :
    Settled (slide n window x) x := by
  have none : n - 1 = 0 := by omega
  rw [slide, settledSnoc, none]
  simp [Settled]

theorem forwardsCurrent {pvss : Pvss} {st : Process} {a f : QString} {msg : Message}
    (marked : Driver.hasParameter f = true) (windows : Windows st) (current : Current st a f)
    (mine : msg.address = a) : Forwards pvss st msg ↔ -1 ≤ Driver.extractTime f ∧
      Settled (slide (Driver.extractTime f).toNat (st.driver.queue f) (firstByte msg.value))
        (firstByte msg.value) := by
  have mapped : lookedUp st.driver msg = f := by
    rw [lookedUp, mine]
    exact current.1
  subst mapped
  exact forwardsSmoothed windows current.2 marked

theorem forwardsHeard {pvss : Pvss} {w : Watched} {a f : QString} {msg : Message}
    (marked : Driver.hasParameter f = true) (windows : Windows w.process) (current : Current w.process a f)
    (heard : Heard a f w) (mine : msg.address = a) :
    Forwards pvss w.process msg ↔ -1 ≤ Driver.extractTime f ∧ (Driver.extractTime f ≤ 1 ∨
      Settled (slide (Driver.extractTime f).toNat ((w.heard.map (fun msg => firstByte msg.value)).rtake
        (Driver.extractTime f).toNat) (firstByte msg.value)) (firstByte msg.value)) := by
  rw [forwardsCurrent marked windows current mine]
  refine and_congr_right fun _ => ?_
  rcases heard current with few | kept
  · exact iff_of_true (settledFew (by omega) _ _) (Or.inl few)
  · rw [kept]
    constructor
    · exact Or.inr
    · rintro (few | settled)
      · exact settledFew (by omega) _ _
      · exact settled

theorem cleanAgree {pvss pvss' : Pvss} {mapper mapper' : HWMapper} {a f : QString}
    {inputs inputs' : List Input} (base : '$' ∉ a) (marked : Driver.hasParameter f = true)
    (clean : Clean pvss mapper a f inputs) (other : Clean pvss' mapper' a f inputs') :
    Agree pvss pvss' mapper mapper' a f inputs inputs' := by
  intro pre pre' w w' part part' ok ok' current current' same msg mine
  rw [forwardsHeard marked (runWindows (watchedRun ok)) current (cleanHeard base marked clean part ok) mine,
    forwardsHeard marked (runWindows (watchedRun ok')) current' (cleanHeard base marked other part' ok') mine,
    same]

/-! The run that tells what an earlier configuration left behind: f is set up in a
process that has just started. -/

def setUp (f : QString) : Input := .config (.addDpPa none ⟨f, Global.DriverTypes.REGISTERS.code⟩ true)

theorem setUpRun (a rest : QString) (base : '$' ∉ a) : ∃ w,
    Runs.run (watch Pvss.front a (a ++ '$' :: rest)) (begin ⟨[], []⟩) [setUp (a ++ '$' :: rest)] = some w ∧
    Current w.process a (a ++ '$' :: rest) ∧ w.heard = [] ∧
    Clean Pvss.front ⟨[], []⟩ a (a ++ '$' :: rest) [setUp (a ++ '$' :: rest)] := by
  have before : ¬ Current (boot ⟨[], []⟩) a (a ++ '$' :: rest) := by
    rintro ⟨same, _⟩
    have unmapped : a = a ++ '$' :: rest := same
    rw [unmapped] at base
    exact base (List.mem_append_right a List.mem_cons_self)
  refine ⟨_, rfl, ⟨?_, ?_⟩, ?_, ?_⟩
  · exact (getAdded _ _ _).trans (if_pos (Driver.extractMark base))
  · exact ⟨_, List.mem_singleton.mpr rfl, rfl⟩
  · exact if_neg (fun both => before both.1)
  · rintro pre input w _ part reached _ t _ _ _
    -- the only step starts from the empty process
    have short := part.length_le
    cases pre with
    | nil =>
      cases Option.some.inj reached
      exact Or.inr rfl
    | cons first more => simp at short

/- The newest sample of a queue is in every window that looks back. -/
theorem newestSeen {n : Nat} {queue : List PVSSchar} (nonempty : queue ≠ []) (window : 2 ≤ n) {x : PVSSchar}
    (settled : Settled (slide n queue x) x) : queue.getLast nonempty = x := by
  have last : queue.rtake (n - 1) = queue.dropLast.rtake (n - 1 - 1) ++ [queue.getLast nonempty] := by
    conv_lhs => rw [← List.dropLast_append_getLast nonempty, rtakeSnoc, if_neg (by omega)]
  rw [slide, settledSnoc, last] at settled
  exact settled _ (List.mem_append_right _ (List.mem_singleton.mpr rfl))

/- With something under f as it becomes current, one of two messages tells. -/
theorem leftoverTells (pvss : Pvss) {st : Process} {a f : QString} (marked : Driver.hasParameter f = true)
    (windows : Windows st) (current : Current st a f) (window : 2 ≤ Driver.extractTime f)
    (nonempty : st.driver.queue f ≠ []) : ∃ msg : Message, msg.address = a ∧ ¬ Forwards pvss st msg := by
  have differ : firstByte "0".toList ≠ firstByte "1".toList := by decide
  by_cases zero : (st.driver.queue f).getLast nonempty = firstByte "0".toList
  · refine ⟨⟨a, 0, "1".toList, false⟩, rfl, ?_⟩
    rw [forwardsCurrent marked windows current rfl]
    rintro ⟨_, settled⟩
    exact differ (zero.symm.trans (newestSeen nonempty (by omega) settled))
  · refine ⟨⟨a, 0, "0".toList, false⟩, rfl, ?_⟩
    rw [forwardsCurrent marked windows current rfl]
    rintro ⟨_, settled⟩
    exact zero (newestSeen nonempty (by omega) settled)

theorem agreeClean {pvss : Pvss} {mapper : HWMapper} {a rest : QString} {inputs : List Input}
    (base : '$' ∉ a)
    (agree : Agree pvss Pvss.front mapper ⟨[], []⟩ a (a ++ '$' :: rest) inputs [setUp (a ++ '$' :: rest)]) :
    Clean pvss mapper a (a ++ '$' :: rest) inputs := by
  have marked : Driver.hasParameter (a ++ '$' :: rest) = true := by
    rw [Driver.hasParameterIff]
    exact List.mem_append_right a List.mem_cons_self
  intro pre input w u part reached moved t stepped before after
  obtain ⟨same, record⟩ := watchCases moved
  rw [stepped] at same
  cases Option.some.inj same
  by_contra left
  rw [not_or, Int.not_le] at left
  obtain ⟨window, waiting⟩ := left
  -- a message does not make f current, so the step was a config and moved no queue
  have queue : u.process.driver.queue (a ++ '$' :: rest) = w.process.driver.queue (a ++ '$' :: rest) := by
    cases input with
    | config op => exact configureQueue stepped _
    | drain agent addr reference type value invalid =>
      exact absurd ((handleCurrent stepped a _).mp after) before
  have ran : Runs.run (watch pvss a (a ++ '$' :: rest)) (begin mapper) (pre ++ [input]) = some u := by
    rw [Runs.runSnoc, reached]
    exact moved
  obtain ⟨w', ran', current', silent, clean⟩ := setUpRun a rest base
  rw [if_neg (fun both => before both.1)] at record
  obtain ⟨msg, mine, delayed⟩ := leftoverTells pvss marked (runWindows (watchedRun ran)) after window
    (queue ▸ waiting)
  have forwards : Forwards Pvss.front w'.process msg := by
    rw [forwardsHeard marked (runWindows (watchedRun ran')) current'
      (cleanHeard base marked clean (List.prefix_refl _) ran') mine, silent, List.map_nil, List.rtake_nil]
    refine ⟨by omega, Or.inr ?_⟩
    rw [slide, settledSnoc]
    simp [Settled]
  exact delayed ((agree _ _ u w' part (List.prefix_refl _) ran ran' after current' (record.trans silent.symm)
    msg mine).mpr forwards)

/- For a base address and any full name of it: a run decides about messages for the
address as every run without leftovers that heard the same exactly when it has no
leftovers itself, that is, when the queue of the name is empty, or its count at
most one, whenever a config makes the name current. -/
theorem independentExact (pvss : Pvss) (mapper : HWMapper) (inputs : List Input) (a rest : QString)
    (base : '$' ∉ a) :
    (∀ pvss' mapper' inputs', Clean pvss' mapper' a (a ++ '$' :: rest) inputs' →
      Agree pvss pvss' mapper mapper' a (a ++ '$' :: rest) inputs inputs') ↔
    Clean pvss mapper a (a ++ '$' :: rest) inputs := by
  constructor
  · intro all
    obtain ⟨_, _, _, _, clean⟩ := setUpRun a rest base
    exact agreeClean base (all _ _ _ clean)
  · intro clean pvss' mapper' inputs' other
    have marked : Driver.hasParameter (a ++ '$' :: rest) = true := by
      rw [Driver.hasParameterIff]
      exact List.mem_append_right a List.mem_cons_self
    exact cleanAgree base marked clean other

def register1 : QString := "1_1702_1.1".toList
def smoothed2 : QString := register1 ++ '$' :: "2".toList

def smoothed3 : QString := register1 ++ '$' :: "3".toList

def readTen : Input := .drain 1 1 1 1702 "10".toList false

/- The register is set up and read. -/
def readOnce : List Input := [setUp smoothed2, readTen]

/- The same register, after it was read with another count, and another one read since. -/
def readAfter : List Input :=
  [setUp smoothed3, .drain 1 1 1 1702 "55".toList false, .config (.clrDpPa none ⟨smoothed3, 1702⟩),
    setUp smoothed2, .drain 1 1 2 1702 "77".toList false, readTen]

theorem drainFresh (pvss : Pvss) (a f : QString) (w : Watched) (agent addr reference type : Int) (value : QString)
    (invalid : Bool) : Fresh pvss a f w (.drain agent addr reference type value invalid) :=
  fun _ moved before after => absurd ((handleCurrent moved a f).mp after) before

theorem emptyFresh {pvss : Pvss} {a f : QString} {pre : List Input} {w : Watched} (input : Input)
    (empty : (Runs.run (watch pvss a f) (begin ⟨[], []⟩) pre).map (fun w => w.process.driver.queue f) = some [])
    (reached : Runs.run (watch pvss a f) (begin ⟨[], []⟩) pre = some w) : Fresh pvss a f w input := by
  rw [reached] at empty
  exact fun _ _ _ _ => Or.inr (Option.some.inj empty)

theorem readAfterClean : Clean Pvss.front ⟨[], []⟩ register1 smoothed2 readAfter := by
  have start : Clean Pvss.front ⟨[], []⟩ register1 smoothed2 [] :=
    fun pre input _ _ part => absurd part.length_le (by simp)
  have first := Runs.eachSnoc start fun w reached => emptyFresh (setUp smoothed3) (by decide) reached
  have read := Runs.eachSnoc first fun w _ => drainFresh Pvss.front register1 smoothed2 w 1 1 1 1702 "55".toList false
  have cleared := Runs.eachSnoc read fun w reached =>
    emptyFresh (.config (.clrDpPa none ⟨smoothed3, 1702⟩)) (by decide) reached
  have second := Runs.eachSnoc cleared fun w reached => emptyFresh (setUp smoothed2) (by decide) reached
  have other := Runs.eachSnoc second fun w _ =>
    drainFresh Pvss.front register1 smoothed2 w 1 1 2 1702 "77".toList false
  exact Runs.eachSnoc other fun w _ => drainFresh Pvss.front register1 smoothed2 w 1 1 1 1702 "10".toList false

/- Both have heard one reading since the name became current, and decide alike from then on. -/
theorem independentExactTwo : ∃ w u,
    Runs.run (watch Pvss.front register1 smoothed2) (begin ⟨[], []⟩) readAfter = some w ∧
    Runs.run (watch Pvss.front register1 smoothed2) (begin ⟨[], []⟩) readOnce = some u ∧
    w.heard = u.heard ∧ w.heard.length = 1 ∧
    ∀ msg, msg.address = register1 → (Forwards Pvss.front w.process msg ↔ Forwards Pvss.front u.process msg) := by
  obtain ⟨_, _, _, _, clean⟩ := setUpRun register1 "2".toList (by decide)
  have once : Clean Pvss.front ⟨[], []⟩ register1 smoothed2 readOnce :=
    Runs.eachSnoc clean fun w _ => drainFresh Pvss.front register1 smoothed2 w 1 1 1 1702 "10".toList false
  have agree := (independentExact Pvss.front ⟨[], []⟩ readAfter register1 "2".toList (by decide)).mpr readAfterClean
    Pvss.front ⟨[], []⟩ readOnce once
  have facts : ∀ inputs ∈ [readAfter, readOnce],
      (Runs.run (watch Pvss.front register1 smoothed2) (begin ⟨[], []⟩) inputs).map
        (fun w => (decide (Current w.process register1 smoothed2), w.heard)) =
          some (true, [message 1 1 1 1702 "10".toList false]) := by decide
  obtain ⟨w, ran, here⟩ := Option.map_eq_some_iff.mp (facts readAfter (by decide))
  obtain ⟨u, also, there⟩ := Option.map_eq_some_iff.mp (facts readOnce (by decide))
  obtain ⟨current, heard⟩ := Prod.mk.inj here
  obtain ⟨current', heard'⟩ := Prod.mk.inj there
  refine ⟨w, u, ran, also, heard.trans heard'.symm, by rw [heard]; rfl, ?_⟩
  exact agree readAfter readOnce w u (List.prefix_refl _) (List.prefix_refl _) ran also (of_decide_eq_true current)
    (of_decide_eq_true current') (heard.trans heard'.symm)

/- A register smoothed over two cycles reads 10, and its config is cleared. -/
def readAndCleared : List Input :=
  [setUp smoothed2, .drain 1 1 1 1702 "10".toList false, .config (.clrDpPa none ⟨smoothed2, 1702⟩)]

/- Set up again, the register still compares with that reading. -/
theorem notIndependent : ¬ ∀ (pvss pvss' : Pvss) (mapper mapper' : HWMapper) (inputs inputs' : List Input)
    (a rest : QString), '$' ∉ a → Agree pvss pvss' mapper mapper' a (a ++ '$' :: rest) inputs inputs' := by
  intro all
  have clean : Clean Pvss.front ⟨[], []⟩ register1 smoothed2 (readAndCleared ++ [setUp smoothed2]) :=
    agreeClean (by decide) (all _ _ _ _ _ _ register1 "2".toList (by decide))
  have facts : (Runs.run (watch Pvss.front register1 smoothed2) (begin ⟨[], []⟩) readAndCleared).map
      (fun w => (w.process.driver.queue smoothed2, decide (Current w.process register1 smoothed2))) =
        some ([49], false) := by decide
  obtain ⟨w, reached, facts⟩ := Option.map_eq_some_iff.mp facts
  obtain ⟨queue, before⟩ := Prod.mk.inj facts
  have again : (Runs.run (watch Pvss.front register1 smoothed2) (begin ⟨[], []⟩)
      (readAndCleared ++ [setUp smoothed2])).map
        (fun u => decide (Current u.process register1 smoothed2)) = some true := by decide
  obtain ⟨u, ran, after⟩ := Option.map_eq_some_iff.mp again
  obtain ⟨v, also, moved⟩ := Runs.runSnocSome ran
  rw [reached] at also
  cases Option.some.inj also
  have fresh := clean readAndCleared (setUp smoothed2) w u (List.prefix_refl _) reached moved u.process
    (watchCases moved).1 (of_decide_eq_false before) (of_decide_eq_true after)
  rw [queue] at fresh
  exact absurd fresh (by decide)

end SerialModbus.Reconfiguration
