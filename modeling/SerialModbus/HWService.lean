import SerialModbus.HWMapper
import SerialModbus.Runs

/-! The hardware service: messages and data-point values wait in two queues until
workProc hands them to the manager. The mapper is installed and PVSS calls return
normally; a step that runs into undefined behaviour has no result. -/
namespace SerialModbus
open Text Global

structure Message where
  address : QString
  type : Int
  value : QString
  invalid : Bool
  deriving DecidableEq, Repr

/- The variables the masters build: UIntegerVar, BitVar, and a DynVar of UIntegerVar. -/
inductive Variable where
  | uinteger (value : Int)
  | bit (value : Bool)
  | dyn (items : List Int)
  deriving DecidableEq, Repr

structure DpValue where
  dpId : DpIdentifier
  value : Variable
  deriving DecidableEq, Repr

/- What storeToDB did with the object it built from its arguments. -/
inductive Outcome where
  | toDp (obj addrObj : HWObject)
  | smoothed (obj addrObj : HWObject) (time : Int)
  | unknown (obj : HWObject)
  deriving DecidableEq, Repr

/- One turn of workProc's first loop: the message it took, the arguments it passed
to storeToDB, and the outcome. -/
structure Stored where
  message : Message
  address : QString
  value : List PVSSchar
  invalid : Bool
  outcome : Outcome
  deriving DecidableEq, Repr

inductive Call where
  | storeToDB (stored : Stored)
  | dpSet (dpValue : DpValue)
  deriving DecidableEq, Repr

/- calls is what the service has asked of the manager so far, in order. -/
structure Process where
  driver : Driver
  mapper : HWMapper
  messages : List Message
  dpValues : List DpValue
  calls : List Call

namespace HWService

def DATA_FORMAT : QString := "%d_%d_%d.%d".toList

/- ARRAY_SIZE of a char pointer on the Win32 target: four bytes by one. -/
def pointerSize : Nat := 4

def objectFor (fullName : QString) (value : List PVSSchar) (invalid : Bool) : HWObject where
  address := fullName
  dlen := pointerSize
  data := value
  invalid := invalid
  userByte0 := if invalid then 1 else 0

def storeToDB (pvss : Pvss) (d : Driver) (objects : List HWObject) (address : QString)
    (value : List PVSSchar) (invalid : Bool) : Option (Driver × Outcome) :=
  let address := d.getParamAddress address
  let obj := objectFor address value invalid
  match pvss.findHWObject objects obj with
  | none => some (d, .unknown obj)
  | some addrObj =>
      if Driver.hasParameter address then do
        let time := Driver.extractTime address
        let (d, pass) ← d.applyValueAgainstSmoothing address time (deref value)
        some (d, if pass then .toDp obj addrObj else .smoothed obj addrObj time)
      else some (d, .toDp obj addrObj)

/- A call of storeToDB, and the record of what it was called with. -/
def record (pvss : Pvss) (d : Driver) (objects : List HWObject) (msg : Message) (address : QString)
    (value : List PVSSchar) (invalid : Bool) : Option (Driver × Stored) :=
  (storeToDB pvss d objects address value invalid).map (fun (e, outcome) =>
    (e, ⟨msg, address, value, invalid, outcome⟩))

def handle (pvss : Pvss) (st : Process) (msg : Message) : Option Process := do
  let (driver, stored) ←
    record pvss st.driver st.mapper.objects msg msg.address (cString msg.value) msg.invalid
  some {st with driver := driver, calls := st.calls ++ [.storeToDB stored]}

/- while (messages->length() > 0) -/
def storeLoop (pvss : Pvss) : List Message → Process → Option Process
  | [], st => some {st with messages := []}
  | msg :: rest, st => do
      let st ← handle pvss {st with messages := rest} msg
      storeLoop pvss rest st

def set (st : Process) (v : DpValue) : Process := {st with calls := st.calls ++ [.dpSet v]}

/- while (dpValues->length() > 0) -/
def setLoop : List DpValue → Process → Process
  | [], st => {st with dpValues := []}
  | v :: rest, st => setLoop rest (set {st with dpValues := rest} v)

def workProc (pvss : Pvss) (st : Process) : Option Process := do
  let st ← storeLoop pvss st.messages st
  some (setLoop st.dpValues st)

def message (agent addr reference type : Int) (value : QString) (invalid : Bool) : Message where
  address := sprintf DATA_FORMAT [agent, type, addr, reference]
  type := type
  value := value
  invalid := invalid

def setStatus (st : Process) (agent addr reference type : Int) (value : QString) (invalid : Bool) : Process :=
  {st with messages := st.messages ++ [message agent addr reference type value invalid]}

def setDpValue (st : Process) (dpId : DpIdentifier) (value : Variable) : Process :=
  {st with dpValues := st.dpValues ++ [⟨dpId, value⟩]}

end HWService

/-! What a call of storeToDB can do. -/

namespace Outcome

def obj : Outcome → HWObject
  | .toDp obj _ => obj
  | .smoothed obj _ _ => obj
  | .unknown obj => obj

def found : Outcome → Bool
  | .unknown _ => false
  | _ => true

def forwarded : Outcome → Bool
  | .toDp _ _ => true
  | _ => false

end Outcome

def Registered (objects : List HWObject) (fullName : QString) : Prop :=
  ∃ o ∈ objects, o.address = fullName
instance (objects fullName) : Decidable (Registered objects fullName) := by
  unfold Registered; infer_instance

theorem registeredIff {m : HWMapper} {fullName : QString} :
    Registered m.objects fullName ↔ fullName ∈ addresses m := by
  simp [Registered, addresses]

namespace HWService

theorem storeUnregistered (pvss : Pvss) {d : Driver} {objects : List HWObject} {address : QString}
    (value : List PVSSchar) (invalid : Bool) (absent : ¬ Registered objects (d.getParamAddress address)) :
    storeToDB pvss d objects address value invalid =
      some (d, .unknown (objectFor (d.getParamAddress address) value invalid)) := by
  cases h : pvss.findHWObject objects (objectFor (d.getParamAddress address) value invalid) with
  | none => simp only [storeToDB, h]
  | some o =>
    obtain ⟨mem, same⟩ := pvss.objectFound h
    exact absurd ⟨o, mem, same⟩ absent

/- For a registered full name the choice is between forwarding at once and
asking the smoothing queue of that full name. -/
theorem storeRegistered (pvss : Pvss) {d : Driver} {objects : List HWObject} {address : QString}
    (value : List PVSSchar) (invalid : Bool) (present : Registered objects (d.getParamAddress address)) :
    ∃ addrObj ∈ objects, addrObj.address = d.getParamAddress address ∧
      storeToDB pvss d objects address value invalid =
        if Driver.hasParameter (d.getParamAddress address) = true then
          (d.applyValueAgainstSmoothing (d.getParamAddress address)
            (Driver.extractTime (d.getParamAddress address)) (deref value)).map (fun (e, pass) =>
              (e, if pass then .toDp (objectFor (d.getParamAddress address) value invalid) addrObj
                else .smoothed (objectFor (d.getParamAddress address) value invalid) addrObj
                  (Driver.extractTime (d.getParamAddress address))))
        else some (d, .toDp (objectFor (d.getParamAddress address) value invalid) addrObj) := by
  cases h : pvss.findHWObject objects (objectFor (d.getParamAddress address) value invalid) with
  | none =>
    obtain ⟨o, mem, same⟩ := present
    exact absurd same (pvss.objectMissing h o mem)
  | some o =>
    obtain ⟨mem, same⟩ := pvss.objectFound h
    refine ⟨o, mem, same, ?_⟩
    simp only [storeToDB, h, bind]
    cases d.applyValueAgainstSmoothing (d.getParamAddress address)
      (Driver.extractTime (d.getParamAddress address)) (deref value) <;> rfl

/- Whatever the outcome, it is about the mapped name, and only that queue moved. -/
theorem storeFrame {pvss : Pvss} {d e : Driver} {objects : List HWObject} {address : QString}
    {value : List PVSSchar} {invalid : Bool} {outcome : Outcome}
    (ok : storeToDB pvss d objects address value invalid = some (e, outcome)) :
    outcome.obj = objectFor (d.getParamAddress address) value invalid ∧
      (outcome.found = true ↔ Registered objects (d.getParamAddress address)) ∧
      (∀ obj addrObj, outcome = .toDp obj addrObj →
        addrObj ∈ objects ∧ addrObj.address = d.getParamAddress address) ∧
      e.mbus = d.mbus ∧ e.paramAddress = d.paramAddress ∧
      ∀ key, key ≠ d.getParamAddress address → e.queue key = d.queue key := by
  by_cases present : Registered objects (d.getParamAddress address)
  · obtain ⟨addrObj, mem, same, shape⟩ := storeRegistered pvss value invalid present
    rw [shape] at ok
    split at ok
    · obtain ⟨⟨f, pass⟩, hs, last⟩ := Option.map_eq_some_iff.mp ok
      obtain ⟨rfl, rfl⟩ := Prod.mk.inj last
      have frame := Driver.smoothingFrame hs
      refine ⟨by cases pass <;> rfl, by cases pass <;> simp [Outcome.found, present], ?_, frame⟩
      intro obj other forward
      cases pass <;> simp only [Bool.false_eq_true, if_false, if_true, reduceCtorEq] at forward
      cases forward
      exact ⟨mem, same⟩
    · obtain ⟨rfl, rfl⟩ := Prod.mk.inj (Option.some.inj ok)
      refine ⟨rfl, by simp [Outcome.found, present], ?_, rfl, rfl, fun _ _ => rfl⟩
      intro obj other forward
      cases forward
      exact ⟨mem, same⟩
  · rw [storeUnregistered pvss value invalid present] at ok
    obtain ⟨rfl, rfl⟩ := Prod.mk.inj (Option.some.inj ok)
    refine ⟨rfl, by simp [Outcome.found, present], ?_, rfl, rfl, fun _ _ => rfl⟩
    intro _ _ forward
    cases forward

/- One turn of the loop: the store, and one more call on record. -/
theorem handleStored (pvss : Pvss) (st : Process) (msg : Message) :
    handle pvss st msg =
      (storeToDB pvss st.driver st.mapper.objects msg.address (cString msg.value) msg.invalid).map
        (fun (driver, outcome) => {st with
          driver := driver
          calls := st.calls ++
            [.storeToDB ⟨msg, msg.address, cString msg.value, msg.invalid, outcome⟩]}) := by
  simp only [handle, record, bind]
  cases storeToDB pvss st.driver st.mapper.objects msg.address (cString msg.value) msg.invalid <;> rfl

theorem handleCases {pvss : Pvss} {st t : Process} {msg : Message} (ok : handle pvss st msg = some t) :
    ∃ driver outcome,
      storeToDB pvss st.driver st.mapper.objects msg.address (cString msg.value) msg.invalid =
        some (driver, outcome) ∧
      t = {st with
        driver := driver
        calls := st.calls ++
          [.storeToDB ⟨msg, msg.address, cString msg.value, msg.invalid, outcome⟩]} := by
  rw [handleStored] at ok
  obtain ⟨⟨driver, outcome⟩, hs, last⟩ := Option.map_eq_some_iff.mp ok
  exact ⟨driver, outcome, hs, last.symm⟩

/- One turn never looks at what is still waiting. -/
theorem handleWaiting (pvss : Pvss) (st : Process) (msg : Message) (queue : List Message)
    (values : List DpValue) :
    handle pvss {st with messages := queue, dpValues := values} msg =
      (handle pvss st msg).map (fun t => {t with messages := queue, dpValues := values}) := by
  rw [handleStored, handleStored, Option.map_map]
  rfl

theorem runWaiting (pvss : Pvss) (msgs : List Message) (st : Process) (queue : List Message)
    (values : List DpValue) :
    Runs.run (handle pvss) {st with messages := queue, dpValues := values} msgs =
      (Runs.run (handle pvss) st msgs).map (fun t => {t with messages := queue, dpValues := values}) := by
  induction msgs generalizing st with
  | nil => rfl
  | cons msg rest ih =>
    simp only [Runs.runCons, handleWaiting]
    cases handle pvss st msg with
    | none => rfl
    | some t => exact ih t

/- The first loop is the run of its messages. -/
theorem storeLoopRun (pvss : Pvss) (msgs : List Message) (st : Process) :
    storeLoop pvss msgs st =
      (Runs.run (handle pvss) st msgs).map (fun t => {t with messages := [], dpValues := st.dpValues}) := by
  induction msgs generalizing st with
  | nil => rfl
  | cons msg rest ih =>
    simp only [storeLoop, bind, handleWaiting, Runs.runCons]
    cases handle pvss st msg with
    | none => rfl
    | some t =>
      simp only [Option.map_some, Option.bind_some, ih, runWaiting, Option.map_map]
      rfl

theorem setLoopCalls (vs : List DpValue) (st : Process) :
    setLoop vs st = {st with dpValues := [], calls := st.calls ++ vs.map Call.dpSet} := by
  induction vs generalizing st with
  | nil => simp [setLoop]
  | cons v rest ih =>
    rw [setLoop, ih]
    simp [set, List.append_assoc]

/- Both loops together. -/
theorem workProcRun (pvss : Pvss) (st : Process) :
    workProc pvss st = (Runs.run (handle pvss) st st.messages).map (fun t =>
      {t with messages := [], dpValues := [], calls := t.calls ++ st.dpValues.map Call.dpSet}) := by
  simp only [workProc, bind, storeLoopRun, setLoopCalls]
  cases Runs.run (handle pvss) st st.messages <;> rfl

end HWService
end SerialModbus
