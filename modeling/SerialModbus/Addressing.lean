import SerialModbus.HWService

/-! From the numbers of a coil or register to the full name its value is stored
under: the printed address, and the registration that took it last. -/
namespace SerialModbus.Addressing
open Text HWService HWMapper

theorem formatParts : DATA_FORMAT = ['%', 'd', '_', '%', 'd', '_', '%', 'd', '.', '%', 'd'] := rfl

theorem addressText (agent type addr reference : Int) :
    sprintf DATA_FORMAT [agent, type, addr, reference] =
      number agent ++ '_' :: (number type ++ '_' :: (number addr ++ '.' :: number reference)) := by
  rw [formatParts]
  simp [sprintf]

theorem addressFree (agent type addr reference : Int) :
    '$' ∉ sprintf DATA_FORMAT [agent, type, addr, reference] := by
  have free := numberOmits (c := '$') rfl (by decide)
  rw [addressText]
  simp [free]

theorem addressInjective {agent type addr reference agent' type' addr' reference' : Int}
    (same : sprintf DATA_FORMAT [agent, type, addr, reference] =
      sprintf DATA_FORMAT [agent', type', addr', reference']) :
    agent = agent' ∧ type = type' ∧ addr = addr' ∧ reference = reference' := by
  have underscore := numberOmits (c := '_') rfl (by decide)
  have dot := numberOmits (c := '.') rfl (by decide)
  rw [addressText, addressText] at same
  obtain ⟨agents, rest⟩ := Decimal.splitUnique (underscore agent) (underscore agent') same
  obtain ⟨types, rest⟩ := Decimal.splitUnique (underscore type) (underscore type') rest
  obtain ⟨addrs, references⟩ := Decimal.splitUnique (dot addr) (dot addr') rest
  exact ⟨numberInjective agents, numberInjective types, numberInjective addrs, numberInjective references⟩

def register (d : Driver) (names : List QString) : Driver := names.foldl addParamAddress d

def latest (names : List QString) (key : QString) : Option QString :=
  names.reverse.find? (fun name => Driver.extractAddress name == key)

theorem getRegistered (d : Driver) (names : List QString) (key : QString) :
    (register d names).getParamAddress key = (latest names key).getD (d.getParamAddress key) := by
  induction names using List.reverseRecOn with
  | nil => rfl
  | append_singleton names name ih =>
    have last : register d (names ++ [name]) = addParamAddress (register d names) name := by
      simp [register]
    rw [last, getAdded, ih]
    by_cases same : Driver.extractAddress name = key <;> simp [latest, same]

theorem registerRouted (d : Driver) (routed : d.Routed) (names : List QString) :
    (register d names).Routed := by
  induction names generalizing d with
  | nil => exact routed
  | cons name rest ih => exact ih _ (Driver.routedManaged routed name)

/- The name a drained message is looked up under. -/
def lookedUp (d : Driver) (msg : Message) : QString := d.getParamAddress msg.address

theorem lookedUpInjective {d : Driver} (routed : d.Routed)
    {agent addr reference type agent' addr' reference' type' : Int} {value value' : QString}
    {invalid invalid' : Bool}
    (same : lookedUp d (message agent addr reference type value invalid) =
      lookedUp d (message agent' addr' reference' type' value' invalid')) :
    agent = agent' ∧ addr = addr' ∧ reference = reference' ∧ type = type' := by
  have texts := Driver.routedInjective routed (addressFree agent type addr reference)
    (addressFree agent' type' addr' reference') same
  obtain ⟨agents, types, addrs, references⟩ := addressInjective texts
  exact ⟨agents, addrs, references, types⟩

/- Over any registrations and any message of setStatus: what storeToDB looks up,
what it is the full name of, and that no other numbers lead there. -/
theorem routing (names : List QString) (agent addr reference type : Int) (value : QString)
    (invalid : Bool) :
    let d := register Driver.new names
    let msg := message agent addr reference type value invalid
    let text := number agent ++ '_' :: (number type ++ '_' :: (number addr ++ '.' :: number reference))
    msg.address = text ∧
    lookedUp d msg = (latest names text).getD text ∧
    Driver.extractAddress (lookedUp d msg) = text ∧
    (∀ agent' addr' reference' type' value' invalid',
      lookedUp d (message agent' addr' reference' type' value' invalid') = lookedUp d msg →
      agent' = agent ∧ addr' = addr ∧ reference' = reference ∧ type' = type) ∧
    (∀ pvss objects e outcome,
      storeToDB pvss d objects msg.address (cString msg.value) msg.invalid = some (e, outcome) →
      outcome.obj.address = lookedUp d msg ∧
      ∀ obj addrObj, outcome = .toDp obj addrObj → addrObj.address = lookedUp d msg) := by
  intro d msg text
  have printed : msg.address = text := addressText agent type addr reference
  have routed : d.Routed := registerRouted _ Driver.routedNew names
  refine ⟨printed, ?_, ?_, ?_, ?_⟩
  · rw [lookedUp, printed, getRegistered]
    rfl
  · rw [← printed]
    exact routed msg.address (addressFree agent type addr reference)
  · intro _ _ _ _ _ _ same
    exact lookedUpInjective routed same
  · intro pvss objects e outcome stored
    obtain ⟨about, _, target, _⟩ := storeFrame stored
    refine ⟨by rw [about]; rfl, ?_⟩
    intro obj addrObj forward
    exact (target obj addrObj forward).2

example : latest ["1_1701_1.1$3".toList, "1_1701_1.1".toList, "1_1701_1.2$3".toList]
    "1_1701_1.1".toList = some "1_1701_1.1".toList := rfl

theorem routingOne : lookedUp (register Driver.new ["1_1701_1.1$3".toList])
      (message 1 1 1 1701 "1".toList false) = "1_1701_1.1$3".toList ∧
    ∀ agent' addr' reference' type' value' invalid',
      lookedUp (register Driver.new ["1_1701_1.1$3".toList])
        (message agent' addr' reference' type' value' invalid') = "1_1701_1.1$3".toList →
      agent' = 1 ∧ addr' = 1 ∧ reference' = 1 ∧ type' = 1701 := by
  have here : lookedUp (register Driver.new ["1_1701_1.1$3".toList])
      (message 1 1 1 1701 "1".toList false) = "1_1701_1.1$3".toList := rfl
  refine ⟨here, ?_⟩
  intro agent' addr' reference' type' value' invalid' same
  exact (routing ["1_1701_1.1$3".toList] 1 1 1 1701 "1".toList false).2.2.2.1 _ _ _ _ _ _
    (same.trans here.symm)

end SerialModbus.Addressing
