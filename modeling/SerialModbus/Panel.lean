import SerialModbus.Addressing

/-! The address panel script (userPara.ctl): the reference string it builds from
the fields of the panel. CTRL concatenates an int as its decimal text. -/
namespace SerialModbus.Panel
open Text

def USER_TYPE_INDEX : Int := 1500
def SERIAL_MODBUS_SHIFT : Int := 200

/- What getMultiValue reads; flicker is declared int. -/
structure Fields where
  agent : QString
  reference : QString
  flicker : Int32
  subindex : Int
  mode : Int
  driver : Int
  datatype : Int
  active : Bool
  deriving DecidableEq, Repr

/- dpc[1], [2], [3], [7], [8], [9] and [12]. -/
structure Dpc where
  reference : QString
  subindex : Int
  mode : Int
  datatype : Int
  drv_ident : QString
  driver : Int
  active : Bool
  deriving DecidableEq, Repr

/- globalAddressOld is the driver type of the panel, drvIdent what the globals of
the para module give for dpc[8]. -/
def upReadPanelAllAddressAttributes (globalAddressOld drvIdent : QString) (p : Fields) : Dpc :=
  let datatype := p.datatype + USER_TYPE_INDEX
  let (reference, datatype) :=
    if globalAddressOld = "tcpComm".toList then (p.agent ++ '_' :: p.reference, datatype)
    else if globalAddressOld = "serialMod".toList then
      let datatype := datatype + SERIAL_MODBUS_SHIFT
      if p.flicker = 0 then (p.agent ++ '_' :: (number datatype ++ '_' :: p.reference), datatype)
      else (p.agent ++ '_' :: (number datatype ++ '_' ::
        (p.reference ++ '$' :: number p.flicker.toInt)), datatype)
    else ([], datatype)
  { reference := reference
    subindex := p.subindex
    mode := if p.mode = 0 then 1 else 4
    datatype := datatype
    drv_ident := drvIdent
    driver := p.driver
    active := p.active }

/- The panel with Agent = a, reference = 'b.r', the p-th data type and the count f. -/
def modbusFields (other : Fields) (a p b r : Int) (f : Int32) : Fields :=
  {other with agent := number a, reference := number b ++ '.' :: number r, flicker := f, datatype := p}

def modbusReference (drvIdent : QString) (other : Fields) (a p b r : Int) (f : Int32) : QString :=
  (upReadPanelAllAddressAttributes "serialMod".toList drvIdent (modbusFields other a p b r f)).reference

theorem referenceText (drvIdent : QString) (other : Fields) (a p b r : Int) (f : Int32) :
    modbusReference drvIdent other a p b r f =
      if f = 0 then sprintf HWService.DATA_FORMAT [a, 1700 + p, b, r]
      else sprintf HWService.DATA_FORMAT [a, 1700 + p, b, r] ++ '$' :: number f.toInt := by
  have type : p + USER_TYPE_INDEX + SERIAL_MODBUS_SHIFT = 1700 + p := by
    simp only [USER_TYPE_INDEX, SERIAL_MODBUS_SHIFT]
    omega
  have notTcp : "serialMod".toList ≠ "tcpComm".toList := by decide
  rw [Addressing.addressText]
  simp only [modbusReference, modbusFields, upReadPanelAllAddressAttributes, if_neg notTcp, if_true, type]
  split <;> simp

theorem referenceExtracts (drvIdent : QString) (other : Fields) (a p b r : Int) (f : Int32) :
    Driver.extractAddress (modbusReference drvIdent other a p b r f) =
        sprintf HWService.DATA_FORMAT [a, 1700 + p, b, r] ∧
      (Driver.hasParameter (modbusReference drvIdent other a p b r f) = true ↔ f ≠ 0) ∧
      (f ≠ 0 → Driver.extractTime (modbusReference drvIdent other a p b r f) = f.toInt) := by
  have free := Addressing.addressFree a (1700 + p) b r
  rw [referenceText, Driver.hasParameterIff]
  split
  · rename_i zero
    exact ⟨Driver.extractFree free, by simp [zero, free], fun nonzero => absurd zero nonzero⟩
  · rename_i nonzero
    refine ⟨Driver.extractMark free, by simp [nonzero], fun _ => ?_⟩
    have low := Int32.le_toInt f
    have high := Int32.toInt_lt f
    rw [Driver.timeMark free, toIntNumber (by omega) (by omega)]

/- The panel and the driver agree on the address, and once the driver has the
reference as the latest registration of its base address, the messages of that
coil or register are stored under it and smoothed with the count of the panel. -/
theorem panelAgrees (drvIdent : QString) (other : Fields) (a p b r : Int) (f : Int32) :
    let S := modbusReference drvIdent other a p b r f
    (∀ value invalid, Driver.extractAddress S =
      (HWService.message a b r (1700 + p) value invalid).address) ∧
    (Driver.hasParameter S = true ↔ f ≠ 0) ∧
    (f ≠ 0 → Driver.extractTime S = f.toInt) ∧
    ∀ (d : Driver) (later : List QString),
      (∀ name ∈ later, Driver.extractAddress name ≠ Driver.extractAddress S) →
      let e := Addressing.register (HWMapper.addParamAddress d S) later
      ∀ value invalid, let msg := HWService.message a b r (1700 + p) value invalid
        Addressing.lookedUp e msg = S ∧
        ∀ pvss objects, Registered objects S → ∃ addrObj ∈ objects, addrObj.address = S ∧
          HWService.storeToDB pvss e objects msg.address (cString value) invalid =
            if f = 0 then
              some (e, .toDp (HWService.objectFor S (cString value) invalid) addrObj)
            else (e.applyValueAgainstSmoothing S f.toInt (deref (cString value))).map
              (fun (g, pass) => (g,
                if pass then .toDp (HWService.objectFor S (cString value) invalid) addrObj
                else .smoothed (HWService.objectFor S (cString value) invalid) addrObj f.toInt)) := by
  intro S
  obtain ⟨base, marked, time⟩ := referenceExtracts drvIdent other a p b r f
  refine ⟨fun _ _ => base, marked, time, ?_⟩
  intro d later others e value invalid msg
  have none : Addressing.latest later (Driver.extractAddress S) = none := by
    simp only [Addressing.latest, List.find?_eq_none, List.mem_reverse]
    intro name mem
    simpa using others name mem
  have mapped : e.getParamAddress msg.address = S := by
    have key : msg.address = Driver.extractAddress S := base.symm
    rw [key, Addressing.getRegistered, none, getAdded, if_pos rfl]
    rfl
  refine ⟨mapped, ?_⟩
  intro pvss objects present
  obtain ⟨addrObj, mem, same, shape⟩ := HWService.storeRegistered pvss (d := e) (cString value) invalid
    (mapped.symm ▸ present)
  rw [mapped] at same shape
  refine ⟨addrObj, mem, same, ?_⟩
  rw [shape]
  by_cases zero : f = 0
  · rw [if_pos zero, if_neg (fun has => marked.mp has zero)]
  · rw [if_neg zero, if_pos (marked.mpr zero), time zero]

def blank : Fields := ⟨[], [], 0, 0, 0, 1, 1, true⟩

/- Agent 1, reference 2.3, the first data type and four cycles: '1_1701_2.3$4'. -/
theorem panelAgreesFour : Driver.extractTime (modbusReference [] blank 1 1 2 3 4) = 4 ∧
    ∃ g obj addrObj, HWService.storeToDB Pvss.front
      (Addressing.register (HWMapper.addParamAddress Driver.new (modbusReference [] blank 1 1 2 3 4))
        ["1_1701_2.4$3".toList])
      [{address := "1_1701_2.3$4".toList}] "1_1701_2.3".toList (cString "1".toList) false =
        some (g, .toDp obj addrObj) := by
  have agrees := panelAgrees [] blank 1 1 2 3 4
  obtain ⟨_, _, time, stored⟩ := agrees
  have text : modbusReference [] blank 1 1 2 3 4 = "1_1701_2.3$4".toList := rfl
  refine ⟨time (by decide), ?_⟩
  obtain ⟨_, target⟩ := stored Driver.new ["1_1701_2.4$3".toList] (by rw [text]; decide) "1".toList false
  obtain ⟨addrObj, _, _, shape⟩ := target Pvss.front [{address := "1_1701_2.3$4".toList}]
    (by rw [text]; decide)
  have address : (HWService.message 1 2 3 (1700 + 1) "1".toList false).address = "1_1701_2.3".toList := by
    decide
  rw [address, if_neg (by decide)] at shape
  have empty : Driver.queue (Addressing.register (HWMapper.addParamAddress Driver.new
      (modbusReference [] blank 1 1 2 3 4)) ["1_1701_2.4$3".toList])
      (modbusReference [] blank 1 1 2 3 4) = [] := by
    rw [text]
    decide
  have room : (Driver.queue (Addressing.register (HWMapper.addParamAddress Driver.new
      (modbusReference [] blank 1 1 2 3 4)) ["1_1701_2.4$3".toList])
      (modbusReference [] blank 1 1 2 3 4)).length ≤ 4 := by
    rw [empty]
    exact Nat.zero_le 4
  rw [show (4 : Int32).toInt = ((4 : Nat) : Int) by decide, Driver.smoothingSlides _ room, empty]
    at shape
  rw [shape]
  exact ⟨_, _, _, rfl⟩

end SerialModbus.Panel
