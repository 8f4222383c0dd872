import SerialModbus.Driver

/-! Configs and hardware objects. The base class HWMapper and its lookups belong
to PVSS: a lookup may return any registered object with the address asked for. -/
namespace SerialModbus
open Text Global

/- invalid is the bit DriverBits::DRV_INVALID; data is what the pointer shows. -/
structure HWObject where
  address : QString
  type : Int := 0
  dlen : Nat := 0
  data : List PVSSchar := []
  invalid : Bool := false
  userByte0 : Nat := 0
  deriving DecidableEq, Repr

structure PeriphAddr where
  name : QString
  transformationType : Int
  deriving DecidableEq, Repr

structure HWMapper where
  configs : List (DpIdentifier × PeriphAddr)
  objects : List HWObject
  deriving DecidableEq, Repr

structure Pvss where
  findHWObject : List HWObject → HWObject → Option HWObject
  findHWAddr : List HWObject → HWObject → Option HWObject
  objectFound : ∀ {objects t o}, findHWObject objects t = some o → o ∈ objects ∧ o.address = t.address
  objectMissing : ∀ {objects t}, findHWObject objects t = none → ∀ o ∈ objects, o.address ≠ t.address
  addrFound : ∀ {objects t o}, findHWAddr objects t = some o → o ∈ objects ∧ o.address = t.address
  addrMissing : ∀ {objects t}, findHWAddr objects t = none → ∀ o ∈ objects, o.address ≠ t.address

def firstByAddress (objects : List HWObject) (t : HWObject) : Option HWObject :=
  objects.find? (fun o => o.address == t.address)

theorem firstFound {objects t o} (found : firstByAddress objects t = some o) :
    o ∈ objects ∧ o.address = t.address :=
  ⟨List.mem_of_find?_eq_some found, by simpa using List.find?_some found⟩

theorem firstMissing {objects t} (missing : firstByAddress objects t = none) :
    ∀ o ∈ objects, o.address ≠ t.address := by
  simpa [firstByAddress] using missing

/- The lookups of a mapper that searches its objects from the front. -/
def Pvss.front : Pvss where
  findHWObject := firstByAddress
  findHWAddr := firstByAddress
  objectFound := firstFound
  objectMissing := firstMissing
  addrFound := firstFound
  addrMissing := firstMissing

/- The switch of addDpPa: TransformCoil and TransformRegister, or no transformation. -/
def transformOf (transformationType : Int) : Option DriverTypes :=
  if transformationType = DriverTypes.COILS.code then some .COILS
  else if transformationType = DriverTypes.REGISTERS.code then some .REGISTERS
  else none

/- Bytes of one item: a char, and a PVSSlong on the Win32 target. -/
def itemSize : DriverTypes → Nat
  | .COILS => 1
  | .REGISTERS => 4

namespace HWMapper

def addParamAddress (d : Driver) (cs : QString) : Driver :=
  d.manageParamAddress (Driver.extractAddress cs) cs

def baseAddDpPa (m : HWMapper) (dpId : DpIdentifier) (conf : PeriphAddr) (base : Bool) : HWMapper :=
  if base then {m with configs := m.configs ++ [(dpId, conf)]} else m

/- base is what HWMapper::addDpPa answers. -/
def addDpPa (d : Driver) (m : HWMapper) (dpId : DpIdentifier) (conf : PeriphAddr) (base : Bool) :
    Driver × HWMapper × Bool :=
  match transformOf conf.transformationType with
  | none => (d, m.baseAddDpPa dpId conf base, base)
  | some transform =>
      if base then
        let hwObj : HWObject :=
          {address := conf.name, type := transform.code, dlen := itemSize transform}
        let added := m.baseAddDpPa dpId conf base
        (addParamAddress d conf.name, {added with objects := added.objects ++ [hwObj]}, true)
      else (d, m.baseAddDpPa dpId conf base, false)

def clrHWObject (m : HWMapper) (hwObj : HWObject) : HWMapper := {m with objects := m.objects.erase hwObj}

def clrDpPa (pvss : Pvss) (m : HWMapper) (dpId : DpIdentifier) (conf : PeriphAddr) : HWMapper :=
  let cleared := match pvss.findHWAddr m.objects {address := conf.name} with
    | some hwObj => m.clrHWObject hwObj
    | none => m
  {cleared with configs := cleared.configs.erase (dpId, conf)}

end HWMapper

def addresses (m : HWMapper) : List QString := m.objects.map HWObject.address

theorem getAdded (d : Driver) (name key : QString) :
    (HWMapper.addParamAddress d name).getParamAddress key =
      if Driver.extractAddress name = key then name else d.getParamAddress key :=
  Driver.getManaged d name key

/- addDpPa in three cases: nothing for the objects, or one object of the name. -/
theorem addCases (d : Driver) (m : HWMapper) (dpId : DpIdentifier) (conf : PeriphAddr) (base : Bool) :
    (((transformOf conf.transformationType).isSome = false ∨ base = false) ∧
      HWMapper.addDpPa d m dpId conf base = (d, m.baseAddDpPa dpId conf base, base)) ∨
    (∃ transform, transformOf conf.transformationType = some transform ∧ base = true ∧
      HWMapper.addDpPa d m dpId conf base = (HWMapper.addParamAddress d conf.name,
        ⟨m.configs ++ [(dpId, conf)], m.objects ++
          [{address := conf.name, type := transform.code, dlen := itemSize transform}]⟩, true)) := by
  unfold HWMapper.addDpPa
  cases h : transformOf conf.transformationType with
  | none => exact Or.inl ⟨Or.inl rfl, rfl⟩
  | some transform =>
    cases base with
    | false => exact Or.inl ⟨Or.inr rfl, rfl⟩
    | true => exact Or.inr ⟨transform, rfl, rfl, rfl⟩

/- clrDpPa takes one object of the name, whichever the lookup finds, or none. -/
theorem clrAddresses (pvss : Pvss) (m : HWMapper) (dpId : DpIdentifier) (conf : PeriphAddr) :
    (addresses (m.clrDpPa pvss dpId conf)).Perm ((addresses m).erase conf.name) ∧
      (m.clrDpPa pvss dpId conf).configs = m.configs.erase (dpId, conf) := by
  unfold HWMapper.clrDpPa
  cases h : pvss.findHWAddr m.objects {address := conf.name} with
  | none =>
    refine ⟨?_, rfl⟩
    have absent : conf.name ∉ addresses m := by
      intro mem
      obtain ⟨o, ho, same⟩ := List.mem_map.mp mem
      exact pvss.addrMissing h o ho same
    rw [List.erase_of_not_mem absent]
    exact List.Perm.refl _
  | some hwObj =>
    refine ⟨?_, rfl⟩
    obtain ⟨mem, same⟩ := pvss.addrFound h
    have whole : (addresses m).Perm (conf.name :: (m.objects.erase hwObj).map HWObject.address) := by
      have parts := (List.perm_cons_erase mem).map HWObject.address
      rw [List.map_cons, same] at parts
      exact parts
    have less := whole.erase conf.name
    rw [List.erase_cons_head] at less
    exact less.symm

end SerialModbus
