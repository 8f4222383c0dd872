import SerialModbus.Operations

/-! The object list and the parameter map under adds and clears of configs. One
operation does not keep them in step: clrDpPa never touches the parameter map, and
it removes an object by name also for a config that has none. -/
namespace SerialModbus.Registration
open Text Global Process

def start : Process := boot ⟨[], []⟩

/-! A data point configured for a base address is found by the mapped name. -/

def Mapped (st : Process) : Prop :=
  ∀ x ∈ addresses st.mapper, st.driver.getParamAddress (Driver.extractAddress x) ∈ addresses st.mapper

/- For every base address with a registered object the mapped name is registered,
so storeToDB never takes the branch of an unknown address for it. -/
def Served (pvss : Pvss) (st : Process) : Prop :=
  ∀ address, (∃ o ∈ st.mapper.objects, Driver.extractAddress o.address = address) →
    Registered st.mapper.objects (st.driver.getParamAddress address) ∧
    ∀ value invalid e outcome,
      HWService.storeToDB pvss st.driver st.mapper.objects address value invalid = some (e, outcome) →
      outcome.found = true

theorem servedIff {pvss : Pvss} {st : Process} : Served pvss st ↔ Mapped st := by
  constructor
  · intro served x mem
    obtain ⟨o, ho, rfl⟩ := List.mem_map.mp mem
    exact registeredIff.mp (served _ ⟨o, ho, rfl⟩).1
  · rintro mapped _ ⟨o, ho, rfl⟩
    have present := registeredIff.mpr (mapped o.address (List.mem_map.mpr ⟨o, ho, rfl⟩))
    refine ⟨present, ?_⟩
    intro value invalid e outcome stored
    exact (HWService.storeFrame stored).2.1.mpr present

/- The only object of this name goes, the name is what its base address is mapped
to, and an object of the same base address under another name stays. -/
def Orphans (st : Process) (name : QString) : Prop :=
  (addresses st.mapper).count name = 1 ∧
  st.driver.getParamAddress (Driver.extractAddress name) = name ∧
  ∃ x ∈ addresses st.mapper, x ≠ name ∧ Driver.extractAddress x = Driver.extractAddress name

def Cautious (st : Process) : ConfigOp → Prop
  | .addDpPa _ _ _ => True
  | .clrDpPa _ conf => ¬ Orphans st conf.name

theorem addMapped {d : Driver} {m : HWMapper} {name : QString} {o : HWObject} (named : o.address = name)
    (mapped : ∀ x ∈ addresses m, d.getParamAddress (Driver.extractAddress x) ∈ addresses m) :
    ∀ x ∈ addresses {m with objects := m.objects ++ [o]},
      (HWMapper.addParamAddress d name).getParamAddress (Driver.extractAddress x) ∈
        addresses {m with objects := m.objects ++ [o]} := by
  intro x mem
  have shape : addresses {m with objects := m.objects ++ [o]} = addresses m ++ [name] := by
    simp [addresses, named]
  rw [shape] at mem ⊢
  rw [getAdded]
  split
  · simp
  · rename_i differ
    rcases List.mem_append.mp mem with old | new
    · exact List.mem_append_left _ (mapped x old)
    · exact absurd (congrArg Driver.extractAddress (List.mem_singleton.mp new).symm) differ

theorem clrMapped {d : Driver} {names left : List QString} {name : QString} (routed : d.Routed)
    (mapped : ∀ x ∈ names, d.getParamAddress (Driver.extractAddress x) ∈ names)
    (cleared : left.Perm (names.erase name)) :
    (∀ x ∈ left, d.getParamAddress (Driver.extractAddress x) ∈ left) ↔
      ¬ (names.count name = 1 ∧ d.getParamAddress (Driver.extractAddress name) = name ∧
        ∃ x ∈ names, x ≠ name ∧ Driver.extractAddress x = Driver.extractAddress name) := by
  constructor
  · rintro kept ⟨once, current, x, mem, differ, base⟩
    have stays : x ∈ left := cleared.mem_iff.mpr ((List.mem_erase_of_ne differ).mpr mem)
    have found := cleared.mem_iff.mp (kept x stays)
    rw [base, current] at found
    have gone := List.count_pos_iff.mpr found
    rw [List.count_erase_self, once] at gone
    exact absurd gone (by decide)
  · intro safe x mem
    have inErase := cleared.mem_iff.mp mem
    have found := mapped x (List.mem_of_mem_erase inErase)
    apply cleared.mem_iff.mpr
    by_cases taken : d.getParamAddress (Driver.extractAddress x) = name
    · -- the map gives the cleared name: then x has its base, and another copy must be left
      have base : Driver.extractAddress name = Driver.extractAddress x := by
        rw [← taken]
        exact routed _ (Driver.extractOmits x)
      rw [taken]
      by_cases same : x = name
      · exact same ▸ inErase
      · have current : d.getParamAddress (Driver.extractAddress name) = name := by rw [base, taken]
        have notOnce : names.count name ≠ 1 := fun once =>
          safe ⟨once, current, x, List.mem_of_mem_erase inErase, same, base.symm⟩
        have some := List.count_pos_iff.mpr (taken ▸ found)
        apply List.count_pos_iff.mp
        rw [List.count_erase_self]
        omega
    · exact (List.mem_erase_of_ne taken).mpr found

theorem mappedExact {pvss : Pvss} {st t : Process} {op : ConfigOp} (routed : st.driver.Routed)
    (mapped : Mapped st) (ok : configure pvss st op = some t) : Mapped t ↔ Cautious st op := by
  cases op with
  | addDpPa dpId conf base =>
    rcases addCases st.driver st.mapper dpId conf base with ⟨_, shape⟩ | ⟨transform, _, _, shape⟩
    · simp only [configure, shape] at ok
      cases Option.some.inj ok
      have same : addresses (st.mapper.baseAddDpPa dpId conf base) = addresses st.mapper := by
        unfold HWMapper.baseAddDpPa
        split <;> rfl
      simpa only [Mapped, Cautious, same, iff_true] using mapped
    · simp only [configure, shape] at ok
      cases Option.some.inj ok
      simp only [Cautious, iff_true]
      exact addMapped (m := ⟨st.mapper.configs ++ [(dpId, conf)], st.mapper.objects⟩) rfl mapped
  | clrDpPa dpId conf =>
    simp only [configure] at ok
    split at ok <;> try contradiction
    cases Option.some.inj ok
    exact clrMapped routed mapped (clrAddresses pvss st.mapper dpId conf).1

/- Over any adds and clears: the mapped name stays registered throughout exactly
when no clear orphans its base address. -/
theorem servedThroughout (pvss : Pvss) (ops : List ConfigOp) :
    Runs.Throughout (configure pvss) (Served pvss) start ops ↔
      Runs.EachStep (configure pvss) Cautious start ops := by
  have same : Served pvss = Mapped := funext fun st => propext servedIff
  rw [same]
  apply Runs.throughoutExact (I := fun st => st.driver.Routed)
  · exact fun _ _ _ routed moved => configureRouted routed moved
  · exact fun _ _ _ routed mapped moved => mappedExact routed mapped moved
  · exact Driver.routedNew
  · intro x mem
    simp [start, boot, addresses] at mem

def plainConf : PeriphAddr := ⟨"1_1701_1.1".toList, 1701⟩
def cycleConf : PeriphAddr := ⟨"1_1701_1.1$3".toList, 1701⟩

/- The callers of the property: legal types, and a base class that succeeds. -/
def Regular : ConfigOp → Prop
  | .addDpPa _ conf base => (transformOf conf.transformationType).isSome = true ∧ base = true
  | .clrDpPa _ _ => True

/- The same coil with a cycle count and then without, and the latter cleared: the
map still names the cleared object, and the other one is no longer served. -/
theorem notAlwaysServed : ¬ ∀ (pvss : Pvss) (ops : List ConfigOp), (∀ op ∈ ops, Regular op) →
    Runs.Throughout (configure pvss) (Served pvss) start ops := by
  intro all
  let ops : List ConfigOp :=
    [.addDpPa none cycleConf true, .addDpPa none plainConf true, .clrDpPa none plainConf]
  have regular : ∀ op ∈ ops, Regular op := by
    intro op mem
    simp only [ops, List.mem_cons, List.not_mem_nil, or_false] at mem
    rcases mem with rfl | rfl | rfl
    · exact ⟨rfl, rfl⟩
    · exact ⟨rfl, rfl⟩
    · trivial
  have facts : (Runs.run (configure Pvss.front) start ops).map
      (fun st => (addresses st.mapper, st.driver.getParamAddress plainConf.name)) =
        some ([cycleConf.name], plainConf.name) := rfl
  obtain ⟨st, reached, facts⟩ := Option.map_eq_some_iff.mp facts
  obtain ⟨left, mapped⟩ := Prod.mk.inj facts
  have served := all Pvss.front ops regular ops st (List.prefix_refl _) reached
  have stays : cycleConf.name ∈ addresses st.mapper := by simp [left]
  have found := servedIff.mp served cycleConf.name stays
  have base : Driver.extractAddress cycleConf.name = plainConf.name := rfl
  rw [base, mapped, left] at found
  exact absurd found (by decide)

/-! The objects and the registered configs of a legal type carry the same names. -/

def legal (conf : PeriphAddr) : Bool := (transformOf conf.transformationType).isSome

def legalNames (configs : List (DpIdentifier × PeriphAddr)) : List QString :=
  (configs.filter (fun c => legal c.2)).map (fun c => c.2.name)

def Agree (st : Process) : Prop := (addresses st.mapper).Perm (legalNames st.mapper.configs)

/- A config without a transformation is cleared only while no config that has an
object carries its name. -/
def Spares (st : Process) : ConfigOp → Prop
  | .addDpPa _ _ _ => True
  | .clrDpPa _ conf => legal conf = false → conf.name ∉ legalNames st.mapper.configs

theorem legalNamesAdd (configs : List (DpIdentifier × PeriphAddr)) (dpId : DpIdentifier)
    (conf : PeriphAddr) : legalNames (configs ++ [(dpId, conf)]) =
      if legal conf then legalNames configs ++ [conf.name] else legalNames configs := by
  cases h : legal conf <;> simp [legalNames, h]

theorem legalNamesErase {configs : List (DpIdentifier × PeriphAddr)} {dpId : DpIdentifier}
    {conf : PeriphAddr} (mem : (dpId, conf) ∈ configs) :
    (legalNames configs).Perm (if legal conf then
      conf.name :: legalNames (configs.erase (dpId, conf)) else legalNames (configs.erase (dpId, conf))) := by
  have parts := ((List.perm_cons_erase mem).filter (fun c => legal c.2)).map (fun c => c.2.name)
  cases h : legal conf <;> simpa [legalNames, h] using parts

/- Removing one copy of a name keeps the list as it is only when there is none. -/
theorem erasePerm {names : List QString} {name : QString} :
    (names.erase name).Perm names ↔ name ∉ names := by
  constructor
  · intro same mem
    have shorter := List.length_erase_of_mem mem
    have positive := List.length_pos_of_mem mem
    have equal := same.length_eq
    omega
  · intro absent
    rw [List.erase_of_not_mem absent]

theorem agreeExact {pvss : Pvss} {st t : Process} {op : ConfigOp} (agree : Agree st)
    (ok : configure pvss st op = some t) : Agree t ↔ Spares st op := by
  cases op with
  | addDpPa dpId conf base =>
    simp only [Spares, iff_true]
    rcases addCases st.driver st.mapper dpId conf base with ⟨idle, shape⟩ | ⟨transform, kind, _, shape⟩
    · simp only [configure, shape] at ok
      cases Option.some.inj ok
      cases base with
      | false => exact agree
      | true =>
        have illegal : legal conf = false := by simpa [legal] using idle
        have names := legalNamesAdd st.mapper.configs dpId conf
        rw [illegal, if_neg (by decide)] at names
        have same : (addresses st.mapper).Perm (legalNames (st.mapper.configs ++ [(dpId, conf)])) := by
          rw [names]
          exact agree
        exact same
    · simp only [configure, shape] at ok
      cases Option.some.inj ok
      have names := legalNamesAdd st.mapper.configs dpId conf
      rw [if_pos (by simp [legal, kind])] at names
      simp only [Agree, names, addresses, List.map_append]
      exact agree.append_right [conf.name]
  | clrDpPa dpId conf =>
    simp only [configure] at ok
    split at ok <;> try contradiction
    rename_i registered
    cases Option.some.inj ok
    obtain ⟨objects, configs⟩ := clrAddresses pvss st.mapper dpId conf
    have names := legalNamesErase registered
    simp only [Agree, Spares, configs]
    cases h : legal conf with
    | true =>
      -- the object of the config goes with it
      rw [h, if_pos rfl] at names
      have less := (agree.trans names).erase conf.name
      rw [List.erase_cons_head] at less
      simpa using objects.trans less
    | false =>
      -- the config had no object: any object that goes belongs to another one
      rw [h, if_neg (by decide)] at names
      have stay := agree.trans names
      have members : conf.name ∉ legalNames st.mapper.configs ↔ conf.name ∉ addresses st.mapper :=
        not_congr agree.mem_iff.symm
      simp only [forall_const, members]
      rw [← erasePerm]
      constructor
      · intro same
        exact (objects.symm.trans same).trans stay.symm
      · intro same
        exact (objects.trans same).trans stay

/- Over any adds and clears, with any types and any answers of the base class. -/
theorem agreeThroughout (pvss : Pvss) (ops : List ConfigOp) :
    Runs.Throughout (configure pvss) Agree start ops ↔
      Runs.EachStep (configure pvss) Spares start ops := by
  apply Runs.throughoutExact (I := fun _ => True)
  · exact fun _ _ _ _ _ => trivial
  · exact fun _ _ _ _ agree moved => agreeExact agree moved
  · trivial
  · exact List.Perm.refl _

def strayConf : PeriphAddr := ⟨"1_1701_1.1".toList, 9⟩

/- A config of an unknown type shares its name with a coil: clearing it removes the
object of the coil, which stays configured. -/
theorem notAlwaysAgree : ¬ ∀ (pvss : Pvss) (ops : List ConfigOp),
    Runs.Throughout (configure pvss) Agree start ops := by
  intro all
  let ops : List ConfigOp :=
    [.addDpPa none plainConf true, .addDpPa none strayConf true, .clrDpPa none strayConf]
  have sizes : (Runs.run (configure Pvss.front) start ops).map
      (fun st => ((addresses st.mapper).length, (legalNames st.mapper.configs).length)) = some (0, 1) := rfl
  obtain ⟨st, reached, sizes⟩ := Option.map_eq_some_iff.mp sizes
  have agree := (all Pvss.front ops ops st (List.prefix_refl _) reached).length_eq
  have pair := Prod.mk.inj sizes
  omega

end SerialModbus.Registration
