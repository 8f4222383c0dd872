import SerialModbus.HWService

/-! What happens to a driver process from its start on: configs come and go, names
are registered, messages are drained. A config is cleared only when it is
registered, so such a step has no result otherwise. -/
namespace SerialModbus
open Text Global

inductive ConfigOp where
  | addDpPa (dpId : DpIdentifier) (conf : PeriphAddr) (base : Bool)
  | clrDpPa (dpId : DpIdentifier) (conf : PeriphAddr)
  deriving DecidableEq, Repr

inductive Op where
  | config (op : ConfigOp)
  | addParamAddress (name : QString)
  | drain (msg : Message)
  deriving DecidableEq, Repr

namespace Process

def boot (mapper : HWMapper) : Process := ⟨Driver.new, mapper, [], [], []⟩

def configure (pvss : Pvss) (st : Process) : ConfigOp → Option Process
  | .addDpPa dpId conf base =>
      let (driver, mapper, _) := HWMapper.addDpPa st.driver st.mapper dpId conf base
      some {st with driver := driver, mapper := mapper}
  | .clrDpPa dpId conf =>
      if (dpId, conf) ∈ st.mapper.configs then
        some {st with mapper := st.mapper.clrDpPa pvss dpId conf}
      else none

def step (pvss : Pvss) (st : Process) : Op → Option Process
  | .config op => configure pvss st op
  | .addParamAddress name => some {st with driver := HWMapper.addParamAddress st.driver name}
  | .drain msg => HWService.handle pvss st msg

/- Adding a config touches the driver at most by registering the name, clearing
one not at all. -/
theorem configureDriver {pvss : Pvss} {st t : Process} {op : ConfigOp}
    (ok : configure pvss st op = some t) :
    (t.driver = st.driver ∨ ∃ name, t.driver = HWMapper.addParamAddress st.driver name) ∧
      t.calls = st.calls := by
  cases op with
  | addDpPa dpId conf base =>
    rcases addCases st.driver st.mapper dpId conf base with ⟨_, shape⟩ | ⟨transform, _, _, shape⟩
    · simp only [configure, shape] at ok
      cases Option.some.inj ok
      exact ⟨Or.inl rfl, rfl⟩
    · simp only [configure, shape] at ok
      cases Option.some.inj ok
      exact ⟨Or.inr ⟨_, rfl⟩, rfl⟩
  | clrDpPa dpId conf =>
    simp only [configure] at ok
    split at ok <;> try contradiction
    cases Option.some.inj ok
    exact ⟨Or.inl rfl, rfl⟩

theorem configureRouted {pvss : Pvss} {st t : Process} {op : ConfigOp}
    (routed : st.driver.Routed) (ok : configure pvss st op = some t) : t.driver.Routed := by
  rcases (configureDriver ok).1 with same | ⟨name, added⟩
  · rw [same]
    exact routed
  · rw [added]
    exact Driver.routedManaged routed name

theorem stepRouted {pvss : Pvss} {st t : Process} {op : Op}
    (routed : st.driver.Routed) (ok : step pvss st op = some t) : t.driver.Routed := by
  cases op with
  | config op => exact configureRouted routed ok
  | addParamAddress name =>
    cases Option.some.inj ok
    exact Driver.routedManaged routed name
  | drain msg =>
    obtain ⟨driver, outcome, stored, rfl⟩ := HWService.handleCases ok
    have frame := (HWService.storeFrame stored).2.2.2.2.1
    intro key free
    have same : driver.getParamAddress key = st.driver.getParamAddress key := by
      simp only [Driver.getParamAddress, frame]
    rw [same]
    exact routed key free

theorem runRouted {pvss : Pvss} {mapper : HWMapper} {st : Process} {ops : List Op}
    (ok : Runs.run (step pvss) (boot mapper) ops = some st) : st.driver.Routed :=
  Runs.invariant (fun _ _ _ routed moved => stepRouted routed moved) Driver.routedNew ok

end Process
end SerialModbus
