import SerialModbus.Panel

/-! Opening the address panel of a data point: its fields are filled from the
stored reference, and confirming the panel stores the fields again. -/
namespace SerialModbus.Reopening
open Text Panel

/- The cast of a CTRL string to int, which reads back the text of any int. -/
structure Ctrl where
  cast : QString → Int32
  castNumber : ∀ n : Int32, cast (number n.toInt) = n

/- An empty string has no pieces. -/
def strsplit (s : QString) (c : Char) : List QString := if s = [] then [] else s.splitOn c

/- What setMultiValue writes. Reading a piece that is not there is an error: none. -/
def upWritePanelAllAddressAttributes (ctrl : Ctrl) (globalAddressOld : QString) (dpc : Dpc) :
    Option Fields := do
  let addr := strsplit dpc.reference '_'
  let addr := if addr.length < 1 then ["1".toList] else addr
  let datatype := dpc.datatype - USER_TYPE_INDEX
  let agent ← addr.head?
  let (addr_point, flicker, datatype) ←
    if globalAddressOld = "tcpComm".toList then
      some (dpc.reference.drop (agent.length + 1), 0, datatype)
    else if globalAddressOld = "serialMod".toList then do
      let datatype := datatype - SERIAL_MODBUS_SHIFT
      let rawAddress := strsplit (← addr.getLast?) '$'
      let addr_point ← rawAddress.head?
      let flicker ← if rawAddress.length > 1 then rawAddress.getLast?.map ctrl.cast else some 0
      some (addr_point, flicker, datatype)
    else some ([], 0, datatype)
  some
    { agent := agent
      reference := addr_point
      flicker := flicker
      subindex := dpc.subindex
      mode := if dpc.mode ≤ 1 then 0 else 1
      driver := dpc.driver
      datatype := datatype
      active := dpc.active }

/- The panel is read, its fields are shown from what was read, and it is read again. -/
def confirm (ctrl : Ctrl) (globalAddressOld drvIdent : QString) (p : Fields) : Option Dpc :=
  (upWritePanelAllAddressAttributes ctrl globalAddressOld
    (upReadPanelAllAddressAttributes globalAddressOld drvIdent p)).map
      (upReadPanelAllAddressAttributes globalAddressOld drvIdent)

def Unchanged (ctrl : Ctrl) (drvIdent : QString) (p : Fields) : Prop :=
  ∃ again, confirm ctrl "serialMod".toList drvIdent p = some again ∧
    again.reference = (upReadPanelAllAddressAttributes "serialMod".toList drvIdent p).reference ∧
    again.datatype = (upReadPanelAllAddressAttributes "serialMod".toList drvIdent p).datatype ∧
    again.mode = (upReadPanelAllAddressAttributes "serialMod".toList drvIdent p).mode

/-! Splitting. -/

theorem pieceFree {c : Char} {s piece : QString} (mem : piece ∈ s.splitOn c) : c ∉ piece := by
  induction s generalizing piece with
  | nil =>
    cases List.mem_singleton.mp mem
    exact List.not_mem_nil
  | cons d rest ih =>
    rw [List.splitOn_cons_eq_if_modifyHead] at mem
    split at mem
    · rcases List.mem_cons.mp mem with rfl | later
      · exact List.not_mem_nil
      · exact ih later
    · -- d joins the first piece of the rest
      rename_i other
      obtain ⟨first, pieces, shape⟩ := List.exists_cons_of_ne_nil (List.splitOn_ne_nil c rest)
      rw [shape, List.modifyHead_cons] at mem
      rcases List.mem_cons.mp mem with rfl | later
      · have free := ih (shape ▸ List.mem_cons_self)
        intro here
        rcases List.mem_cons.mp here with same | inside
        · exact other (by simp [same])
        · exact free inside
      · exact ih (shape ▸ List.mem_cons_of_mem _ later)

/- The first piece is what stands in front of the first separator. -/
theorem headPrefix {c : Char} {s piece : QString} (head : (s.splitOn c).head? = some piece) :
    piece <+: s := by
  by_cases mem : c ∈ s
  · obtain ⟨front, back, shape, free⟩ := List.eq_append_cons_of_mem mem
    rw [shape, List.splitOn_append_cons_self_of_not_mem free] at head
    cases Option.some.inj head
    exact ⟨_, shape.symm⟩
  · rw [List.splitOn_eq_singleton mem] at head
    cases Option.some.inj head
    exact List.prefix_refl _

/-! The reference text and the count, as one text behind the data type. -/

def encode (point : QString) (flicker : Int32) : QString :=
  if flicker = 0 then point else point ++ '$' :: number flicker.toInt

def decode (ctrl : Ctrl) (text : QString) : Option (QString × Int32) := do
  let rawAddress := strsplit text '$'
  let addr_point ← rawAddress.head?
  let flicker ← if rawAddress.length > 1 then rawAddress.getLast?.map ctrl.cast else some 0
  some (addr_point, flicker)

theorem notTcp : "serialMod".toList ≠ "tcpComm".toList := by decide

theorem readReference (drvIdent : QString) (p : Fields) :
    upReadPanelAllAddressAttributes "serialMod".toList drvIdent p =
      { reference := p.agent ++ '_' :: (number (p.datatype + USER_TYPE_INDEX + SERIAL_MODBUS_SHIFT) ++
          '_' :: encode p.reference p.flicker)
        subindex := p.subindex
        mode := if p.mode = 0 then 1 else 4
        datatype := p.datatype + USER_TYPE_INDEX + SERIAL_MODBUS_SHIFT
        drv_ident := drvIdent
        driver := p.driver
        active := p.active } := by
  simp only [upReadPanelAllAddressAttributes, if_neg notTcp, if_true, encode]
  split <;> rfl

theorem writeReference (ctrl : Ctrl) {agent type text : QString} (dpc : Dpc) (agentFree : '_' ∉ agent)
    (typeFree : '_' ∉ type) (reference : dpc.reference = agent ++ '_' :: (type ++ '_' :: text)) :
    upWritePanelAllAddressAttributes ctrl "serialMod".toList dpc =
      ((text.splitOn '_').getLast?.bind (decode ctrl)).map (fun (point, flicker) =>
        { agent := agent
          reference := point
          flicker := flicker
          subindex := dpc.subindex
          mode := if dpc.mode ≤ 1 then 0 else 1
          driver := dpc.driver
          datatype := dpc.datatype - USER_TYPE_INDEX - SERIAL_MODBUS_SHIFT
          active := dpc.active }) := by
  have pieces : strsplit dpc.reference '_' = agent :: type :: text.splitOn '_' := by
    rw [reference, strsplit, if_neg (by simp), List.splitOn_append_cons_self_of_not_mem agentFree,
      List.splitOn_append_cons_self_of_not_mem typeFree]
  have last : (agent :: type :: text.splitOn '_').getLast? = (text.splitOn '_').getLast? := by
    obtain ⟨first, rest, shape⟩ := List.exists_cons_of_ne_nil (List.splitOn_ne_nil '_' text)
    rw [shape, List.getLast?_cons_cons, List.getLast?_cons_cons]
  have many : ¬ (agent :: type :: text.splitOn '_').length < 1 := by simp
  simp only [upWritePanelAllAddressAttributes, pieces, if_neg many, if_neg notTcp, if_true, last,
    List.head?_cons, bind, Option.bind_some]
  cases (text.splitOn '_').getLast? with
  | none => rfl
  | some piece =>
    simp only [Option.bind_some, decode, bind]
    cases (strsplit piece '$').head? with
    | none => rfl
    | some point =>
      simp only [Option.bind_some]
      split
      · cases (strsplit piece '$').getLast? <;> rfl
      · rfl

/- What is stored again is as it was exactly when the text behind the data type is. -/
theorem unchangedText (ctrl : Ctrl) (drvIdent : QString) (p : Fields) (agentFree : '_' ∉ p.agent) :
    Unchanged ctrl drvIdent p ↔ ∃ last point flicker,
      ((encode p.reference p.flicker).splitOn '_').getLast? = some last ∧
      decode ctrl last = some (point, flicker) ∧
      encode point flicker = encode p.reference p.flicker := by
  have typeFree : '_' ∉ number (p.datatype + USER_TYPE_INDEX + SERIAL_MODBUS_SHIFT) :=
    numberOmits rfl (by decide) _
  have type : p.datatype + USER_TYPE_INDEX + SERIAL_MODBUS_SHIFT - USER_TYPE_INDEX - SERIAL_MODBUS_SHIFT =
      p.datatype := by omega
  have mode : (if (if (if p.mode = 0 then (1 : Int) else 4) ≤ 1 then (0 : Int) else 1) = 0 then (1 : Int)
      else 4) = if p.mode = 0 then 1 else 4 := by
    by_cases output : p.mode = 0 <;> simp [output]
  simp only [Unchanged, confirm, readReference]
  rw [writeReference ctrl _ agentFree typeFree rfl]
  simp only [Option.map_map, Option.map_eq_some_iff, Option.bind_eq_some_iff]
  constructor
  · rintro ⟨again, ⟨⟨point, flicker⟩, ⟨last, split, read⟩, rfl⟩, reference, _, _⟩
    refine ⟨last, point, flicker, split, read, ?_⟩
    simp only [Function.comp_apply, readReference, type] at reference
    exact (List.cons.inj (List.append_cancel_left (List.cons.inj (List.append_cancel_left reference)).2)).2
  · rintro ⟨last, point, flicker, split, read, same⟩
    refine ⟨_, ⟨(point, flicker), ⟨last, split, read⟩, rfl⟩, ?_, ?_, ?_⟩
    · simp only [Function.comp_apply, readReference, type, same]
    · simp only [Function.comp_apply, readReference, type]
    · simp only [Function.comp_apply, readReference, mode]

/-! Which texts survive. -/

/- No '_' in the reference text, and no '$' either, unless the one '$' has a count
behind it and the panel has none itself. -/
def Plain (reference : QString) (flicker : Int32) : Prop :=
  '_' ∉ reference ∧ ('$' ∉ reference ∨
    (flicker = 0 ∧ ∃ (point : QString) (count : Int32), count ≠ 0 ∧ '$' ∉ point ∧
      reference = point ++ '$' :: number count.toInt))

theorem decodeHead {ctrl : Ctrl} {text point : QString} {flicker : Int32}
    (read : decode ctrl text = some (point, flicker)) : '$' ∉ point ∧ point <+: text := by
  obtain ⟨first, head, read⟩ := Option.bind_eq_some_iff.mp read
  have same : first = point := by
    split at read
    · obtain ⟨_, _, read⟩ := Option.bind_eq_some_iff.mp read
      exact (Prod.mk.inj (Option.some.inj read)).1
    · exact (Prod.mk.inj (Option.some.inj read)).1
  subst same
  unfold strsplit at head
  split at head
  · contradiction
  · exact ⟨pieceFree (List.mem_of_mem_head? head), headPrefix head⟩

theorem decodeEncode (ctrl : Ctrl) {point : QString} (free : '$' ∉ point) (flicker : Int32)
    (nonempty : encode point flicker ≠ []) :
    decode ctrl (encode point flicker) = some (point, flicker) := by
  unfold encode at nonempty ⊢
  split at nonempty
  · rename_i zero
    rw [if_pos zero, decode, strsplit, if_neg nonempty, List.splitOn_eq_singleton free, zero]
    rfl
  · rename_i counts
    have digits : '$' ∉ number flicker.toInt := numberOmits rfl (by decide) _
    rw [if_neg counts, decode, strsplit, if_neg nonempty, List.splitOn_append_cons_self_of_not_mem free,
      List.splitOn_eq_singleton digits]
    simp only [bind, Option.bind, List.head?_cons, List.getLast?_cons_cons, List.getLast?_singleton,
      Option.map_some, ctrl.castNumber]
    rfl

theorem encodeFree {c : Char} (digit : c.isDigit = false) (sign : c ≠ '-') (mark : c ≠ '$')
    {point : QString} {flicker : Int32} : c ∈ encode point flicker ↔ c ∈ point := by
  have digits : c ∉ number flicker.toInt := numberOmits digit sign _
  unfold encode
  split
  · exact Iff.rfl
  · simp [mark, digits]

/- A text with one '$' and a count behind it in one way only. -/
theorem encodeMarked {point reference : QString} {flicker count : Int32} (free : '$' ∉ point)
    (marked : '$' ∈ reference) (same : encode point count = encode reference flicker) :
    flicker = 0 ∧ count ≠ 0 := by
  have digits : ∀ n : Int32, '$' ∉ number n.toInt := fun n => numberOmits rfl (by decide) _
  have counts : count ≠ 0 := by
    intro zero
    rw [encode, if_pos zero] at same
    have there : '$' ∈ encode reference flicker := by
      unfold encode
      split
      · exact marked
      · exact List.mem_append_left _ marked
    exact free (same ▸ there)
  refine ⟨?_, counts⟩
  by_contra more
  obtain ⟨front, back, shape, frontFree⟩ := List.eq_append_cons_of_mem marked
  rw [encode, encode, if_neg counts, if_neg more, shape, List.append_assoc, List.cons_append] at same
  obtain ⟨_, tail⟩ := Decimal.splitUnique free frontFree same
  exact digits count (tail ▸ List.mem_append_right _ List.mem_cons_self)

theorem survives (ctrl : Ctrl) {reference : QString} (flicker : Int32) (nonempty : reference ≠ []) :
    (∃ last point count, ((encode reference flicker).splitOn '_').getLast? = some last ∧
      decode ctrl last = some (point, count) ∧ encode point count = encode reference flicker) ↔
    Plain reference flicker := by
  have marks : ∀ text count, '_' ∈ encode text count ↔ '_' ∈ text :=
    fun text count => encodeFree rfl (by decide) (by decide)
  constructor
  · rintro ⟨last, point, count, split, read, same⟩
    obtain ⟨free, front⟩ := decodeHead read
    have lastFree : '_' ∉ last := pieceFree (List.mem_of_mem_getLast? split)
    have plain : '_' ∉ reference := by
      rw [← marks reference flicker, ← same, marks]
      exact fun mem => lastFree (front.subset mem)
    refine ⟨plain, ?_⟩
    by_cases marked : '$' ∈ reference
    · obtain ⟨zero, counts⟩ := encodeMarked free marked same
      subst zero
      rw [encode, if_neg counts] at same
      exact Or.inr ⟨rfl, point, count, counts, free, same.symm⟩
    · exact Or.inl marked
  · rintro ⟨plain, marks'⟩
    have whole : (encode reference flicker).splitOn '_' = [encode reference flicker] :=
      List.splitOn_eq_singleton (mt (marks reference flicker).mp plain)
    have nonempty' : encode reference flicker ≠ [] := by
      unfold encode
      split
      · exact nonempty
      · simp
    rw [whole]
    rcases marks' with free | ⟨zero, point, count, counts, free, shape⟩
    · exact ⟨_, reference, flicker, rfl, decodeEncode ctrl free flicker nonempty', rfl⟩
    · subst zero
      have same : encode reference 0 = encode point count := by
        rw [encode, if_pos rfl, shape, encode, if_neg counts]
      rw [same] at nonempty' ⊢
      exact ⟨_, point, count, rfl, decodeEncode ctrl free count nonempty', rfl⟩

theorem agentPlain {p : Fields} {a : Int} (agent : p.agent = number a) : '_' ∉ p.agent := by
  rw [agent]
  exact numberOmits rfl (by decide) a

/- For any agent number, data type, mode and count: confirming the panel of a data
point unchanged stores the same address exactly for these reference texts. -/
theorem reopenedExact (ctrl : Ctrl) (drvIdent : QString) (p : Fields) (a : Int)
    (agent : p.agent = number a) (nonempty : p.reference ≠ []) :
    Unchanged ctrl drvIdent p ↔ Plain p.reference p.flicker := by
  rw [unchangedText ctrl drvIdent p (agentPlain agent)]
  exact survives ctrl p.flicker nonempty

/- A cast that knows decimal texts. -/
def Ctrl.decimal : Ctrl where
  cast s := Int32.ofInt (toInt s)
  castNumber := by
    intro n
    have low := Int32.le_toInt n
    have high := Int32.toInt_lt n
    rw [toIntNumber (by omega) (by omega), Int32.ofInt_toInt]

/- Agent 1, reference 2.3, the first data type and four cycles. -/
theorem reopenedExactFour : Unchanged Ctrl.decimal [] (modbusFields blank 1 1 2 3 4) :=
  (reopenedExact Ctrl.decimal [] (modbusFields blank 1 1 2 3 4) 1 rfl (by decide)).mpr
    ⟨by decide, Or.inl (by decide)⟩

def underscored : Fields := {blank with agent := number 1, reference := "2_3".toList, datatype := 1}

/- The reference 2_3 comes back as 3. -/
theorem notUnchanged : ¬ ∀ (ctrl : Ctrl) (drvIdent : QString) (p : Fields) (a : Int),
    p.agent = number a → p.reference ≠ [] → Unchanged ctrl drvIdent p := by
  intro all
  have unchanged := all Ctrl.decimal [] underscored 1 rfl (by decide)
  rw [unchangedText Ctrl.decimal [] underscored (agentPlain (a := 1) rfl),
    survives Ctrl.decimal underscored.flicker (by decide)] at unchanged
  exact absurd unchanged.1 (by decide)

end SerialModbus.Reopening
