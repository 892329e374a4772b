import PointerScript.Proofs.Evaluation

/-! Machines that differ by a displacement: the pointer of the second stands elsewhere, and the places it remembers
and its origin lie elsewhere. Whatever the user does, and every instruction that sees all places from the origin, has
the same effect on both, elsewhere. -/

namespace PointerScript

namespace Point

theorem shift_right_comm (p a b : Point) : (p.shift a).shift b = (p.shift b).shift a := by
  simp only [shift, mk.injEq]
  omega

theorem shift_assoc (p a b : Point) : (p.shift a).shift b = p.shift (a.shift b) := by
  simp only [shift, mk.injEq]
  omega

end Point

def Event.shift (d : Point) : Event → Event
  | moveTo target duration => moveTo (target.shift d) duration
  | e => e

/-- The memory with its history and its offset displaced. -/
def Memory.shift (d e : Point) (memory : Memory) : Memory :=
  { memory with history := memory.history.map (·.shift d), offset := memory.offset.shift e }

def Store.shift (d e : Point) : Store → Store
  | ready memory => ready (memory.shift d e)
  | store => store

/-- Whether an instruction sees all places from the origin: it neither reads a value of the pointer or the offset nor
goes to the middle of the screen, and it does not put the origin back. -/
structure Instruction.Relative (inst : Instruction) : Prop where
  reads : ∀ x, .operand (.named x) ∈ inst.arguments ∨ inst = .printVar x → x ∉ ambientNames
  stays : inst ≠ .setup ∧ inst ≠ .center ∧ inst ≠ .clearOffset

namespace Device

/-- Two devices of which the second is displaced, and has been since some old events. -/
structure Displaced (d : Point) (old : Array Event) (a b : Device) : Prop where
  pos : b.pos = a.pos.shift d
  screen : b.screen = a.screen
  faults : b.faults = a.faults
  events : ∃ new, a.events = old ++ new ∧ b.events = old ++ new.map (Event.shift d)

/-- What a call comes to on a device and a displaced one: the same fault, and devices displaced again. -/
def Agree (d : Point) (old : Array Event) (a b : Device × Option DeviceFault) : Prop :=
  b.2 = a.2 ∧ a.1.Displaced d old b.1

variable {d : Point} {old : Array Event} {a b : Device}

namespace Displaced

theorem note (h : a.Displaced d old b) (e : Event) : (a.note e).Displaced d old (b.note (e.shift d)) := by
  obtain ⟨new, ha, hb⟩ := h.events
  refine ⟨h.pos, h.screen, h.faults, new.push e, ?_, ?_⟩
  · simp [Device.note, ha]
  · simp [Device.note, hb]

theorem perform (h : a.Displaced d old b) (call : DeviceCall) {effect effect' : Device → Device}
    (he : ∀ a b : Device, a.Displaced d old b → (effect a).Displaced d old (effect' b)) :
    Agree d old (a.perform call effect) (b.perform call effect') := by
  have hcount : (a.countCall call).Displaced d old (b.countCall call) :=
    ⟨h.pos, h.screen, by simp only [countCall, h.faults], h.events⟩
  have hfails : b.failsNext call = a.failsNext call := by simp only [failsNext, h.faults]
  simp only [Device.perform, hfails]
  split
  · exact ⟨rfl, hcount⟩
  · exact ⟨rfl, he _ _ hcount⟩

theorem moveTo (h : a.Displaced d old b) (target : Point) (duration : Number) :
    Agree d old (a.moveTo target duration) (b.moveTo (target.shift d) duration) := by
  apply h.perform
  intro a b h
  have hnote := h.note (.moveTo target duration)
  exact ⟨rfl, hnote.screen, hnote.faults, hnote.events⟩

theorem moveRel (h : a.Displaced d old b) (x y duration : Number) :
    Agree d old (a.moveRel x y duration) (b.moveRel x y duration) := by
  simp only [Device.moveRel]
  cases x.truncate with
  | error fault => exact ⟨rfl, h⟩
  | ok dx =>
    cases y.truncate with
    | error fault => exact ⟨rfl, h⟩
    | ok dy =>
      apply h.perform
      intro a b h
      have hnote := h.note (.moveRel x y duration)
      refine ⟨?_, hnote.screen, hnote.faults, hnote.events⟩
      change b.pos.shift ⟨dx, dy⟩ = (a.pos.shift ⟨dx, dy⟩).shift d
      rw [h.pos, Point.shift_right_comm]

theorem noted (h : a.Displaced d old b) (call : DeviceCall) {e : Event} (he : e.shift d = e) :
    Agree d old (a.perform call (·.note e)) (b.perform call (·.note e)) := by
  apply h.perform
  intro a b h
  have hnote := h.note e
  rwa [he] at hnote

theorem sleep (h : a.Displaced d old b) (t : Number) : Agree d old (a.sleep t) (b.sleep t) := by
  unfold Device.sleep
  split
  · exact ⟨rfl, h⟩
  · split
    · exact ⟨rfl, h⟩
    · split
      · exact ⟨rfl, h⟩
      · exact h.noted .sleep rfl

end Displaced

end Device

namespace Machine

/-- Two machines of which the second is displaced: its device is, and its memory is, with the offset displaced by
another amount. All else is the same. -/
def Displaced (d e : Point) (old : Array Event) (m n : Machine) : Prop :=
  ∃ device, m.device.Displaced d old device ∧ n = { m with store := m.store.shift d e, device := device }

def Agree (d e : Point) (old : Array Event) (a b : Machine × Option Fault) : Prop :=
  b.2 = a.2 ∧ a.1.Displaced d e old b.1

variable {d e : Point} {old : Array Event} {m n : Machine}

namespace Displaced

theorem say (h : m.Displaced d e old n) (level : Level) (message : String) :
    (m.say level message).Displaced d e old (n.say level message) := by
  obtain ⟨device, hd, rfl⟩ := h
  exact ⟨device, hd, rfl⟩

theorem note (h : m.Displaced d e old n) (event : Event) (he : event.shift d = event) :
    Displaced d e old { m with device := m.device.note event } { n with device := n.device.note event } := by
  obtain ⟨device, hd, rfl⟩ := h
  have hnote := hd.note event
  rw [he] at hnote
  exact ⟨_, hnote, rfl⟩

theorem resume (h : m.Displaced d e old n) : m.resume.Displaced d e old n.resume := by
  obtain ⟨device, hd, rfl⟩ := h
  unfold Machine.resume
  dsimp only
  by_cases hg : m.gate = some false
  · rw [if_pos hg, if_pos hg]
    apply say
    have hopen : Displaced d e old { m with gate := some true }
        { m with gate := some true, store := m.store.shift d e, device := device } := ⟨device, hd, rfl⟩
    by_cases hn : m.noteResume = true
    · rw [if_pos hn, if_pos hn]
      exact hopen.note .resumed rfl
    · rw [if_neg hn, if_neg hn]
      exact hopen
  · rw [if_neg hg, if_neg hg]
    exact ⟨device, hd, rfl⟩

private theorem hooked (h : m.Displaced d e old n) : m.runPauseHook.Displaced d e old n.runPauseHook := by
  have hhook : n.onPause = m.onPause := by obtain ⟨_, _, rfl⟩ := h; rfl
  cases ho : m.onPause with
  | nothing => simpa only [runPauseHook, hhook, ho] using h
  | note => simpa only [runPauseHook, hhook, ho] using h.note .paused rfl
  | resume => simpa only [runPauseHook, hhook, ho] using h.resume
  | panel =>
    obtain ⟨device, hd, rfl⟩ := h
    cases m with
    | mk program visits pc running store past gate onPause noteResume inner panel log =>
      obtain rfl : onPause = .panel := ho
      cases panel with
      | none => exact ⟨device, hd, rfl⟩
      | some p =>
        simp only [runPauseHook]
        split <;> exact ⟨device, hd, rfl⟩

theorem pause (h : m.Displaced d e old n) : m.pause.Displaced d e old n.pause := by
  obtain ⟨device, hd, rfl⟩ := h
  unfold Machine.pause
  dsimp only
  by_cases hg : m.gate = some true
  · rw [if_pos hg, if_pos hg]
    apply say
    apply hooked
    exact ⟨device, hd, rfl⟩
  · rw [if_neg hg, if_neg hg]
    exact ⟨device, hd, rfl⟩

private theorem quit (h : m.Displaced d e old n) (warning : String) :
    (n.quit warning).2 = (m.quit warning).2 ∧ (m.quit warning).1.Displaced d e old (n.quit warning).1 := by
  obtain ⟨device, hd, rfl⟩ := h
  unfold Machine.quit Device.sleepTenths
  generalize Number.float (Decimal.nearest false ⟨2, -1⟩) = t
  obtain ⟨hfault, hslept⟩ := hd.sleep t
  dsimp only
  rcases hm : m.device.sleep t with ⟨slept, fault⟩
  rcases hn : device.sleep t with ⟨slept', fault'⟩
  rw [hm, hn] at hfault hslept
  obtain rfl : fault' = fault := hfault
  cases fault' with
  | none => exact ⟨rfl, slept', hslept, rfl⟩
  | some fault => exact ⟨rfl, slept', hslept, rfl⟩

private theorem press (h : m.Displaced d e old n) (p : Panel) (button : Button) :
    (n.press p button).2 = (m.press p button).2 ∧ (m.press p button).1.Displaced d e old (n.press p button).1 := by
  have hturned : Displaced d e old { m with panel := some p.toggle } { n with panel := some p.toggle } := by
    obtain ⟨device, hd, rfl⟩ := h
    exact ⟨device, hd, rfl⟩
  cases button with
  | pause => exact ⟨rfl, hturned.pause⟩
  | play => exact ⟨rfl, hturned.resume⟩
  | stop =>
    simp only [Machine.press]
    exact h.quit _

private theorem answerKey (h : m.Displaced d e old n) (p : Panel) (key : Key) :
    (n.answerKey p key).2 = (m.answerKey p key).2 ∧
      (m.answerKey p key).1.Displaced d e old (n.answerKey p key).1 := by
  unfold Machine.answerKey
  dsimp only
  have hheard (q : Panel) : Displaced d e old { m with panel := some q } { n with panel := some q } := by
    obtain ⟨device, hd, rfl⟩ := h
    exact ⟨device, hd, rfl⟩
  split
  · exact (hheard _).press _ _
  · exact ⟨rfl, hheard _⟩

private theorem hearKey (h : m.Displaced d e old n) (p : Panel) (key : Key) :
    (n.hearKey p key).2 = (m.hearKey p key).2 ∧ (m.hearKey p key).1.Displaced d e old (n.hearKey p key).1 := by
  have ha := h.answerKey p key
  unfold Machine.hearKey
  split
  · split
    · exact ha.2.quit _
    · exact h.quit _
  · exact ha

/-- The user does the same to a machine and to a displaced one. -/
theorem act (h : m.Displaced d e old n) (a : Act) :
    (n.act a).2 = (m.act a).2 ∧ (m.act a).1.Displaced d e old (n.act a).1 := by
  have hpanel : n.panel = m.panel := by obtain ⟨_, _, rfl⟩ := h; rfl
  cases a with
  | resume => exact ⟨rfl, h.resume⟩
  | pause => exact ⟨rfl, h.pause⟩
  | stop =>
    obtain ⟨device, hd, rfl⟩ := h
    exact ⟨rfl, device, hd, rfl⟩
  | key key =>
    simp only [Machine.act, hpanel]
    split
    · exact h.hearKey _ key
    · exact ⟨rfl, h⟩
  | click button =>
    simp only [Machine.act, hpanel]
    split
    · exact h.press _ button
    · exact ⟨rfl, h⟩
  | popup text title =>
    simp only [Machine.act, hpanel]
    split
    · obtain ⟨device, hd, rfl⟩ := h
      exact ⟨rfl, device, hd, rfl⟩
    · exact ⟨rfl, h⟩

section

variable {memory : Memory}

theorem store (h : m.Displaced d e old n) (hs : m.store = .ready memory) : n.store = .ready (memory.shift d e) := by
  obtain ⟨device, hd, rfl⟩ := h
  simp only [hs, Store.shift]

theorem value (h : m.Displaced d e old n) (hs : m.store = .ready memory) {o : Operand}
    (ho : ∀ x, o = .named x → x ∉ ambientNames) : n.value o = m.value o := by
  cases o with
  | literal v => rfl
  | named x =>
    simp only [Machine.value, scope, h.store hs, hs, Memory.lookup, ambient?_of_not_mem (ho x rfl)]
    rfl

theorem argument (h : m.Displaced d e old n) (hs : m.store = .ready memory) {a : Argument}
    (ha : ∀ x, a = .operand (.named x) → x ∉ ambientNames) : n.argument a = m.argument a := by
  cases a with
  | bare v => rfl
  | operand o =>
    apply h.value hs
    intro x hx
    exact ha x (congrArg _ hx)

theorem withMemory (h : m.Displaced d e old n) (memory : Memory) :
    (m.withMemory memory).Displaced d e old (n.withMemory (memory.shift d e)) := by
  obtain ⟨device, hd, rfl⟩ := h
  exact ⟨device, hd, rfl⟩

private theorem attempt {α : Type} (h : m.Displaced d e old n) {result : Except Fault α}
    {next next' : α → Machine × Option Fault} (hn : ∀ a, Agree d e old (next a) (next' a)) :
    Agree d e old (m.attempt result next) (n.attempt result next') := by
  cases result with
  | error fault => exact ⟨rfl, h⟩
  | ok a => exact hn a

private theorem onDevice (h : m.Displaced d e old n) {call call' : Device → Device × Option DeviceFault}
    (hc : ∀ a b : Device, a.Displaced d old b → Device.Agree d old (call a) (call' b)) :
    Agree d e old (m.onDevice call) (n.onDevice call') := by
  obtain ⟨device, hd, rfl⟩ := h
  obtain ⟨hfault, hcall⟩ := hc _ _ hd
  exact ⟨congrArg (Option.map Fault.device) hfault, _, hcall, rfl⟩

/-- A displaced machine remembers the displaced place. -/
private theorem remember (h : m.Displaced d e old n) (hs : m.store = .ready memory)
    {next next' : Machine → Machine × Option Fault}
    (hn : ∀ k k' : Machine, k.Displaced d e old k' → k.store = .ready (memory.pushPlace m.device.pos) →
      Agree d e old (next k) (next' k')) : Agree d e old (m.remember next) (n.remember next') := by
  have hpos : n.device.pos = m.device.pos.shift d := by
    obtain ⟨device, hd, rfl⟩ := h
    exact hd.pos
  have hpush : (memory.shift d e).pushPlace n.device.pos = (memory.pushPlace m.device.pos).shift d e := by
    rw [hpos]
    rfl
  simp only [Machine.remember, attemptMemory, hs, h.store hs, Store.memory, hpush]
  exact hn _ _ (h.withMemory _) rfl

private theorem move (h : m.Displaced d d old n) (hs : m.store = .ready memory) {x : Operand} {y : Argument}
    (hx : ∀ z, x = .named z → z ∉ ambientNames) (hy : ∀ z, y = .operand (.named z) → z ∉ ambientNames)
    (time : Number) : Agree d d old (m.move x y time) (n.move x y time) := by
  apply h.remember hs
  intro k k' hk hks
  rw [hk.value hks hx, hk.argument hks hy]
  apply hk.attempt
  intro vx
  apply hk.attempt
  intro vy
  apply hk.attempt
  intro place
  -- The offset is displaced as far as the pointer, so the target is.
  have htarget : place.shift (memory.offset.shift d) = (place.shift memory.offset).shift d :=
    (Point.shift_assoc _ _ _).symm
  simp only [attemptMemory, hks, hk.store hks, Store.offset, Memory.shift, Memory.pushPlace, htarget]
  apply hk.onDevice
  intro a b hab
  exact hab.moveTo _ time

private theorem moveRel (h : m.Displaced d e old n) (hs : m.store = .ready memory) {x : Operand} {y : Argument}
    (hx : ∀ z, x = .named z → z ∉ ambientNames) (hy : ∀ z, y = .operand (.named z) → z ∉ ambientNames)
    (time : Number) : Agree d e old (m.moveRel x y time) (n.moveRel x y time) := by
  apply h.remember hs
  intro k k' hk hks
  rw [hk.value hks hx, hk.argument hks hy]
  apply hk.attempt
  intro vx
  apply hk.attempt
  intro vy
  apply hk.onDevice
  intro a b hab
  exact hab.moveRel vx vy time

private theorem goBack (h : m.Displaced d e old n) (hs : m.store = .ready memory) :
    Agree d e old m.goBack n.goBack := by
  simp only [Machine.goBack, attemptMemory, hs, h.store hs, Store.memory, Memory.popPlace?, Memory.shift]
  cases memory.history with
  | nil => exact ⟨rfl, h.say _ _⟩
  | cons place earlier =>
    have hpopped := h.withMemory { memory with history := earlier }
    apply hpopped.onDevice
    intro a b hab
    exact hab.moveTo place _

/-- Setting the origin at the pointer displaces it as far as the pointer is displaced. -/
theorem setOffset (h : m.Displaced d e old n) (hs : m.store = .ready memory) :
    Agree d d old (m.setOffset m.device.pos) (n.setOffset n.device.pos) := by
  simp only [Machine.setOffset, attemptMemory, hs, h.store hs, Store.setOffset]
  obtain ⟨device, hd, rfl⟩ := h
  refine ⟨rfl, device, hd, ?_⟩
  simp only [Store.shift, Memory.shift, hd.pos]

private theorem click (h : m.Displaced d e old n) (hs : m.store = .ready memory) (call : DeviceCall) {event : Event}
    (he : event.shift d = event) :
    Agree d e old (m.click fun a => a.perform call (·.note event))
      (n.click fun a => a.perform call (·.note event)) := by
  simp only [Machine.click, attemptMemory, hs, h.store hs, Store.safe, Memory.shift]
  split
  · exact ⟨rfl, h⟩
  · apply h.onDevice
    intro a b hab
    exact hab.noted call he

theorem wait (h : m.Displaced d e old n) (hs : m.store = .ready memory) {time : Operand}
    (ht : ∀ z, time = .named z → z ∉ ambientNames) (index : Option Nat) :
    Agree d e old (m.carryOut index (.wait time)) (n.carryOut index (.wait time)) := by
  simp only [Machine.carryOut, h.value hs ht]
  apply h.attempt
  intro t
  apply h.onDevice
  intro a b hab
  exact hab.sleep t

theorem safeMode (h : m.Displaced d e old n) (hs : m.store = .ready memory) (on : Bool) (index : Option Nat) :
    Agree d e old (m.carryOut index (.safeMode on)) (n.carryOut index (.safeMode on)) := by
  simp only [Machine.carryOut, setSafe, attemptMemory, hs, h.store hs, Store.setSafe]
  have hset := h.withMemory { memory with safe := on }
  exact ⟨rfl, hset.say _ _⟩

theorem visitsAt (h : m.Displaced d e old n) (index : Option Nat) : n.visitsAt index = m.visitsAt index := by
  obtain ⟨device, hd, rfl⟩ := h
  cases index <;> rfl

private theorem setVisits (h : m.Displaced d e old n) (index : Option Nat) (v : Nat) :
    (m.setVisits index v).Displaced d e old (n.setVisits index v) := by
  obtain ⟨device, hd, rfl⟩ := h
  cases index <;> exact ⟨device, hd, rfl⟩

theorem withPc (h : m.Displaced d e old n) (pc : Int) :
    Displaced d e old { m with pc := pc } { n with pc := pc } := by
  obtain ⟨device, hd, rfl⟩ := h
  exact ⟨device, hd, rfl⟩

private theorem jump (h : m.Displaced d e old n) (hs : m.store = .ready memory) {count : Operand}
    (hc : ∀ z, count = .named z → z ∉ ambientNames) (index : Option Nat) (target : Int) :
    Agree d e old (m.jump index count target) (n.jump index count target) := by
  simp only [Machine.jump, h.value hs hc, h.visitsAt]
  apply h.attempt
  intro v
  split
  · exact ⟨rfl, h.withPc _⟩
  · split
    · exact ⟨rfl, h.setVisits index 0⟩
    · exact ⟨rfl, (h.setVisits index _).withPc _⟩

private theorem call (h : m.Displaced d e old n) (hs : m.store = .ready memory) {count : Operand}
    (hc : ∀ z, count = .named z → z ∉ ambientNames) (index : Option Nat) (target : Int) :
    Agree d e old (m.call index count target) (n.call index count target) := by
  have hpc : n.pc = m.pc := by obtain ⟨_, _, rfl⟩ := h; rfl
  have hopened := h.withMemory { memory with calls := m.pc :: memory.calls }
  rw [call_eq hs, call_eq (h.store hs), hpc]
  change Agree d e old _ (if memory.calls.length + 1 ≥ Memory.callLimit then _ else _)
  split
  · exact ⟨rfl, hopened⟩
  · exact hopened.jump rfl hc index target

private theorem ret (h : m.Displaced d e old n) (hs : m.store = .ready memory) : Agree d e old m.ret n.ret := by
  simp only [Machine.ret, attemptMemory, hs, h.store hs, Store.memory, Memory.popCall?, Memory.shift]
  cases memory.calls with
  | nil => exact ⟨rfl, h.say _ _⟩
  | cons last earlier =>
    have hclosed := h.withMemory { memory with calls := earlier }
    dsimp only
    split
    · exact ⟨rfl, hclosed⟩
    · exact ⟨rfl, hclosed.withPc last⟩

private theorem printVar (h : m.Displaced d e old n) (hs : m.store = .ready memory) {x : String}
    (hx : x ∉ ambientNames) : Agree d e old (m.printVar x) (n.printVar x) := by
  simp only [Machine.printVar, attemptMemory, hs, h.store hs, Store.offset, Store.memory, Memory.lookup,
    ambient?_of_not_mem hx]
  apply h.attempt
  intro v
  apply h.attempt
  intro text
  exact ⟨rfl, h.say _ _⟩

/-- What is computed of the variables is the same, and so is what is stored. -/
private theorem assign (h : m.Displaced d e old n) (hs : m.store = .ready memory) (x : String)
    (result : Except Fault Number) : Agree d e old
      (m.attempt result fun v => m.attemptMemory (m.store.memory .vars) fun memory =>
        (m.withMemory (memory.set x v), none))
      (n.attempt result fun v => n.attemptMemory (n.store.memory .vars) fun memory =>
        (n.withMemory (memory.set x v), none)) := by
  apply h.attempt
  intro v
  simp only [attemptMemory, hs, h.store hs, Store.memory]
  exact ⟨rfl, h.withMemory (memory.set x v)⟩

/-- With an origin that is displaced as far as the pointer, an instruction does the same elsewhere. -/
theorem carryOut (h : m.Displaced d d old n) (hs : m.store = .ready memory) {inst : Instruction} (hi : inst.Relative)
    (index : Option Nat) : Agree d d old (m.carryOut index inst) (n.carryOut index inst) := by
  have hread {a : Argument} (ha : a ∈ inst.arguments) : ∀ x, a = .operand (.named x) → x ∉ ambientNames := by
    rintro x rfl
    exact hi.reads x (.inl ha)
  have hoperand {o : Operand} (ho : .operand o ∈ inst.arguments) : ∀ x, o = .named x → x ∉ ambientNames := by
    rintro x rfl
    exact hi.reads x (.inl ho)
  cases inst with
  | setup => exact absurd rfl hi.stays.1
  | center => exact absurd rfl hi.stays.2.1
  | clearOffset => exact absurd rfl hi.stays.2.2
  | move x y time =>
    exact h.move hs (hoperand (by simp [Instruction.arguments])) (hread (by simp [Instruction.arguments])) time
  | moveRel x y time =>
    exact h.moveRel hs (hoperand (by simp [Instruction.arguments])) (hread (by simp [Instruction.arguments])) time
  | goBack => exact h.goBack hs
  | setOffset => exact h.setOffset hs
  | leftClick => exact h.click hs .leftClick rfl
  | rightClick => exact h.click hs .rightClick rfl
  | doubleClick => exact h.click hs .doubleClick rfl
  | wait time => exact h.wait hs (hoperand (by simp [Instruction.arguments])) index
  | pause => exact ⟨rfl, h.pause⟩
  | print message => exact ⟨rfl, h.say _ _⟩
  | safeMode on => exact h.safeMode hs on index
  | popup text title refused =>
    simp only [Machine.carryOut]
    split
    · exact ⟨rfl, h⟩
    · exact ⟨rfl, h.note _ rfl⟩
  | jump count target label => exact h.jump hs (hoperand (by simp [Instruction.arguments])) index target
  | call count target label => exact h.call hs (hoperand (by simp [Instruction.arguments])) index target
  | ret => exact h.ret hs
  | finish | halt => exact ⟨rfl, h⟩
  | printVar x => exact h.printVar hs (hi.reads x (.inr rfl))
  | setVar x value =>
    have hn : n.store ≠ .absent := by simp [h.store hs]
    simp only [Machine.carryOut, Machine.setVar, hs, reduceCtorEq, if_false, if_neg hn,
      h.value hs (hoperand (o := value) (by simp [Instruction.arguments]))]
    rw [← hs]
    exact h.assign hs x _
  | varMath x left right code =>
    have hcompute : n.compute left right code = m.compute left right code := by
      cases code with
      | unknown code => rfl
      | known op =>
        simp only [compute, h.value hs (hoperand (o := left) (by simp [Instruction.arguments])),
          h.value hs (hoperand (o := right) (by simp [Instruction.arguments]))]
    simp only [Machine.carryOut, Machine.varMath, hcompute]
    exact h.assign hs x _

end

end Displaced

end Machine

end PointerScript
