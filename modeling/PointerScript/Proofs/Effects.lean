import PointerScript.Machine.Effect

/-! What instructions can do. Most are plain: they act on the device, the history, the variables and
the offset alone, and what they do there is a deed that depends on the scene they find, not on the rest
of the machine. Jumps, calls and returns steer the run and leave the scene alone. The controls of the machine
are beyond all instructions but a pause. -/

namespace PointerScript

namespace Event

def isClick : Event → Bool
  | leftClick | rightClick | doubleClick => true
  | _ => false

end Event

namespace Instruction

def isClick : Instruction → Bool
  | leftClick | rightClick | doubleClick => true
  | _ => false

/-- Whether an instruction acts on the device, the history, the variables and the offset alone. -/
def isPlain : Instruction → Bool
  | setup | pause | safeMode _ | jump _ _ _ | call _ _ _ | ret | finish | halt => false
  | _ => true

end Instruction

/-- What a plain instruction finds. The open calls and the log are not part of it, and only clicks
look at whether they are held back. -/
structure Scene where
  pos : Point
  screen : Point
  faults : List (DeviceCall × Nat)
  history : List Point
  vars : List (String × Number)
  offset : Point

/-- What a plain instruction leaves: the parts of the scene it may change, and what it adds to the
events and to the log. -/
structure Deed where
  pos : Point
  faults : List (DeviceCall × Nat)
  history : List Point
  vars : List (String × Number)
  offset : Point
  events : Array Event
  messages : Log

namespace Machine

def scene (m : Machine) (memory : Memory) : Scene :=
  ⟨m.device.pos, m.device.screen, m.device.faults, memory.history, memory.vars, memory.offset⟩

def after (m : Machine) (memory : Memory) (d : Deed) : Machine :=
  { m with
    device := { m.device with pos := d.pos, faults := d.faults, events := m.device.events ++ d.events }
    store := .ready { memory with history := d.history, vars := d.vars, offset := d.offset }
    log := m.log ++ d.messages }

end Machine

namespace Deed

/-- What a deed owes to its kind and to the scene: only an operation that clicks adds clicks, and no
call of the device is about to fail where none was before. -/
def Suits (d : Deed) (clicks : Bool) (faults : List (DeviceCall × Nat)) : Prop :=
  (clicks = false → ∀ e ∈ d.events, e.isClick = false) ∧ (faults = [] → d.faults = [])

end Deed

namespace Machine

/-- An operation is local if one deed and one fault stand for it on all machines with the same scene.
Operations that click may depend on whether clicks are held back. -/
def Local (clicks : Bool) (run : Machine → Machine × Option Fault) : Prop :=
  ∀ (scene : Scene) safe, ∃ (d : Deed) (fault : Option Fault), d.Suits clicks scene.faults ∧
    ∀ m memory, m.store = .ready memory → m.scene memory = scene →
      (clicks = true → memory.safe = safe) → run m = (m.after memory d, fault)

/-- A result that depends on the scene alone. -/
def Seen {α : Type} (result : Machine → α) : Prop :=
  ∀ scene, ∃ a, ∀ m memory, m.store = .ready memory → m.scene memory = scene → result m = a

end Machine

namespace Scene

/-- The deed that changes nothing but leaves messages. -/
def saying (s : Scene) (messages : Log) : Deed :=
  ⟨s.pos, s.faults, s.history, s.vars, s.offset, #[], messages⟩

end Scene

namespace Machine

private theorem after_saying {m : Machine} {memory : Memory} (hs : m.store = .ready memory) (messages : Log) :
    m.after memory ((m.scene memory).saying messages) = { m with log := m.log ++ messages } := by
  cases m
  simp_all [after, scene, Scene.saying]

theorem local_fault (fault : Option Fault) : Local false fun m => (m, fault) := by
  intro s _
  refine ⟨s.saying #[], fault, by simp [Deed.Suits, Scene.saying], ?_⟩
  rintro m memory hs rfl _
  simp [after_saying hs]

theorem local_say (level : Level) (message : String) : Local false fun m => (m.say level message, none) := by
  intro s _
  refine ⟨s.saying #[⟨"Runtime", level, message⟩], none, by simp [Deed.Suits, Scene.saying], ?_⟩
  rintro m memory hs rfl _
  simp [after_saying hs, say]

theorem Local.clicking {run : Machine → Machine × Option Fault} (h : Local false run) : Local true run := by
  intro s safe
  obtain ⟨d, fault, hc, hd⟩ := h s safe
  exact ⟨d, fault, ⟨by simp, hc.2⟩, fun m memory hs hm _ => hd m memory hs hm (by simp)⟩

/-- A choice that depends on the scene alone goes the same way on all machines with that scene. -/
theorem local_of_seen {α : Type} {result : Machine → α} {next : α → Machine → Machine × Option Fault}
    (hr : Seen result) (hn : ∀ a, Local false (next a)) : Local false fun m => next (result m) m := by
  intro s safe
  obtain ⟨a, ha⟩ := hr s
  obtain ⟨d, fault, hc, hd⟩ := hn a s safe
  refine ⟨d, fault, hc, ?_⟩
  intro m memory hs hm hsafe
  dsimp only
  rw [ha m memory hs hm]
  exact hd m memory hs hm hsafe

theorem Local.attempt {α : Type} {result : Machine → Except Fault α}
    {next : Machine → α → Machine × Option Fault} (hr : Seen result)
    (hn : ∀ a, Local false fun m => next m a) : Local false fun m => m.attempt (result m) (next m) := by
  refine @local_of_seen _ _ (fun r m => m.attempt r (next m)) hr fun r => ?_
  cases r with
  | ok a => exact hn a
  | error fault => exact local_fault (some fault)

/-- What comes after an entry of the history is seen from the longer history. -/
theorem Local.remember {next : Machine → Machine × Option Fault} (h : Local false next) :
    Local false fun m => m.remember next := by
  intro s safe
  obtain ⟨d, fault, hc, hd⟩ := h { s with history := s.pos :: s.history } safe
  refine ⟨d, fault, hc, ?_⟩
  rintro m memory hs rfl _
  have hn := hd (m.withMemory (memory.pushPlace m.device.pos)) _ rfl rfl (by simp)
  simp only [Machine.remember, attemptMemory, hs, Store.memory, hn]
  rfl

theorem seen_value (o : Operand) : Seen fun m => m.value o := by
  intro s
  cases o with
  | literal v => exact ⟨.ok v, fun _ _ _ _ => rfl⟩
  | named name =>
    refine ⟨({ vars := s.vars, offset := s.offset } : Memory).lookup s.pos name, ?_⟩
    rintro m memory hs rfl
    simp [value, scope, hs, Memory.lookup, Memory.get?, scene]

theorem seen_argument (a : Argument) : Seen fun m => m.argument a := by
  cases a with
  | operand o => exact seen_value o
  | bare v => exact fun _ => ⟨.error (.notAnOperand v), fun _ _ _ _ => rfl⟩

theorem seen_compute (left right : Operand) (code : MathCode) : Seen fun m => m.compute left right code := by
  intro s
  obtain ⟨l, hl⟩ := seen_value left s
  obtain ⟨r, hr⟩ := seen_value right s
  cases code with
  | unknown text => exact ⟨.error (.unknownOperation text), fun _ _ _ _ => rfl⟩
  | known op =>
    refine ⟨do (op.apply (← l) (← r)).mapError .arithmetic, ?_⟩
    intro m memory hs hm
    simp only [compute, ← hl m memory hs hm, ← hr m memory hs hm]

end Machine

namespace Device

/-- A call of the device is local if it depends on the pointer, the screen and the faults alone and
adds to the events whatever they are. -/
def Local (clicks : Bool) (call : Device → Device × Option DeviceFault) : Prop :=
  ∀ pos screen faults, ∃ pos' faults' events fault,
    ((clicks = false → ∀ e ∈ events, e.isClick = false) ∧ (faults = [] → faults' = [])) ∧
    ∀ d : Device, d.pos = pos → d.screen = screen → d.faults = faults →
      call d = ({ d with pos := pos', faults := faults', events := d.events ++ events }, fault)

theorem local_refuse (fault : DeviceFault) : Local false fun d => (d, some fault) := by
  intro pos screen faults
  refine ⟨pos, faults, #[], some fault, by simp, ?_⟩
  rintro d rfl rfl rfl
  simp

/-- Calls that note one event and put the pointer somewhere are local. -/
theorem local_perform (call : DeviceCall) (e : Event) (place : Point → Point) :
    Local e.isClick fun d => d.perform call fun d => { d.note e with pos := place d.pos } := by
  intro pos screen faults
  by_cases hf : faults.any fun f => f.1 = call && f.2 = 1
  · refine ⟨pos, ({ faults := faults } : Device).countCall call |>.faults, #[], some (.broken call),
      by simp [countCall], ?_⟩
    rintro d rfl rfl rfl
    simp [perform, failsNext, hf, countCall]
  · refine ⟨place pos, ({ faults := faults } : Device).countCall call |>.faults, #[e], none,
      by simp [countCall], ?_⟩
    rintro d rfl rfl rfl
    simp [perform, failsNext, hf, countCall, note]

theorem local_moveTo (target : Point) (duration : Number) : Local false fun d => d.moveTo target duration :=
  local_perform .moveTo (.moveTo target duration) fun _ => target

theorem local_moveRel (x y duration : Number) : Local false fun d => d.moveRel x y duration := by
  unfold moveRel
  cases x.truncate with
  | error fault => exact local_refuse (.arithmetic fault)
  | ok dx =>
    cases y.truncate with
    | error fault => exact local_refuse (.arithmetic fault)
    | ok dy => exact local_perform .moveRel (.moveRel x y duration) fun p => p.shift ⟨dx, dy⟩

theorem local_sleep (t : Number) : Local false fun d => d.sleep t := by
  unfold sleep
  split
  · exact local_refuse _
  · split
    · exact local_refuse _
    · split
      · exact local_refuse _
      · exact local_perform .sleep (.sleep t) id

theorem local_center : Local false fun d =>
    d.moveTo ⟨Int.fdiv d.screen.x 2, Int.fdiv d.screen.y 2⟩ (.float (.zero false)) := by
  intro pos screen faults
  obtain ⟨pos', faults', events, fault, hc, h⟩ :=
    local_moveTo ⟨Int.fdiv screen.x 2, Int.fdiv screen.y 2⟩ (.float (.zero false)) pos screen faults
  refine ⟨pos', faults', events, fault, hc, ?_⟩
  rintro d hp rfl hf
  exact h d hp rfl hf

end Device

namespace Machine

theorem local_onDevice {clicks : Bool} {call : Device → Device × Option DeviceFault}
    (h : Device.Local clicks call) : Local clicks fun m => m.onDevice call := by
  intro s _
  obtain ⟨pos, faults, events, fault, hc, hd⟩ := h s.pos s.screen s.faults
  refine ⟨⟨pos, faults, s.history, s.vars, s.offset, events, #[]⟩, fault.map .device, hc, ?_⟩
  rintro m memory hs rfl _
  simp only [onDevice, hd m.device rfl rfl rfl]
  cases m
  simp_all [after, scene]

theorem local_move (x : Operand) (y : Argument) (time : Number) : Local false fun m => m.move x y time := by
  refine @Local.remember (fun m => _) <| .attempt (seen_value x) fun vx => ?_
  refine .attempt (seen_argument y) fun vy => .attempt (fun _ => ⟨placeOf vx vy, fun _ _ _ _ => rfl⟩) fun place => ?_
  intro s safe
  obtain ⟨d, fault, hc, hd⟩ := local_onDevice (Device.local_moveTo (place.shift s.offset) time) s safe
  refine ⟨d, fault, hc, ?_⟩
  rintro m memory hs rfl hsafe
  simpa only [attemptMemory, hs, Store.offset, scene] using hd m memory hs rfl hsafe

theorem local_moveRel (x : Operand) (y : Argument) (time : Number) :
    Local false fun m => m.moveRel x y time := by
  refine @Local.remember (fun m => _) <| .attempt (seen_value x) fun vx => ?_
  exact .attempt (seen_argument y) fun vy => local_onDevice (Device.local_moveRel vx vy time)

theorem local_center : Local false center :=
  Local.remember (local_onDevice Device.local_center)

/-- Going back looks at the history alone: with no place in it nothing moves. -/
theorem local_goBack : Local false goBack := by
  intro s safe
  cases hh : s.history with
  | nil =>
    obtain ⟨d, fault, hc, hd⟩ := local_say .debug "Movement history is empty, cannot go back." s safe
    refine ⟨d, fault, hc, ?_⟩
    rintro m memory hs rfl hsafe
    have he : memory.history = [] := hh
    simpa only [goBack, attemptMemory, hs, Store.memory, Memory.popPlace?, he] using hd m memory hs rfl hsafe
  | cons place earlier =>
    obtain ⟨d, fault, hc, hd⟩ := local_onDevice (Device.local_moveTo place (.float (.zero false)))
      { s with history := earlier } safe
    refine ⟨d, fault, hc, ?_⟩
    rintro m memory hs rfl _
    have he : memory.history = place :: earlier := hh
    have hn := hd (m.withMemory { memory with history := earlier }) _ rfl rfl (by simp)
    simp only [goBack, attemptMemory, hs, Store.memory, Memory.popPlace?, he, hn]
    rfl

theorem local_setOffset (place : Point → Point) : Local false fun m => m.setOffset (place m.device.pos) := by
  intro s _
  refine ⟨{ s.saying #[] with offset := place s.pos }, none, by simp [Deed.Suits, Scene.saying], ?_⟩
  rintro m memory hs rfl _
  cases m
  simp_all [setOffset, attemptMemory, Store.setOffset, after, scene, Scene.saying]

theorem local_click {call : Device → Device × Option DeviceFault} (h : Device.Local true call) :
    Local true fun m => m.click call := by
  intro s safe
  cases safe with
  | true =>
    obtain ⟨d, fault, hc, hd⟩ := (local_fault none).clicking s true
    refine ⟨d, fault, hc, ?_⟩
    intro m memory hs hm hsafe
    simpa only [click, attemptMemory, hs, Store.safe, hsafe rfl, if_true] using hd m memory hs hm hsafe
  | false =>
    obtain ⟨d, fault, hc, hd⟩ := local_onDevice h s false
    refine ⟨d, fault, hc, ?_⟩
    intro m memory hs hm hsafe
    simpa only [click, attemptMemory, hs, Store.safe, hsafe rfl, Bool.false_eq_true, if_false] using
      hd m memory hs hm hsafe

/-- Storing a value changes the variables alone. -/
private theorem local_store (name : String) (v : Number) : Local false fun m =>
    m.attemptMemory (m.store.memory .vars) fun memory => (m.withMemory (memory.set name v), none) := by
  intro s _
  refine ⟨{ s.saying #[] with vars := Memory.setEntry name v s.vars }, none, by simp [Deed.Suits, Scene.saying], ?_⟩
  rintro m memory hs rfl _
  cases m
  simp_all [attemptMemory, Store.memory, withMemory, Memory.set, after, scene, Scene.saying]

theorem local_setVar (name : String) (o : Operand) : Local false fun m => m.setVar name (m.value o) := by
  intro s safe
  obtain ⟨d, fault, hc, hd⟩ := Local.attempt (seen_value o) (local_store name) s safe
  refine ⟨d, fault, hc, ?_⟩
  intro m memory hs hm hsafe
  have hp : m.store ≠ .absent := by simp [hs]
  simpa only [setVar, if_neg hp] using hd m memory hs hm hsafe

theorem local_varMath (name : String) (left right : Operand) (code : MathCode) :
    Local false fun m => m.varMath name left right code :=
  Local.attempt (seen_compute left right code) (local_store name)

theorem local_sayValue (name : String) (value : Number) : Local false fun m => m.sayValue name value :=
  .attempt (fun _ => ⟨_, fun _ _ _ _ => rfl⟩) fun _ => local_say .info _

theorem local_printVar (name : String) : Local false fun m => m.printVar name := by
  intro s safe
  cases ha : ambient? s.pos s.offset name with
  | some value =>
    obtain ⟨d, fault, hc, hd⟩ := local_sayValue name value s safe
    refine ⟨d, fault, hc, ?_⟩
    rintro m memory hs rfl hsafe
    have hv : ambient? m.device.pos memory.offset name = some value := ha
    simpa only [printVar, attemptMemory, hs, Store.offset, hv] using hd m memory hs rfl hsafe
  | none =>
    have hl : Local false fun m => m.attempt (m.value (.named name)) fun value => m.sayValue name value :=
      .attempt (seen_value _) (local_sayValue name)
    obtain ⟨d, fault, hc, hd⟩ := hl s safe
    refine ⟨d, fault, hc, ?_⟩
    rintro m memory hs rfl hsafe
    have hv : ambient? m.device.pos memory.offset name = none := ha
    simpa only [printVar, attemptMemory, hs, Store.offset, Store.memory, hv, value, scope] using
      hd m memory hs rfl hsafe

theorem local_popup (text title : String) (refused : Bool) :
    Local false fun m => m.carryOut none (.popup text title refused) := by
  cases refused with
  | true => exact local_fault (some .popupRefused)
  | false =>
    intro s _
    refine ⟨{ s.saying #[] with events := #[.popup text title] }, none, ?_, ?_⟩
    · simp [Deed.Suits, Scene.saying, Event.isClick]
    rintro m memory hs rfl _
    cases m
    simp_all [carryOut, Device.note, after, scene, Scene.saying]

private theorem local_carryOut {inst : Instruction} (h : inst.isPlain = true) :
    Local inst.isClick fun m => m.carryOut none inst := by
  cases inst with
  | center => exact local_center
  | move x y time => exact local_move x y time
  | moveRel x y time => exact local_moveRel x y time
  | goBack => exact local_goBack
  | setOffset => exact local_setOffset id
  | clearOffset => exact local_setOffset fun _ => .origin
  | leftClick => exact local_click (Device.local_perform .leftClick .leftClick id)
  | rightClick => exact local_click (Device.local_perform .rightClick .rightClick id)
  | doubleClick => exact local_click (Device.local_perform .doubleClick .doubleClick id)
  | wait time => exact .attempt (seen_value time) fun t => local_onDevice (Device.local_sleep t)
  | print message => exact local_say .info message
  | popup text title refused => exact local_popup text title refused
  | printVar name => exact local_printVar name
  | setVar name value => exact local_setVar name value
  | varMath name left right code => exact local_varMath name left right code
  | setup | pause | safeMode | jump | call | ret | finish | halt => simp [Instruction.isPlain] at h

private theorem carryOut_index {inst : Instruction} (h : inst.isPlain = true) (m : Machine) (index : Option Nat) :
    m.carryOut index inst = m.carryOut none inst := by
  cases inst with
  | setup | pause | safeMode | jump | call | ret | finish | halt => simp [Instruction.isPlain] at h
  | _ => rfl

/-- A plain instruction does one deed on all machines with one scene, wherever it stands in the
program. Where it is a click, the machines have to agree on whether clicks are held back. -/
theorem carryOut_plain {inst : Instruction} (h : inst.isPlain = true) (s : Scene) (safe : Bool) :
    ∃ (d : Deed) (fault : Option Fault), d.Suits inst.isClick s.faults ∧
      ∀ (m : Machine) (memory : Memory) (index : Option Nat), m.store = .ready memory → m.scene memory = s →
        (inst.isClick = true → memory.safe = safe) → m.carryOut index inst = (m.after memory d, fault) := by
  obtain ⟨d, fault, hc, hd⟩ := local_carryOut h s safe
  refine ⟨d, fault, hc, ?_⟩
  intro m memory index hs hm hsafe
  rw [carryOut_index h]
  exact hd m memory hs hm hsafe

/-- A jump fails without effect, falls through or goes to its target; besides the program counter it
changes the counters alone. -/
theorem jump_cases (m : Machine) (index : Option Nat) (count : Operand) (target : Int) :
    (∃ fault, m.jump index count target = (m, some fault)) ∨
    (∃ visits, m.jump index count target = ({ m with visits := visits }, none)) ∨
    ∃ visits, m.jump index count target = ({ m with visits := visits, pc := target - 1 }, none) := by
  have hv (n : Nat) : ∃ visits, m.setVisits index n = { m with visits := visits } := by
    cases index with
    | none => exact ⟨m.visits, rfl⟩
    | some i => exact ⟨m.visits.setIfInBounds i n, rfl⟩
  unfold jump attempt
  cases m.value count with
  | error fault => exact .inl ⟨fault, rfl⟩
  | ok n =>
    dsimp only
    split
    · exact .inr (.inr ⟨m.visits, rfl⟩)
    · split
      · obtain ⟨visits, he⟩ := hv 0
        exact .inr (.inl ⟨visits, by rw [he]⟩)
      · obtain ⟨visits, he⟩ := hv (m.visitsAt index + 1)
        exact .inr (.inr ⟨visits, by rw [he]; rfl⟩)

private theorem absent_value (m : Machine) : ∃ v, m.value Operand.absent = .ok v ∧ v.le (.int 0) = true := by
  have h : Operand.absent = .literal (.float (Binary64.ofInt (-1))) ∧
      (Number.float (Binary64.ofInt (-1))).le (.int 0) = true := by decide +kernel
  exact ⟨_, by rw [h.1]; rfl, h.2⟩

/-- A jump without a count always goes to its target. -/
theorem jump_absent (m : Machine) (index : Option Nat) (target : Int) :
    m.jump index Operand.absent target = (m.goTo target, none) := by
  obtain ⟨v, hv, hle⟩ := m.absent_value
  simp only [jump, hv, attempt, hle, if_true]

/-- The calls that are open, the newest first. -/
def openCalls (m : Machine) : List Int :=
  match m.store with
  | .ready memory => memory.calls
  | _ => []

theorem openCalls_ready {m : Machine} {memory : Memory} (hs : m.store = .ready memory) :
    m.openCalls = memory.calls := by
  rw [openCalls, hs]

def withCalls (m : Machine) (memory : Memory) (calls : List Int) : Machine :=
  m.withMemory { memory with calls := calls }

/-- A call opens a call at the program counter and jumps, unless that makes one call too many. -/
theorem call_eq {m : Machine} {memory : Memory} (hs : m.store = .ready memory) (index : Option Nat)
    (count : Operand) (target : Int) :
    m.call index count target =
      if memory.calls.length + 1 ≥ Memory.callLimit then
        (m.withCalls memory (m.pc :: memory.calls), some .tooDeep)
      else (m.withCalls memory (m.pc :: memory.calls)).jump index count target := by
  simp only [call, attemptMemory, hs, Store.memory, Memory.pushCall, List.length_cons, decide_eq_true_eq]
  rfl

/-- A call without a count always goes to its target. -/
theorem call_absent {m : Machine} {memory : Memory} (hs : m.store = .ready memory) (index : Option Nat)
    (target : Int) :
    m.call index Operand.absent target =
      if memory.calls.length + 1 ≥ Memory.callLimit then
        (m.withCalls memory (m.pc :: memory.calls), some .tooDeep)
      else ((m.withCalls memory (m.pc :: memory.calls)).goTo target, none) := by
  rw [call_eq hs, jump_absent]

theorem ret_empty {m : Machine} {memory : Memory} (hs : m.store = .ready memory) (hc : memory.calls = []) :
    m.ret = (m.say .warning emptyReturn, none) := by
  simp only [ret, attemptMemory, hs, Store.memory, Memory.popCall?, hc]

theorem ret_open {m : Machine} {memory : Memory} {last : Int} {earlier : List Int}
    (hs : m.store = .ready memory) (hc : memory.calls = last :: earlier) (hz : last ≠ 0) :
    m.ret = ({ m.withCalls memory earlier with pc := last }, none) := by
  simp only [ret, attemptMemory, hs, Store.memory, Memory.popCall?, hc, if_neg hz]
  rfl

end Machine

/-- What steers a machine and is not its script's to change: the program, whether it runs, the memory it falls back
on, the gate, the panel, and what else happens when it is paused or resumed. -/
structure Controls where
  program : Array Instruction
  running : Bool
  past : Option Memory
  gate : Option Bool
  panel : Option Panel
  onPause : PauseHook
  noteResume : Bool

namespace Machine

def controls (m : Machine) : Controls :=
  ⟨m.program, m.running, m.past, m.gate, m.panel, m.onPause, m.noteResume⟩

variable {m : Machine}

private theorem controls_attempt {α : Type} {result : Except Fault α} {next : α → Machine × Option Fault}
    (h : ∀ a, (next a).1.controls = m.controls) : (m.attempt result next).1.controls = m.controls := by
  cases result with
  | ok a => exact h a
  | error fault => rfl

private theorem controls_attemptMemory {α : Type} {result : Except MemoryFault α}
    {next : α → Machine × Option Fault} (h : ∀ a, (next a).1.controls = m.controls) :
    (m.attemptMemory result next).1.controls = m.controls := by
  cases result with
  | ok a => exact h a
  | error fault => rfl

private theorem controls_remember {next : Machine → Machine × Option Fault}
    (h : ∀ n : Machine, (next n).1.controls = n.controls) : (m.remember next).1.controls = m.controls :=
  controls_attemptMemory fun memory => h (m.withMemory (memory.pushPlace m.device.pos))

private theorem controls_jump (index : Option Nat) (count : Operand) (target : Int) :
    (m.jump index count target).1.controls = m.controls := by
  rcases m.jump_cases index count target with ⟨fault, he⟩ | ⟨visits, he⟩ | ⟨visits, he⟩ <;> rw [he] <;> rfl

/-- No instruction but a pause touches the controls, whether or not it fails. -/
theorem controls_carryOut {inst : Instruction} (h : inst ≠ .pause) (index : Option Nat) :
    (m.carryOut index inst).1.controls = m.controls := by
  cases inst with
  | pause => exact absurd rfl h
  | setup =>
    simp only [carryOut]
    split <;> rfl
  | center => exact controls_remember fun n => rfl
  | move x y time =>
    apply controls_remember
    intro n
    refine controls_attempt fun vx => controls_attempt fun vy => controls_attempt fun place => ?_
    exact controls_attemptMemory fun offset => rfl
  | moveRel x y time =>
    apply controls_remember
    intro n
    exact controls_attempt fun vx => controls_attempt fun vy => rfl
  | goBack =>
    apply controls_attemptMemory
    intro memory
    cases memory.popPlace? <;> rfl
  | setOffset | clearOffset | safeMode => exact controls_attemptMemory fun store => rfl
  | leftClick | rightClick | doubleClick =>
    apply controls_attemptMemory
    intro safe
    cases safe <;> rfl
  | wait time => exact controls_attempt fun t => rfl
  | print | finish | halt => rfl
  | popup text title refused => cases refused <;> rfl
  | jump count target label => exact controls_jump index count target
  | call count target label =>
    apply controls_attemptMemory
    intro memory
    dsimp only
    split
    · rfl
    · exact controls_jump index count target
  | ret =>
    apply controls_attemptMemory
    intro memory
    cases memory.popCall? with
    | none => rfl
    | some entry =>
      dsimp only
      split <;> rfl
  | printVar name =>
    apply controls_attemptMemory
    intro offset
    split
    · exact controls_attempt fun text => rfl
    · refine controls_attemptMemory fun memory => controls_attempt fun value => ?_
      exact controls_attempt fun text => rfl
  | setVar name value =>
    simp only [carryOut, setVar]
    split
    · rfl
    · exact controls_attempt fun v => controls_attemptMemory fun memory => rfl
  | varMath name left right code => exact controls_attempt fun v => controls_attemptMemory fun memory => rfl

end Machine

end PointerScript
