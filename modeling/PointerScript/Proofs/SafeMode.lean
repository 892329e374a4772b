import PointerScript.Proofs.ControlFlow

/-! What holding clicks back does to a run. The program that holds them back has one more initial
instruction, so that everything behind it stands one place later. It never clicks; and apart from that
it runs abreast of the program that clicks. -/

namespace PointerScript

namespace Instruction

/-- The instruction as it stands in a program with one more initial instruction. -/
def later : Instruction → Instruction
  | jump count target label => jump count (target + 1) label
  | call count target label => call count (target + 1) label
  | inst => inst

theorem later_stops (inst : Instruction) : inst.later.stops = inst.stops := by
  cases inst <;> rfl

end Instruction

private theorem find?_later (labels : Labels) (label : LabelName) :
    Labels.find? (labels.map fun p => (p.1, p.2 + 1)) label = (labels.find? label).map (· + 1) := by
  cases label with
  | unnamed => rfl
  | named name =>
    simp only [Labels.find?]
    induction labels with
    | nil => rfl
    | cons p rest ih =>
      rw [List.map_cons, List.lookup_cons, List.lookup_cons]
      split
      · rfl
      · exact ih

private theorem labels_later (items : List Built) :
    labelsOf (Standard.initial true) items =
      (labelsOf (Standard.initial false) items).map fun p => (p.1, p.2 + 1) :=
  placesFrom_succ 2 items

/-- The same labels have a place, with and without holding clicks back. -/
private theorem defines_iff (items : List Built) (safe : Bool) (inst : Instruction) :
    (labelsOf (Standard.initial safe) items).Defines inst ↔
      (labelsOf (Standard.initial false) items).Defines inst := by
  cases safe with
  | false => rfl
  | true => simp only [Labels.Defines, labels_later, find?_later, Option.isSome_map]

private theorem resolve_later {items : List Built} {inst : Instruction}
    (hd : (labelsOf (Standard.initial false) items).Defines inst) :
    (labelsOf (Standard.initial true) items).resolve inst =
      ((labelsOf (Standard.initial false) items).resolve inst).later := by
  unfold Labels.resolve
  cases hl : inst.label? with
  | none =>
    cases inst with
    | jump | call => simp [Instruction.label?] at hl
    | _ => rfl
  | some label =>
    obtain ⟨place, hp⟩ := Option.isSome_iff_exists.mp (hd label hl)
    have hq : Labels.find? (labelsOf (Standard.initial true) items) label = some (place + 1) := by
      rw [labels_later, find?_later, hp, Option.map_some]
    simp only [Option.bind_some, hp, hq]
    cases inst <;> simp [Instruction.withTarget, Instruction.later]

/-- Two programs of one source, the second holding clicks back. -/
structure Twins (normal held : Array Instruction) : Prop where
  normal_laid : Laid false normal
  held_laid : Laid true held
  size : held.size = normal.size + 1
  later : ∀ index, 2 ≤ index → held[index + 1]? = normal[index]?.map Instruction.later

/-- A source that compiles with one setting compiles with both. -/
theorem compile_twins {safe : Bool} {source : String} {program : Array Instruction}
    (h : (compile safe source).1 = .program program) :
    ∃ normal held, (compile false source).1 = .program normal ∧ (compile true source).1 = .program held ∧
      Twins normal held := by
  obtain ⟨items, hw, hd, _⟩ := compile_eq_program.mp h
  have hdefined : ∀ inst ∈ codeOf items, (labelsOf (Standard.initial false) items).Defines inst :=
    fun inst hi => (defines_iff items safe inst).mp (hd inst hi)
  have hcompile (safe : Bool) : (compile safe source).1 = .program (Standard.initial safe ++
      (codeOf items).map (labelsOf (Standard.initial safe) items).resolve).toArray :=
    compile_eq_program.mpr ⟨items, hw, fun inst hi => (defines_iff items safe inst).mpr (hdefined inst hi), rfl⟩
  refine ⟨_, _, hcompile false, hcompile true, laid_of_compile (hcompile false),
    laid_of_compile (hcompile true), ?_, ?_⟩
  · simp [Standard.initial]
  · intro index hi
    obtain ⟨k, rfl⟩ := Nat.exists_eq_add_of_le hi
    have hmap : (codeOf items).map (labelsOf (Standard.initial true) items).resolve =
        ((codeOf items).map (labelsOf (Standard.initial false) items).resolve).map Instruction.later := by
      rw [List.map_map]
      exact List.map_congr_left fun inst hi => resolve_later (hdefined inst hi)
    rw [List.getElem?_toArray, List.getElem?_toArray, hmap,
      List.getElem?_append_right (by simp [Standard.initial]), List.getElem?_append_right (by simp [Standard.initial]),
      List.getElem?_map]
    congr 2

namespace Machine

/-- The machine has added events to those before, none of them a click. -/
def Silent (before : Array Event) (m : Machine) : Prop :=
  ∃ new, m.device.events = before ++ new ∧ ∀ e ∈ new, e.isClick = false

theorem Silent.trans {before : Array Event} {m n : Machine} (hm : m.Silent before)
    (hn : n.Silent m.device.events) : n.Silent before := by
  obtain ⟨old, ho, hco⟩ := hm
  obtain ⟨new, hn, hcn⟩ := hn
  refine ⟨old ++ new, by rw [hn, ho, Array.append_assoc], fun e he => ?_⟩
  exact (Array.mem_append.mp he).elim (hco e) (hcn e)

theorem silent_of_device {m n : Machine} (h : n.device = m.device) : n.Silent m.device.events :=
  ⟨#[], by simp [h]⟩

/-- The machine has added no click and holds clicks back or not, as given. -/
def Muffled (before : Array Event) (safe : Bool) (m : Machine) : Prop :=
  m.Silent before ∧ ∃ memory, m.store = .ready memory ∧ memory.safe = safe

private theorem muffled_jump {m : Machine} {memory : Memory} (hs : m.store = .ready memory)
    (index : Option Nat) (count : Operand) (target : Int) :
    (m.jump index count target).1.Muffled m.device.events memory.safe := by
  rcases m.jump_cases index count target with ⟨fault, he⟩ | ⟨visits, he⟩ | ⟨visits, he⟩ <;> rw [he] <;>
    exact ⟨silent_of_device rfl, memory, hs, rfl⟩

/-- Once the memory is set up, an instruction other than those that are there for it leaves alone
whether clicks are held back, and while they are it adds none. -/
theorem carryOut_muffled {m : Machine} {memory : Memory} (hs : m.store = .ready memory) (index : Option Nat)
    {inst : Instruction} (hset : inst ≠ .setup) (hmode : ∀ on, inst ≠ .safeMode on)
    (hc : inst.isClick = true → memory.safe = true) :
    (m.carryOut index inst).1.Muffled m.device.events memory.safe := by
  have still {n : Machine} (hd : n.device = m.device) (hn : n.store = m.store) :
      n.Muffled m.device.events memory.safe :=
    ⟨silent_of_device hd, memory, hn.trans hs, rfl⟩
  have click (hclick : inst.isClick = true) (call : Device → Device × Option DeviceFault) :
      (m.click call).1.Muffled m.device.events memory.safe := by
    simp only [Machine.click, attemptMemory, hs, Store.safe, hc hclick, if_true]
    exact hc hclick ▸ still rfl rfl
  have plain (hp : inst.isPlain = true) (hclick : inst.isClick = false) :
      (m.carryOut index inst).1.Muffled m.device.events memory.safe := by
    obtain ⟨d, fault, hsuit, hd⟩ := carryOut_plain hp (m.scene memory) memory.safe
    rw [hd m memory index hs rfl fun _ => rfl]
    exact ⟨⟨d.events, rfl, hsuit.1 hclick⟩, _, rfl, rfl⟩
  cases inst with
  | setup => exact absurd rfl hset
  | safeMode on => exact absurd rfl (hmode on)
  | leftClick | rightClick | doubleClick => exact click rfl _
  | pause => exact ⟨m.keeps_pause.events, memory, m.keeps_pause.store.trans hs, rfl⟩
  | jump count target label => exact muffled_jump hs index count target
  | call count target label =>
    simp only [carryOut, call_eq hs]
    split
    · exact ⟨silent_of_device rfl, _, rfl, rfl⟩
    · exact @muffled_jump (m.withCalls memory (m.pc :: memory.calls)) _ rfl index count target
  | ret =>
    cases hcalls : memory.calls with
    | nil =>
      simp only [carryOut, ret_empty hs hcalls]
      exact still rfl rfl
    | cons last earlier =>
      simp only [carryOut, ret, attemptMemory, hs, Store.memory, Memory.popCall?, hcalls]
      split <;> exact ⟨silent_of_device rfl, _, rfl, rfl⟩
  | finish | halt => exact still rfl rfl
  | _ => exact plain rfl rfl

end Machine

/-- Between two turns of a program that holds clicks back: from the initial instructions on they are
held back, and there have been none so far. -/
structure Hushed (program : Array Instruction) (before : Array Event) (m : Machine) : Prop where
  contained : Contained true program m
  silent : m.Silent before
  safe : Standard.first true ≤ m.pc → ∀ memory, m.store = .ready memory → memory.safe = true

namespace Hushed

variable {program : Array Instruction} {before : Array Event} {m n : Machine}

theorem of_keeps (h : Hushed program before m) (hk : m.Keeps n) : Hushed program before n := by
  refine ⟨h.contained.of_keeps hk, h.silent.trans hk.events, ?_⟩
  rw [hk.pc, hk.store]
  exact h.safe

/-- The initial instructions add no click, and the last of them holds clicks back. -/
private theorem step_initial (hl : Laid true program) (h : Hushed program before m) {index : Nat}
    {inst : Instruction} (hlt : index < 3) (hpc : m.pc = index) (hi : program[index]? = some inst)
    {fault : Option Fault} (hc : m.carryOut (some index) inst = (n, fault)) :
    n.Silent m.device.events ∧
      (Standard.first true ≤ n.pc + 1 → ∀ memory, n.store = .ready memory → memory.safe = true) := by
  obtain rfl | rfl | rfl : index = 0 ∨ index = 1 ∨ index = 2 := by omega
  · obtain rfl : .setup = inst := by simpa [hi] using hl.setup.symm
    simp only [Machine.carryOut, h.contained.start hpc, Prod.mk.injEq] at hc
    obtain ⟨rfl, _⟩ := hc
    refine ⟨Machine.silent_of_device rfl, fun hlow => absurd hlow ?_⟩
    have hpc' : m.setUp.pc = 0 := hpc
    rw [hpc', Standard.first_eq]
    decide
  · obtain ⟨time, rfl⟩ : ∃ time, inst = .wait time := ⟨_, by simpa only [hi, Option.some.injEq] using hl.wait⟩
    obtain ⟨memory, hs⟩ := h.contained.ready (by omega)
    obtain ⟨d, _, hsuit, hd⟩ := @Machine.carryOut_plain (.wait time) rfl (m.scene memory) memory.safe
    rw [hd m memory _ hs rfl fun _ => rfl] at hc
    simp only [Prod.mk.injEq] at hc
    obtain ⟨rfl, _⟩ := hc
    refine ⟨⟨d.events, rfl, hsuit.1 rfl⟩, fun hlow => absurd hlow ?_⟩
    have hpc' : (m.after memory d).pc = 1 := hpc
    rw [hpc', Standard.first_eq]
    decide
  · obtain rfl : inst = .safeMode true := by simpa only [hi, Option.some.injEq] using hl.safeMode
    obtain ⟨memory, hs⟩ := h.contained.ready (by omega)
    simp only [Machine.carryOut, Machine.setSafe, hs, Store.setSafe, Machine.attemptMemory,
      Prod.mk.injEq] at hc
    obtain ⟨rfl, _⟩ := hc
    refine ⟨Machine.silent_of_device rfl, fun _ other ho => ?_⟩
    obtain rfl : _ = other := by simpa [Machine.say] using ho
    rfl

/-- Behind the initial instructions no instruction changes that clicks are held back. -/
private theorem step_behind (hl : Laid true program) (h : Hushed program before m) {index : Nat}
    {inst : Instruction} (hfirst : Standard.first true ≤ index) (hpc : m.pc = index)
    (hi : program[index]? = some inst) {fault : Option Fault} (hc : m.carryOut (some index) inst = (n, fault)) :
    n.Silent m.device.events ∧ ∀ memory, n.store = .ready memory → memory.safe = true := by
  have hfit := hl.body index inst hfirst hi
  obtain ⟨memory, hs⟩ := h.contained.ready (by have := Standard.two_le_first true; omega)
  have hheld := h.safe (by omega) memory hs
  have hset : inst ≠ .setup := by rintro rfl; exact hfit
  have hmode : ∀ on, inst ≠ .safeMode on := by rintro on rfl; exact hfit
  have hm := Machine.carryOut_muffled hs (some index) hset hmode fun _ => hheld
  rw [hc] at hm
  obtain ⟨hsilent, memory', hs', he⟩ := hm
  refine ⟨hsilent, fun other ho => ?_⟩
  rw [hs', Store.ready.injEq] at ho
  rw [← ho, he, hheld]

/-- An instruction of the program adds no click, and where the program goes on it keeps them back. -/
theorem step (hl : Laid true program) (h : Hushed program before m) {index : Nat} {inst : Instruction}
    (hpc : m.pc = index) (hi : program[index]? = some inst) {fault : Option Fault}
    (hc : m.carryOut (some index) inst = (n, fault)) :
    n.Silent before ∧ (fault = none → Hushed program before (Run.advanced n index inst)) := by
  have hnext : n.Silent m.device.events ∧
      (Standard.first true ≤ n.pc + 1 → ∀ memory, n.store = .ready memory → memory.safe = true) := by
    by_cases hfirst : Standard.first true ≤ index
    · obtain ⟨hs, hsafe⟩ := h.step_behind hl hfirst hpc hi hc
      exact ⟨hs, fun _ => hsafe⟩
    · exact h.step_initial hl (by rw [Standard.first_eq] at hfirst; simpa using hfirst) hpc hi hc
  refine ⟨h.silent.trans hnext.1, ?_⟩
  rintro rfl
  exact ⟨(h.contained.step hl hpc hi hc).1, h.silent.trans hnext.1, hnext.2⟩

end Hushed

/-- A program that holds clicks back never clicks, whatever the user does and whichever calls of the
device fail. -/
theorem execute_silent {program : Array Instruction} (hl : Laid true program) (m : Machine) (budget : Nat)
    (actions : List Action) :
    ((m.load program).execute budget actions).1.machine.Silent m.device.events := by
  have hopen : Hushed program m.device.events ((m.load program).opening actions).machine :=
    ⟨contained_opening true program m actions, Machine.silent_of_device rfl, by
      simp [Standard.first_eq, Machine.opening, Machine.start, Machine.say]⟩
  rw [hl.execute_eq]
  refine @Run.loop_carries (Hushed program m.device.events) (fun n => n.Silent m.device.events)
    (fun _ _ hk h => h.of_keeps hk) (fun _ _ hk h => h.trans hk.events) (fun _ h => h.silent) ?_ budget _ hopen
  intro g index inst n fault h hf hc
  obtain ⟨hpc, hi⟩ := Run.pc_of_fetch? h.contained.nonneg hf
  exact h.step hl hpc (h.contained.loaded ▸ hi) hc

/-- Two machines abreast: the second holds clicks back and stands one place further. -/
structure Abreast (normal held : Array Instruction) (before : Array Event) (m n : Machine) : Prop where
  loaded : m.program = normal ∧ n.program = held
  running : m.running = true ∧ n.running = true
  pc : n.pc = m.pc + 1
  visits : ∀ index, 2 ≤ index → n.visits[index + 1]? = m.visits[index]?
  gate : n.gate = m.gate
  hook : n.onPause = m.onPause ∧ n.noteResume = m.noteResume
  store : ∃ memory, m.store = .ready memory ∧ memory.safe = false ∧
    n.store = .ready { memory with calls := memory.calls.map (· + 1), safe := true }
  device : m.device.faults = [] ∧ ∃ new, m.device.events = before ++ new ∧
    n.device = { m.device with events := before ++ new.filter fun e => !e.isClick }

namespace Abreast

variable {normal held : Array Instruction} {before : Array Event} {m n : Machine}

/-- The gate, the panels and the logs may change. -/
theorem idle (h : Abreast normal held before m n) (gate : Option Bool) (panel panel' : Option Panel)
    (log log' : Log) :
    Abreast normal held before { m with gate := gate, panel := panel, log := log }
      { n with gate := gate, panel := panel', log := log' } :=
  ⟨h.loaded, h.running, h.pc, h.visits, rfl, h.hook, h.store, h.device⟩

theorem say (h : Abreast normal held before m n) (level level' : Level) (message message' : String) :
    Abreast normal held before (m.say level message) (n.say level' message') :=
  ⟨h.loaded, h.running, h.pc, h.visits, h.gate, h.hook, h.store, h.device⟩

/-- Both devices note an event that is no click. -/
theorem note (h : Abreast normal held before m n) {e : Event} (he : e.isClick = false) :
    Abreast normal held before { m with device := m.device.note e } { n with device := n.device.note e } := by
  obtain ⟨hf, new, hm, hn⟩ := h.device
  refine ⟨h.loaded, h.running, h.pc, h.visits, h.gate, h.hook, h.store, hf, new.push e, ?_, ?_⟩
  · simp [Device.note, hm]
  · simp [Device.note, hn, he]

theorem resume (h : Abreast normal held before m n) : Abreast normal held before m.resume n.resume := by
  unfold Machine.resume
  by_cases hg : m.gate = some false
  · have ho := h.idle (some true) m.panel n.panel m.log n.log
    rw [if_pos hg, if_pos (h.gate.trans hg)]
    by_cases hr : m.noteResume = true
    · simp only [if_pos hr, if_pos (h.hook.2.trans hr)]
      exact (@note _ _ _ _ _ ho .resumed rfl).say _ _ _ _
    · simp only [if_neg hr, if_neg (h.hook.2 ▸ hr)]
      exact ho.say _ _ _ _
  · rw [if_neg hg, if_neg (h.gate ▸ hg)]
    exact h

private theorem panel_hook {m : Machine} (h : m.onPause = .panel) :
    ∃ panel, m.runPauseHook = { m with panel := panel } := by
  simp only [Machine.runPauseHook, h]
  split
  · split
    · exact ⟨_, rfl⟩
    · exact ⟨m.panel, by rw [← h]⟩
  · exact ⟨m.panel, by rw [← h]⟩

private theorem hooked (h : Abreast normal held before m n) :
    Abreast normal held before m.runPauseHook n.runPauseHook := by
  cases ho : m.onPause with
  | nothing => simpa only [Machine.runPauseHook, h.hook.1, ho] using h
  | note => simpa only [Machine.runPauseHook, h.hook.1, ho] using @note _ _ _ _ _ h .paused rfl
  | resume => simpa only [Machine.runPauseHook, h.hook.1, ho] using h.resume
  | panel =>
    obtain ⟨panel, hm⟩ := panel_hook ho
    obtain ⟨panel', hn⟩ := panel_hook (h.hook.1.trans ho)
    rw [hm, hn]
    exact ⟨h.loaded, h.running, h.pc, h.visits, h.gate, h.hook, h.store, h.device⟩

theorem pause (h : Abreast normal held before m n) : Abreast normal held before m.pause n.pause := by
  unfold Machine.pause
  by_cases hg : m.gate = some true
  · rw [if_pos hg, if_pos (h.gate.trans hg)]
    exact (h.idle (some false) m.panel n.panel m.log n.log).hooked.say _ _ _ _
  · rw [if_neg hg, if_neg (h.gate ▸ hg)]
    exact h

/-- Both machines carry out an operation with the same fault and are abreast again. -/
def Agree (normal held : Array Instruction) (before : Array Event) (a b : Machine × Option Fault) : Prop :=
  a.2 = b.2 ∧ Abreast normal held before a.1 b.1

private theorem agree_plain (h : Abreast normal held before m n) {inst : Instruction} (hp : inst.isPlain = true)
    (hc : inst.isClick = false) (i j : Option Nat) :
    Agree normal held before (m.carryOut i inst) (n.carryOut j inst) := by
  obtain ⟨memory, hm, hsafe, hn⟩ := h.store
  obtain ⟨hf, new, he, hd⟩ := h.device
  obtain ⟨d, fault, hsuit, hrun⟩ := Machine.carryOut_plain hp (m.scene memory) false
  have hscene : n.scene { memory with calls := memory.calls.map (· + 1), safe := true } = m.scene memory := by
    simp only [Machine.scene, hd]
  rw [hrun m memory i hm rfl (by simp [hc]), hrun n _ j hn hscene (by simp [hc])]
  refine ⟨rfl, h.loaded, h.running, h.pc, h.visits, h.gate, h.hook, ⟨_, rfl, hsafe, rfl⟩, hsuit.2 hf,
    new ++ d.events, ?_, ?_⟩
  · simp [Machine.after, he]
  · have hkept : d.events.filter (fun e => !e.isClick) = d.events := by
      rw [Array.filter_eq_self]
      intro e hmem
      simp [hsuit.1 hc e hmem]
    simp [Machine.after, hd, hkept]

/-- Of a click that one machine makes the other does nothing. -/
private theorem agree_click (h : Abreast normal held before m n) {e : Event} (he : e.isClick = true)
    (call : DeviceCall) :
    Agree normal held before (m.click fun d => d.perform call fun d => d.note e)
      (n.click fun d => d.perform call fun d => d.note e) := by
  obtain ⟨memory, hm, hsafe, hn⟩ := h.store
  obtain ⟨hf, new, hev, hd⟩ := h.device
  have hclick : (m.click fun d => d.perform call fun d => d.note e) =
      ({ m with device := m.device.note e }, none) := by
    have hcount : m.device.countCall call = m.device := by
      simp only [Device.countCall, hf, List.map_nil]
      rw [← hf]
    have hnext : m.device.failsNext call = false := by simp [Device.failsNext, hf]
    simp [Machine.click, Machine.attemptMemory, hm, Store.safe, hsafe, Machine.onDevice, Device.perform, hnext,
      hcount]
  have hheld : (n.click fun d => d.perform call fun d => d.note e) = (n, none) := by
    simp [Machine.click, Machine.attemptMemory, hn, Store.safe]
  rw [hclick, hheld]
  refine ⟨rfl, h.loaded, h.running, h.pc, h.visits, h.gate, h.hook, ⟨memory, hm, hsafe, hn⟩, hf, new.push e, ?_, ?_⟩
  · simp [Device.note, hev]
  · simp [Device.note, hd, he]

private theorem agree_jump (h : Abreast normal held before m n) {index : Nat} (hi : 2 ≤ index) (count : Operand)
    (target : Int) :
    Agree normal held before (m.jump (some index) count target) (n.jump (some (index + 1)) count (target + 1)) := by
  obtain ⟨memory, hm, _, hn⟩ := h.store
  obtain ⟨_, _, _, hd⟩ := h.device
  obtain ⟨value, hv⟩ := Machine.seen_value count (m.scene memory)
  have hvm : m.value count = value := hv m memory hm rfl
  have hvn : n.value count = value := hv n _ hn (by simp only [Machine.scene, hd])
  have hvisits : n.visitsAt (some (index + 1)) = m.visitsAt (some index) := by
    simp only [Machine.visitsAt, Array.getD_eq_getD_getElem?, h.visits index hi]
  have set (k : Nat) : Abreast normal held before (m.setVisits (some index) k) (n.setVisits (some (index + 1)) k) := by
    refine ⟨h.loaded, h.running, h.pc, fun i hlow => ?_, h.gate, h.hook, h.store, h.device⟩
    have hsize : index + 1 < n.visits.size ↔ index < m.visits.size := by
      have := h.visits index hi
      grind
    simp only [Machine.setVisits, Array.getElem?_setIfInBounds, h.visits i hlow, Nat.add_right_cancel_iff, hsize]
  have goTo {m n : Machine} (h : Abreast normal held before m n) :
      Abreast normal held before (m.goTo target) (n.goTo (target + 1)) :=
    ⟨h.loaded, h.running, by simp only [Machine.goTo]; omega, h.visits, h.gate, h.hook, h.store, h.device⟩
  simp only [Machine.jump, hvm, hvn, hvisits]
  cases value with
  | error fault => exact ⟨rfl, h⟩
  | ok v =>
    simp only [Machine.attempt]
    split
    · exact ⟨rfl, goTo h⟩
    · split
      · exact ⟨rfl, set 0⟩
      · exact ⟨rfl, goTo (set _)⟩

/-- The open calls of both machines change alike. -/
private theorem withCalls (h : Abreast normal held before m n) {memory : Memory} (hm : m.store = .ready memory)
    (calls : List Int) {memory' : Memory}
    (hn : memory' = { memory with calls := memory.calls.map (· + 1), safe := true }) :
    Abreast normal held before (m.withCalls memory calls) (n.withCalls memory' (calls.map (· + 1))) := by
  obtain ⟨other, ho, hsafe, _⟩ := h.store
  obtain rfl : memory = other := by simpa [hm] using ho
  subst hn
  exact ⟨h.loaded, h.running, h.pc, h.visits, h.gate, h.hook, ⟨_, rfl, hsafe, rfl⟩, h.device⟩

private theorem agree_call (h : Abreast normal held before m n) {index : Nat} (hi : 2 ≤ index) (count : Operand)
    (target : Int) :
    Agree normal held before (m.call (some index) count target) (n.call (some (index + 1)) count (target + 1)) := by
  obtain ⟨memory, hm, _, hn⟩ := h.store
  have hw := h.withCalls hm (m.pc :: memory.calls) rfl
  rw [List.map_cons, ← h.pc] at hw
  rw [Machine.call_eq hm, Machine.call_eq hn, List.length_map]
  split
  · exact ⟨rfl, hw⟩
  · exact hw.agree_jump hi count target

private theorem agree_ret (h : Abreast normal held before m n) (hcalls : ∀ entry ∈ m.openCalls, 0 < entry) :
    Agree normal held before m.ret n.ret := by
  obtain ⟨memory, hm, _, hn⟩ := h.store
  rw [Machine.openCalls_ready hm] at hcalls
  cases hc : memory.calls with
  | nil =>
    rw [Machine.ret_empty hm hc, Machine.ret_empty hn (by simp [hc])]
    exact ⟨rfl, h.say _ _ _ _⟩
  | cons last earlier =>
    have hlast : 0 < last := hcalls last (by simp [hc])
    rw [Machine.ret_open hm hc (by omega), Machine.ret_open hn (by rw [hc, List.map_cons]) (by omega)]
    have hw := h.withCalls hm earlier rfl
    exact ⟨rfl, hw.loaded, hw.running, rfl, hw.visits, hw.gate, hw.hook, hw.store, hw.device⟩

/-- An instruction of the script keeps the machines abreast. -/
theorem agree (h : Abreast normal held before m n) {index first size : Nat} {inst : Instruction} (hi : 2 ≤ index)
    (hfit : inst.Fits first size) (hcalls : ∀ entry ∈ m.openCalls, 0 < entry) :
    Agree normal held before (m.carryOut (some index) inst) (n.carryOut (some (index + 1)) inst.later) := by
  cases inst with
  | setup | safeMode | popup | halt => exact absurd hfit id
  | leftClick => exact h.agree_click rfl .leftClick
  | rightClick => exact h.agree_click rfl .rightClick
  | doubleClick => exact h.agree_click rfl .doubleClick
  | pause => exact ⟨rfl, h.pause⟩
  | jump count target label => exact h.agree_jump hi count target
  | call count target label => exact h.agree_call hi count target
  | ret => exact h.agree_ret hcalls
  | finish => exact ⟨rfl, h⟩
  | _ => exact h.agree_plain rfl rfl _ _

theorem advance (h : Abreast normal held before m n) (index : Nat) (inst : Instruction) :
    Abreast normal held before (Run.advanced m index inst) (Run.advanced n (index + 1) inst.later) := by
  have hsaid := h.say .debug .debug ("Executed instruction " ++ inst.text (m.visitsAt (some index)))
    ("Executed instruction " ++ inst.later.text (n.visitsAt (some (index + 1))))
  exact ⟨hsaid.loaded, hsaid.running, congrArg (· + 1) hsaid.pc, hsaid.visits, hsaid.gate, hsaid.hook,
    hsaid.store, hsaid.device⟩

end Abreast

/-- Two runs without actions, abreast behind the initial instructions. -/
structure Paired (normal held : Array Instruction) (before : Array Event) (r s : Run) : Prop where
  abreast : Abreast normal held before r.machine s.machine
  pending : r.pending = [] ∧ s.pending = []
  contained : Contained false normal r.machine
  behind : 2 ≤ r.machine.pc

namespace Paired

variable {normal held : Array Instruction} {before : Array Event} {r s : Run}

private theorem announced (h : Abreast normal held before r.machine s.machine) :
    Abreast normal held before r.announce.machine s.announce.machine := by
  have hg : s.machine.isPaused = r.machine.isPaused := by rw [Machine.isPaused, h.gate, Machine.isPaused]
  unfold Run.announce
  by_cases hp : r.machine.isPaused = true
  · rw [if_pos hp, if_pos (hg.trans hp)]
    exact h.say _ _ _ _
  · rw [if_neg hp, if_neg (hg ▸ hp)]
    exact h

/-- A turn in which both carry out an instruction: both fail, or they are paired again. -/
private theorem turn_carried (ht : Twins normal held) (h : Paired normal held before r s)
    (hg : r.machine.isPaused = false) {index : Nat} (hpc : r.machine.pc = index) {inst : Instruction}
    (hi : normal[index]? = some inst) (hs : inst.stops = false) :
    r.turn.2 = s.turn.2 ∧ Abreast normal held before r.turn.1.machine s.turn.1.machine ∧
      (r.turn.2 = none → Paired normal held before r.turn.1 s.turn.1) := by
  have ha := h.abreast
  obtain ⟨hm, hn⟩ := ha.loaded
  have hlow : 2 ≤ index := by have := h.behind; omega
  have hg' : s.machine.isPaused = false := by rw [Machine.isPaused, ha.gate]; exact hg
  have hpc' : s.machine.pc = (index + 1 : Nat) := by rw [ha.pc, hpc]; rfl
  have hi' : held[index + 1]? = some inst.later := by rw [ht.later index hlow, hi, Option.map_some]
  have hcalls : ∀ entry ∈ r.machine.openCalls, 0 < entry := fun entry he =>
    Int.lt_of_lt_of_le (by decide) (h.contained.calls entry he).1
  obtain ⟨hfault, hnext⟩ := ha.agree hlow (ht.normal_laid.body index inst hlow hi) hcalls
  have hstep {n : Machine} := @h.contained.step _ _ _ n ht.normal_laid index inst hpc hi
  rw [Run.turn_carries ha.running.1 h.pending.1 hg hpc (hm ▸ hi) hs,
    Run.turn_carries ha.running.2 h.pending.2 hg' hpc' (hn ▸ hi') (inst.later_stops.trans hs)]
  rcases hc : r.machine.carryOut (some index) inst with ⟨m', fault⟩
  rcases hc' : s.machine.carryOut (some (index + 1)) inst.later with ⟨n', fault'⟩
  rw [hc, hc'] at hfault hnext
  obtain rfl : fault = fault' := hfault
  cases fault with
  | some fault => exact ⟨rfl, hnext.say _ _ _ _, by simp⟩
  | none =>
    have hadv := hnext.advance index inst
    obtain ⟨hcontained, _, hbehind⟩ := hstep hc
    exact ⟨rfl, hadv, fun _ => ⟨hadv, h.pending, hcontained, hbehind h.behind⟩⟩

/-- A turn of the one run is a turn of the other: both end alike or are paired again. -/
theorem turn (ht : Twins normal held) (h : Paired normal held before r s) :
    r.turn.2 = s.turn.2 ∧ Abreast normal held before r.turn.1.machine s.turn.1.machine ∧
      (r.turn.2 = none → Paired normal held before r.turn.1 s.turn.1) := by
  have ha := h.abreast
  obtain ⟨hm, hn⟩ := ha.loaded
  have hgates : s.machine.isPaused = r.machine.isPaused := by rw [Machine.isPaused, ha.gate, Machine.isPaused]
  cases hg : r.machine.isPaused with
  | true =>
    rw [Run.turn_shut ha.running.1 h.pending.1 hg, Run.turn_shut ha.running.2 h.pending.2 (hgates.trans hg)]
    exact ⟨rfl, announced ha, by simp⟩
  | false =>
    have hg' := hgates.trans hg
    obtain ⟨index, hpc⟩ := Int.eq_ofNat_of_zero_le h.contained.nonneg
    have hpc' : s.machine.pc = (index + 1 : Nat) := by rw [ha.pc, hpc]; rfl
    have hlow : 2 ≤ index := by have := h.behind; omega
    have hhigh : index ≤ normal.size := by have := h.contained.le_size; omega
    cases hi : normal[index]? with
    | none =>
      -- Both stand behind the last instruction.
      have hend : index = normal.size := Nat.le_antisymm hhigh (Array.getElem?_eq_none_iff.mp hi)
      rw [Run.turn_past ha.running.1 h.pending.1 hg (by rw [hm, hpc, hend]),
        Run.turn_past ha.running.2 h.pending.2 hg' (by rw [hn, ht.size, hpc', hend])]
      exact ⟨rfl, ha.say _ _ _ _, by simp⟩
    | some inst =>
      cases hs : inst.stops with
      | true =>
        have hi' : held[index + 1]? = some inst.later := by rw [ht.later index hlow, hi, Option.map_some]
        rw [Run.turn_stops ha.running.1 h.pending.1 hg hpc (hm ▸ hi) hs,
          Run.turn_stops ha.running.2 h.pending.2 hg' hpc' (hn ▸ hi') (inst.later_stops.trans hs)]
        exact ⟨rfl, (ha.say _ _ _ _).say _ _ _ _, by simp⟩
      | false => exact h.turn_carried ht hg hpc hi hs

/-- So runs with the same budget end alike. -/
theorem loop (ht : Twins normal held) (h : Paired normal held before r s) (budget : Nat) :
    (Run.loop budget r).2 = (Run.loop budget s).2 ∧
      Abreast normal held before (Run.loop budget r).1.machine (Run.loop budget s).1.machine := by
  induction budget generalizing r s with
  | zero =>
    obtain ⟨hr, hs⟩ := h.abreast.running
    rw [Run.loop_zero, Run.loop_zero, if_pos hr, if_pos hs]
    exact ⟨rfl, announced h.abreast⟩
  | succ budget ih =>
    obtain ⟨ho, ha, hnext⟩ := h.turn ht
    rw [Run.loop_succ, Run.loop_succ]
    rcases hr : r.turn with ⟨r', outcome⟩
    rcases hs : s.turn with ⟨s', outcome'⟩
    rw [hr, hs] at ho ha hnext
    obtain rfl : outcome = outcome' := ho
    cases outcome with
    | some outcome => exact ⟨rfl, ha⟩
    | none => exact ih (hnext rfl)

end Paired

/-- The machines are abreast when the initial instructions are behind them. -/
private theorem abreast_primed (normal held : Array Instruction) {m : Machine} (hf : m.device.faults = [])
    (hsize : held.size = normal.size + 1) :
    Abreast normal held m.device.events (m.primed false normal) (m.primed true held) := by
  refine ⟨⟨rfl, rfl⟩, ⟨rfl, rfl⟩, rfl, fun index _ => ?_, rfl, ⟨rfl, rfl⟩, ⟨{}, rfl, rfl, rfl⟩, hf,
    #[.sleep Standard.delay], ?_, ?_⟩
  · change (Array.replicate held.size 0)[index + 1]? = (Array.replicate normal.size 0)[index]?
    simp [Array.getElem?_replicate, hsize]
  · rw [Machine.primed_device, Device.note]
    exact Array.push_eq_append
  · rw [Machine.primed_device, Machine.primed_device]
    generalize Standard.delay = t
    simp [Device.note, Event.isClick]

/-- Without actions and faults the two programs run abreast, the second with one more step. -/
theorem execute_abreast {normal held : Array Instruction} (ht : Twins normal held) {m : Machine}
    (hf : m.device.faults = []) (budget : Nat) :
    ((m.load normal).execute (budget + 2) []).2 = ((m.load held).execute (budget + 2 + 1) []).2 ∧
      Abreast normal held m.device.events ((m.load normal).execute (budget + 2) []).1.machine
        ((m.load held).execute (budget + 2 + 1) []).1.machine := by
  obtain ⟨r, hp, hm, hcontained, hnormal⟩ := Machine.execute_primed ht.normal_laid hf
  obtain ⟨s, hp', hm', _, hheld⟩ := Machine.execute_primed ht.held_laid hf
  have hpair : Paired normal held m.device.events r s := by
    refine ⟨?_, ⟨hp, hp'⟩, hcontained, ?_⟩
    · rw [hm, hm']
      exact abreast_primed normal held hf ht.size
    · rw [hm]
      exact Int.le_refl _
  have hn : (m.load normal).execute (budget + 2) [] = Run.loop budget r := hnormal budget
  have hh : (m.load held).execute (budget + 2 + 1) [] = Run.loop budget s := hheld budget
  rw [hn, hh]
  exact hpair.loop ht budget

/-- Holding clicks back erases exactly the clicks of a script. With it there is never a click, whatever
the user does and whichever calls of the device fail. Without actions and faults the two runs end alike,
the one that holds clicks back having one more step: the pointer, the variables, the offset and the
history are the same, the events are the same but for the clicks, and the program counter and the open
calls stand one place further. -/
theorem safe_mode_erases_exactly_clicks {safe : Bool} {source : String} {program : Array Instruction}
    (h : (compile safe source).1 = .program program) :
    ∃ normal held, (compile false source).1 = .program normal ∧ (compile true source).1 = .program held ∧
      (∀ (m : Machine) (actions : List Action) (budget : Nat), ∃ new,
        ((m.load held).execute budget actions).1.machine.device.events = m.device.events ++ new ∧
          ∀ e ∈ new, e.isClick = false) ∧
      ∀ (m : Machine) (budget : Nat), m.device.faults = [] → 2 ≤ budget →
        let clicking := (m.load normal).execute budget []
        let muted := (m.load held).execute (budget + 1) []
        muted.2 = clicking.2 ∧
        muted.1.machine.device.pos = clicking.1.machine.device.pos ∧
        (∃ new, clicking.1.machine.device.events = m.device.events ++ new ∧
          muted.1.machine.device.events = m.device.events ++ new.filter fun e => !e.isClick) ∧
        muted.1.machine.pc = clicking.1.machine.pc + 1 ∧
        ∃ memory, clicking.1.machine.store = .ready memory ∧
          muted.1.machine.store = .ready { memory with calls := memory.calls.map (· + 1), safe := true } := by
  obtain ⟨normal, held, hn, hh, ht⟩ := compile_twins h
  refine ⟨normal, held, hn, hh, fun m actions budget => execute_silent ht.held_laid m budget actions, ?_⟩
  intro m budget hf hb
  obtain ⟨k, rfl⟩ := Nat.exists_eq_add_of_le' hb
  obtain ⟨ho, ha⟩ := execute_abreast ht hf k
  obtain ⟨_, new, he, hd⟩ := ha.device
  obtain ⟨memory, hs, _, hs'⟩ := ha.store
  refine ⟨ho.symm, ?_, ⟨new, he, ?_⟩, ha.pc, memory, hs, hs'⟩
  · rw [hd]
  · rw [hd]

/-- A loop that clicks, in a called function, cut off within a call. -/
theorem clicking_loop_erased :
    let source := "call f\nend\nlabel f\nlabel a\nclick\nmove 3 4\njump a 2\ndoubleclick\nreturn"
    let m : Machine := {}
    (∃ program, (compile false source).1 = .program program) ∧ m.device.faults = [] ∧ 2 ≤ 9 ∧
    ∃ normal held, (compile false source).1 = .program normal ∧ (compile true source).1 = .program held ∧
      ((m.load held).execute 10 []).2 = ((m.load normal).execute 9 []).2 ∧
      ∃ new, ((m.load normal).execute 9 []).1.machine.device.events = m.device.events ++ new ∧
        ((m.load held).execute 10 []).1.machine.device.events =
          m.device.events ++ new.filter fun e => !e.isClick := by
  intro source m
  have hc : ∃ program, (compile false source).1 = .program program := by decide +kernel
  obtain ⟨program, hp⟩ := hc
  obtain ⟨normal, held, hn, hh, _, hrun⟩ := safe_mode_erases_exactly_clicks hp
  obtain ⟨ho, _, he, _⟩ := hrun m 9 rfl (by decide)
  exact ⟨⟨program, hp⟩, rfl, by decide, normal, held, hn, hh, ho, he⟩

end PointerScript
