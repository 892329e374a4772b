import PointerScript.Proofs.ControlFlow

/-! Executing a program again. A run does not look at what the machine did before: the events and messages of earlier
runs only stand before its own, and the memory of the last run is out of reach once the program has set up. What does
outlive a run are the counters of the jumps. So a run goes as on a fresh machine if it finds the counters at zero, and
otherwise as on one that has these counters. -/

namespace PointerScript

/-- What a machine has behind it: the memory of the run before, and the events and messages so far. -/
structure Bygones where
  past : Option Memory
  events : Array Event
  log : Log

namespace Device

def behind (old : Array Event) (d : Device) : Device :=
  { d with events := old ++ d.events }

theorem note_behind (old : Array Event) (d : Device) (e : Event) : (d.behind old).note e = (d.note e).behind old := by
  simp [note, behind]

/-- Calls of the device do not look at the events so far. -/
theorem Local.behind {clicks : Bool} {call : Device → Device × Option DeviceFault} (h : Local clicks call)
    (old : Array Event) (d : Device) : call (d.behind old) = Prod.map (Device.behind old) id (call d) := by
  obtain ⟨pos, faults, events, fault, _, hd⟩ := h d.pos d.screen d.faults
  rw [hd d rfl rfl rfl, hd (d.behind old) rfl rfl rfl]
  simp [Device.behind]

end Device

namespace Machine

/-- The machine with bygones. -/
def behind (old : Bygones) (m : Machine) : Machine :=
  { m with past := old.past, device := m.device.behind old.events, log := old.log ++ m.log }

section

variable (old : Bygones) (m : Machine)

theorem say_behind (level : Level) (message : String) :
    (m.behind old).say level message = (m.say level message).behind old := by
  simp [say, behind]

theorem resume_behind : (m.behind old).resume = m.resume.behind old := by
  unfold resume
  by_cases hg : m.gate = some false
  · rw [if_pos hg, if_pos (show (m.behind old).gate = some false from hg), ← say_behind]
    cases hn : m.noteResume <;> simp [behind, hn, Device.note_behind]
  · rw [if_neg hg, if_neg (show ¬ (m.behind old).gate = some false from hg)]

private theorem hook_behind : (m.behind old).runPauseHook = m.runPauseHook.behind old := by
  unfold runPauseHook
  cases hh : m.onPause with
  | nothing => simp [behind, hh]
  | note => simp [behind, hh, Device.note_behind]
  | resume => simp only [show (m.behind old).onPause = .resume from hh, resume_behind]
  | panel =>
    simp only [show (m.behind old).onPause = .panel from hh, show (m.behind old).panel = m.panel from rfl]
    cases m.panel with
    | none => rfl
    | some p => cases hv : p.pauseVisible <;> simp [hv, behind]

theorem pause_behind : (m.behind old).pause = m.pause.behind old := by
  unfold pause
  by_cases hg : m.gate = some true
  · rw [if_pos hg, if_pos (show (m.behind old).gate = some true from hg), ← say_behind, ← hook_behind]
    rfl
  · rw [if_neg hg, if_neg (show ¬ (m.behind old).gate = some true from hg)]

private theorem quit_behind (warning : String) :
    (m.behind old).quit warning = Prod.map (behind old) id (m.quit warning) := by
  unfold quit Device.sleepTenths
  generalize Number.float (Decimal.nearest false ⟨2, -1⟩) = t
  have hsleep : (m.device.behind old.events).sleep t = _ := (Device.local_sleep t).behind old.events m.device
  simp only [show (m.behind old).device = m.device.behind old.events from rfl, hsleep]
  rcases m.device.sleep t with ⟨device, _ | fault⟩ <;> simp [behind]

private theorem press_behind (p : Panel) (button : Button) :
    (m.behind old).press p button = Prod.map (behind old) id (m.press p button) := by
  cases button with
  | pause => simp only [press, Prod.map, ← pause_behind]; rfl
  | play => simp only [press, Prod.map, ← resume_behind]; rfl
  | stop =>
    simp only [press]
    exact quit_behind old m _

private theorem answerKey_behind (p : Panel) (key : Key) :
    (m.behind old).answerKey p key = Prod.map (behind old) id (m.answerKey p key) := by
  unfold answerKey
  dsimp only
  split
  · exact press_behind old { m with panel := some _ } _ _
  · rfl

private theorem hearKey_behind (p : Panel) (key : Key) :
    (m.behind old).hearKey p key = Prod.map (behind old) id (m.hearKey p key) := by
  unfold hearKey
  split
  · split
    · rw [answerKey_behind]
      exact quit_behind old _ _
    · exact quit_behind old m _
  · exact answerKey_behind old m p key

/-- What the user does has nothing to do with bygones. -/
theorem act_behind (a : Act) : (m.behind old).act a = Prod.map (behind old) id (m.act a) := by
  have hpanel : (m.behind old).panel = m.panel := rfl
  cases a with
  | resume => simp only [act, Prod.map, resume_behind]; rfl
  | pause => simp only [act, Prod.map, pause_behind]; rfl
  | stop => rfl
  | key key =>
    simp only [act, hpanel]
    cases m.panel with
    | none => rfl
    | some p => exact hearKey_behind old m p key
  | click button =>
    simp only [act, hpanel]
    cases m.panel with
    | none => rfl
    | some p => exact press_behind old m p button
  | popup text title =>
    simp only [act, hpanel]
    cases m.panel <;> rfl

end

section

variable (old : Bygones) {m : Machine} {memory : Memory} (hs : m.store = .ready memory)
include hs

theorem value_behind (o : Operand) : (m.behind old).value o = m.value o := by
  cases o with
  | literal v => rfl
  | named name => simp only [value, scope, hs, show (m.behind old).store = .ready memory from hs]; rfl

private theorem jump_behind (index : Option Nat) (count : Operand) (target : Int) :
    (m.behind old).jump index count target = Prod.map (behind old) id (m.jump index count target) := by
  have hset (n : Nat) : (m.behind old).setVisits index n = (m.setVisits index n).behind old := by
    cases index <;> rfl
  have hat : (m.behind old).visitsAt index = m.visitsAt index := by cases index <;> rfl
  unfold jump
  rw [value_behind old hs]
  cases m.value count with
  | error fault => rfl
  | ok n =>
    simp only [attempt, hat, hset]
    split
    · rfl
    · split <;> rfl

private theorem call_behind (index : Option Nat) (count : Operand) (target : Int) :
    (m.behind old).call index count target = Prod.map (behind old) id (m.call index count target) := by
  rw [call_eq hs, call_eq (show (m.behind old).store = .ready memory from hs)]
  split
  · rfl
  · have hopen : (m.withCalls memory (m.pc :: memory.calls)).store =
        .ready { memory with calls := m.pc :: memory.calls } := rfl
    exact jump_behind old hopen index count target

private theorem ret_behind : (m.behind old).ret = Prod.map (behind old) id m.ret := by
  simp only [ret, attemptMemory, hs, show (m.behind old).store = .ready memory from hs, Store.memory]
  cases memory.popCall? with
  | none => simp only [say_behind]; rfl
  | some entry =>
    dsimp only
    split <;> rfl

/-- No instruction of a program that has set up looks at bygones. -/
theorem carryOut_behind (index : Option Nat) (inst : Instruction) :
    (m.behind old).carryOut index inst = Prod.map (behind old) id (m.carryOut index inst) := by
  have hs' : (m.behind old).store = .ready memory := hs
  by_cases hp : inst.isPlain = true
  · obtain ⟨d, fault, _, hd⟩ := carryOut_plain hp (m.scene memory) memory.safe
    rw [hd m memory index hs rfl fun _ => rfl, hd (m.behind old) memory index hs' rfl fun _ => rfl]
    simp [after, behind, Device.behind]
  · cases inst with
    | setup => simp only [carryOut, hs, hs']; rfl
    | pause => simp only [carryOut, pause_behind]; rfl
    | safeMode on => simp only [carryOut, setSafe, attemptMemory, hs, hs', Store.setSafe]; simp [say, behind]
    | jump count target label => exact jump_behind old hs index count target
    | call count target label => exact call_behind old hs index count target
    | ret => exact ret_behind old hs
    | finish | halt => rfl
    | _ => exact absurd rfl hp

end

end Machine

namespace Run

def behind (old : Bygones) (r : Run) : Run :=
  { r with machine := r.machine.behind old }

variable (old : Bygones)

theorem actDue_behind (steps : Nat) (m : Machine) (actions : List Action) :
    actDue steps (m.behind old) actions = Prod.map (Machine.behind old) id (actDue steps m actions) := by
  induction actions generalizing m with
  | nil => rfl
  | cons action rest ih =>
    simp only [actDue, Machine.act_behind]
    cases action.step with
    | none => rfl
    | some step =>
      dsimp only
      split
      · rcases m.act action.act with ⟨n, _ | _ | fault⟩
        · exact ih n
        · rfl
        · rfl
      · rfl

theorem actWhileShut_behind (m : Machine) (actions : List Action) :
    actWhileShut (m.behind old) actions = Prod.map (Machine.behind old) id (actWhileShut m actions) := by
  induction actions generalizing m with
  | nil => rfl
  | cons action rest ih =>
    simp only [actWhileShut, Machine.act_behind, show (m.behind old).isPaused = m.isPaused from rfl]
    split
    · rcases m.act action.act with ⟨n, _ | _ | fault⟩
      · exact ih n
      · rfl
      · rfl
    · rfl

theorem say_behind (r : Run) (level : Level) (message : String) :
    (r.behind old).say level message = (r.say level message).behind old := by
  simp only [say, behind, Machine.say_behind]

theorem announce_behind (r : Run) : (r.behind old).announce = r.announce.behind old := by
  unfold announce
  by_cases hp : r.machine.isPaused = true
  · rw [if_pos hp, if_pos (show (r.behind old).machine.isPaused = true from hp), say_behind]
  · rw [if_neg hp, if_neg (show ¬ (r.behind old).machine.isPaused = true from hp)]

theorem passGate_behind (r : Run) : (r.behind old).passGate = Prod.map (behind old) id r.passGate := by
  have hdue := actDue_behind old (r.steps + 1) r.machine r.pending
  rcases hd : actDue (r.steps + 1) r.machine r.pending with ⟨m, waiting, reaction⟩
  have hshut := actWhileShut_behind old m waiting
  rcases hw : actWhileShut m waiting with ⟨n, later, reaction', shut⟩
  rw [hd] at hdue
  rw [hw] at hshut
  simp only [passGate, behind, hd, hw, hdue, Prod.map_apply, id, hshut]
  cases reaction.outcome? with
  | some outcome => rfl
  | none =>
    cases reaction'.outcome? with
    | some outcome => rfl
    | none => cases shut <;> rfl

theorem advanced_behind (m : Machine) (index : Nat) (inst : Instruction) :
    advanced (m.behind old) index inst = (advanced m index inst).behind old := by
  rw [advanced, advanced, Machine.say_behind]
  rfl

theorem failed_behind (m : Machine) (index : Nat) (inst : Instruction) (fault : Fault) :
    failed (m.behind old) index inst fault = (failed m index inst fault).behind old := by
  rw [failed, failed, Machine.say_behind]
  rfl

theorem finish_behind (r : Run) : (r.behind old).finish = Prod.map (behind old) id r.finish := by
  rw [finish, finish, say_behind]
  rfl

end Run

variable {safe : Bool} {program : Array Instruction}

/-- What a contained machine meets: it sets up at first, and then it has a memory. -/
theorem Contained.met {m : Machine} {index : Nat} {inst : Instruction} (hl : Laid safe program)
    (h : Contained safe program m) (hpc : m.pc = index) (hi : program[index]? = some inst) :
    (inst = .setup ∧ m.store = .loose none none) ∨ ∃ memory, m.store = .ready memory := by
  by_cases h0 : index = 0
  · rw [h0, hl.setup] at hi
    exact .inl ⟨(Option.some.inj hi).symm, h.start (by rw [hpc, h0]; rfl)⟩
  · exact .inr (h.ready (by omega))

namespace Run

variable (old : Bygones)

theorem step_behind {g : Run} (hl : Laid safe program) (h : Contained safe program g.machine) :
    (g.behind old).step = Prod.map (behind old) id g.step := by
  rw [step_eq, step_eq, show (g.behind old).fetch? = g.fetch? from rfl]
  cases hf : g.fetch? with
  | none =>
    simp only [finish_behind, show (g.behind old).machine.pc = g.machine.pc from rfl,
      show (g.behind old).machine.program = g.machine.program from rfl]
    split <;> rfl
  | some fetched =>
    obtain ⟨index, inst⟩ := fetched
    have hcarry : (g.machine.behind old).carryOut (some index) inst =
        Prod.map (Machine.behind old) id (g.machine.carryOut (some index) inst) := by
      obtain ⟨hpc, hi⟩ := pc_of_fetch? h.nonneg hf
      rcases h.met hl hpc (h.loaded ▸ hi) with ⟨rfl, hs⟩ | ⟨memory, hs⟩
      · simp only [Machine.carryOut, hs, show (g.machine.behind old).store = .loose none none from hs]
        rfl
      · exact Machine.carryOut_behind old hs (some index) inst
    dsimp only
    cases hstop : inst.stops with
    | true => rw [stepAt_stops _ _ hstop, stepAt_stops _ _ hstop, say_behind, finish_behind]
    | false =>
      rw [stepAt_eq _ _ hstop, stepAt_eq _ _ hstop, show (g.behind old).machine = g.machine.behind old from rfl, hcarry]
      rcases g.machine.carryOut (some index) inst with ⟨m, _ | fault⟩
      · simp only [Prod.map_apply, advanced_behind, id]
        rfl
      · simp only [Prod.map_apply, failed_behind, id]
        rfl

theorem turn_behind {r : Run} (hl : Laid safe program) (h : Contained safe program r.machine) :
    (r.behind old).turn = Prod.map (behind old) id r.turn := by
  by_cases hr : r.machine.running = true
  · have hgate := passGate_behind old r.announce
    rw [← announce_behind] at hgate
    have hkeeps := r.keeps_announce.trans r.announce.keeps_passGate
    rcases hg : r.announce.passGate with ⟨g, _ | outcome⟩ <;> rw [hg] at hgate hkeeps
    · rw [turn_passed hr hg, turn_passed (show (r.behind old).machine.running = true from hr) hgate]
      exact step_behind old hl (h.of_keeps hkeeps)
    · rw [turn_held hr hg, turn_held (show (r.behind old).machine.running = true from hr) hgate]
      rfl
  · rw [turn_stopped hr, turn_stopped (show ¬ (r.behind old).machine.running = true from hr), say_behind]
    rfl

/-- A run with bygones goes as the run without them. -/
theorem loop_behind (hl : Laid safe program) (budget : Nat) {r : Run} (h : Contained safe program r.machine) :
    loop budget (r.behind old) = Prod.map (behind old) id (loop budget r) := by
  induction budget generalizing r with
  | zero =>
    rw [loop_zero, loop_zero, announce_behind, say_behind,
      show (r.behind old).machine.running = r.machine.running from rfl]
    split <;> rfl
  | succ budget ih =>
    rw [loop_succ, loop_succ, turn_behind old hl h]
    rcases ht : r.turn with ⟨r', _ | outcome⟩
    · obtain ⟨index, inst, t⟩ := turn_eq_none ht
      exact ih (t.contained hl h).2.2.1
    · rfl

end Run

namespace Instruction

/-- Whether an instruction never counts its visits. Only a jump or a call counts them, if its count is positive or a
variable, which may become so. -/
def neverCounts : Instruction → Bool
  | jump (.literal count) _ _ | call (.literal count) _ _ => count.le (.int 0)
  | jump (.named _) _ _ | call (.named _) _ _ => false
  | _ => true

end Instruction

namespace Machine

/-- A count that is not positive makes a jump go to its target always. -/
theorem jump_uncounted (m : Machine) {count : Number} (h : count.le (.int 0) = true) (index : Option Nat)
    (target : Int) : m.jump index (.literal count) target = (m.goTo target, none) := by
  simp only [jump, value, attempt, h, if_true]

/-- The counters change by counted jumps alone. -/
theorem visits_carryOut {m : Machine} {memory : Memory} (hs : m.store = .ready memory) {inst : Instruction}
    (h : inst.neverCounts = true) (index : Option Nat) : (m.carryOut index inst).1.visits = m.visits := by
  by_cases hp : inst.isPlain = true
  · obtain ⟨d, fault, _, hd⟩ := carryOut_plain hp (m.scene memory) memory.safe
    rw [hd m memory index hs rfl fun _ => rfl]
    rfl
  · cases inst with
    | setup => simp only [carryOut, hs]; rfl
    | pause => exact m.keeps_pause.visits
    | safeMode on => simp only [carryOut, setSafe, attemptMemory, hs, Store.setSafe]; rfl
    | jump count target label =>
      cases count with
      | literal v => rw [carryOut, jump_uncounted m h]; rfl
      | named name => cases h
    | call count target label =>
      cases count with
      | literal v =>
        rw [carryOut, call_eq hs]
        split
        · rfl
        · rw [jump_uncounted _ h]
          rfl
      | named name => cases h
    | ret =>
      simp only [carryOut, ret, attemptMemory, hs, Store.memory]
      cases memory.popCall? with
      | none => rfl
      | some entry =>
        dsimp only
        split <;> rfl
    | finish | halt => rfl
    | _ => exact absurd rfl hp

end Machine

/-- An instruction of a compiled program that never counts leaves the counters as they are. -/
theorem Contained.visits_carryOut {m : Machine} {index : Nat} {inst : Instruction} (hl : Laid safe program)
    (h : Contained safe program m) (hpc : m.pc = index) (hi : program[index]? = some inst)
    (hn : inst.neverCounts = true) : (m.carryOut (some index) inst).1.visits = m.visits := by
  rcases h.met hl hpc hi with ⟨rfl, hs⟩ | ⟨memory, hs⟩
  · simp only [Machine.carryOut, hs]
    rfl
  · exact Machine.visits_carryOut hs hn (some index)

namespace Run

/-- However a run ends, the program is the one that it started with. -/
theorem program_loop (budget : Nat) (r : Run) : (loop budget r).1.machine.program = r.machine.program := by
  have hkeeps (m n : Machine) (hk : m.Keeps n) (hm : m.program = r.machine.program) :
      n.program = r.machine.program := hk.program.trans hm
  refine @loop_carries (fun m => m.program = r.machine.program) (fun m => m.program = r.machine.program)
    hkeeps hkeeps (fun _ => id) ?_ budget r rfl
  intro g index inst n fault hg _ hc
  have hn := g.machine.program_carryOut (some index) inst
  rw [hc] at hn
  exact ⟨hn.trans hg, fun _ => hn.trans hg⟩

/-- However a run ends, the counters stand where they stood if no jump counts. -/
theorem visits_loop (hl : Laid safe program) (budget : Nat) {r : Run} (h : Contained safe program r.machine)
    (hn : ∀ inst ∈ program, inst.neverCounts = true) : (loop budget r).1.machine.visits = r.machine.visits := by
  refine @loop_carries (fun m => Contained safe program m ∧ m.visits = r.machine.visits)
    (fun m => m.visits = r.machine.visits) ?_ (fun m n hk hm => hk.visits.trans hm) (fun m hm => hm.2) ?_ budget r
    ⟨h, rfl⟩
  · intro m n hk hm
    exact ⟨hm.1.of_keeps hk, hk.visits.trans hm.2⟩
  · intro g index inst n fault hg hf hc
    obtain ⟨hpc, hi⟩ := pc_of_fetch? hg.1.nonneg hf
    rw [hg.1.loaded] at hi
    have hvisits := hg.1.visits_carryOut hl hpc hi (hn inst (Array.mem_of_getElem? hi))
    rw [hc] at hvisits
    refine ⟨hvisits.trans hg.2, ?_⟩
    rintro rfl
    exact ⟨(hg.1.step hl hpc hi hc).1, hvisits.trans hg.2⟩

theorem loop_leaves (hl : Laid safe program) (budget : Nat) {r : Run} (h : Contained safe program r.machine) :
    (loop budget r).1.machine.program = program ∧
      ((∀ inst ∈ program, inst.neverCounts = true) → (loop budget r).1.machine.visits = r.machine.visits) :=
  ⟨(program_loop budget r).trans h.loaded, visits_loop hl budget h⟩

end Run

namespace Machine

/-- A machine on which nothing has been run, with the hooks and the panel of a machine and with a device. -/
def renewed (m : Machine) (device : Device) : Machine :=
  { device := { device with events := #[] }, onPause := m.onPause, noteResume := m.noteResume, panel := m.panel }

/-- The machine with its device put into another state; the events so far stay. -/
def placed (m : Machine) (device : Device) : Machine :=
  { m with device := { device with events := m.device.events } }

def withCounters (m : Machine) (visits : Array Nat) : Machine :=
  { m with visits := visits }

def bygones (m : Machine) : Bygones :=
  ⟨m.scope, m.device.events, m.log⟩

/-- A machine starts as a fresh one with its counters, behind all that it has behind it. -/
theorem start_placed {m : Machine} (h : m.program = program) (device : Device) :
    (m.placed device).start = ((((m.renewed device).load program).withCounters m.visits).start).behind m.bygones := by
  subst h
  simp [start, placed, renewed, load, withCounters, behind, Device.behind, bygones, say, scope]

end Machine

/-- A program that has been executed is executed again. Whatever the first execution came to, the second one goes just
as that of a fresh machine which has the counters that the first one left: it ends alike, with the same steps, trace,
memory and counters, and its events and messages are the same behind those of before. So it goes as on a fresh machine
if the counters were left at zero, and they are if the program has no counted jump. -/
theorem execution_repeats_up_to_counters {source : String} (h : (compile safe source).1 = .program program)
    (m : Machine) (budget : Nat) (actions : List Action) (device : Device) :
    let left := ((m.load program).execute budget actions).1.machine
    let fresh := (left.renewed device).load program
    (∀ budget' actions', (left.placed device).execute budget' actions' =
      Prod.map (Run.behind left.bygones) id ((fresh.withCounters left.visits).execute budget' actions')) ∧
    (left.visits = fresh.visits → ∀ budget' actions', (left.placed device).execute budget' actions' =
      Prod.map (Run.behind left.bygones) id (fresh.execute budget' actions')) ∧
    ((∀ inst ∈ program, inst.neverCounts = true) → left.visits = fresh.visits) := by
  intro left fresh
  have hl := laid_of_compile h
  have hsize : 0 < program.size :=
    Nat.lt_of_lt_of_le (Nat.lt_of_lt_of_le Nat.zero_lt_two (Standard.two_le_first safe)) hl.size
  obtain ⟨hprogram, hvisits⟩ : left.program = program ∧
      ((∀ inst ∈ program, inst.neverCounts = true) → left.visits = (m.load program).visits) := by
    have hleaves := Run.loop_leaves hl budget (contained_opening safe program m actions)
    rw [← hl.execute_eq] at hleaves
    exact hleaves
  have hrun : ∀ budget' actions', (left.placed device).execute budget' actions' =
      Prod.map (Run.behind left.bygones) id ((fresh.withCounters left.visits).execute budget' actions') := by
    intro budget' actions'
    have hfresh : (fresh.withCounters left.visits).program = program := rfl
    have hplaced : (left.placed device).program = program := hprogram
    have hopening : (left.placed device).opening actions' =
        ((fresh.withCounters left.visits).opening actions').behind left.bygones := by
      rw [Machine.opening, Machine.start_placed hprogram device]
      rfl
    rw [Machine.execute_eq (hplaced ▸ hsize), Machine.execute_eq (hfresh ▸ hsize), hopening,
      Run.loop_behind left.bygones hl budget' (contained_start safe hfresh actions')]
  refine ⟨hrun, ?_, hvisits⟩
  intro hzero budget' actions'
  rw [hrun budget' actions', hzero]
  rfl

/-- An endless loop whose second click fails is executed again from another place, where its first click fails. -/
theorem endless_loop_repeats :
    let body : List Instruction := [.leftClick, .print "again", .jump Operand.absent 2 (.named "a")]
    let program := (Standard.initial false ++ body).toArray
    let first : Machine := { device := { faults := [(.leftClick, 2)] } }
    let left := ((first.load program).execute 30 [⟨.stop, some 20⟩]).1.machine
    let device : Device := { pos := ⟨5, 6⟩, faults := [(.leftClick, 1)] }
    (compile false "label a\nclick\nprint again\njump a").1 = .program program ∧
    (∀ inst ∈ program, inst.neverCounts = true) ∧ left.device.events.size = 2 ∧
    (left.placed device).execute 30 [] =
      Prod.map (Run.behind left.bygones) id (((left.renewed device).load program).execute 30 []) := by
  intro body program first left device
  have hc : (compile false "label a\nclick\nprint again\njump a").1 = .program program := by decide +kernel
  have hn : ∀ inst ∈ program, inst.neverCounts = true := by decide +kernel
  obtain ⟨_, hsame, hzero⟩ := execution_repeats_up_to_counters hc first 30 [⟨.stop, some 20⟩] device
  exact ⟨hc, hn, by decide +kernel, hsame (hzero hn) 30 []⟩

/-- A script that jumps over its end to a click does so in its first execution only: the second one finds the jump
counted once and falls through. -/
theorem counted_jump_is_not_repeated :
    let body : List Instruction := [.jump (.literal (.float (Binary64.ofInt 2))) 4 (.named "a"), .finish, .leftClick]
    let program := (Standard.initial false ++ body).toArray
    let pause := Event.sleep (.float (Decimal.nearest false ⟨5, -1⟩))
    let once := (({} : Machine).load program).execute 20 []
    let twice := once.1.machine.execute 20 []
    (compile false "jump a 2\nend\nlabel a\nclick").1 = .program program ∧
    once.2 = .returned ∧ once.1.machine.device.events = #[pause, .leftClick] ∧
    twice.2 = .returned ∧ twice.1.machine.device.events = #[pause, .leftClick, pause] := by
  decide +kernel

end PointerScript
