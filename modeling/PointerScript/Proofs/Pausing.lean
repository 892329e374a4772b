import PointerScript.Proofs.ControlFlow

/-! Pausing does not change what a script does. It reaches the gate, the panel, the log and what is noted
about it, and none of these has a say in what instructions do; so two runs that are paused and resumed at
different steps stay alike, as long as neither is left waiting. -/

namespace PointerScript

namespace Act

/-- Whether an act does nothing but pause or resume. -/
def isPausing : Act → Bool
  | pause | resume => true
  | _ => false

end Act

namespace Event

/-- Whether an event only tells that execution was paused or resumed. -/
def isGateNote : Event → Bool
  | paused | resumed => true
  | _ => false

end Event

namespace Machine

/-- Two machines that differ in their gates, their panels and their logs alone, and in such events as are not
looked at. Where pausing and resuming are noted, these notes are not looked at. -/
structure Alike (seen : Event → Bool) (m n : Machine) : Prop where
  program : n.program = m.program
  visits : n.visits = m.visits
  pc : n.pc = m.pc
  running : n.running = m.running
  store : n.store = m.store
  past : n.past = m.past
  hook : n.onPause = m.onPause
  notes : n.noteResume = m.noteResume
  pos : n.device.pos = m.device.pos
  screen : n.device.screen = m.device.screen
  faults : n.device.faults = m.device.faults
  events : n.device.events.filter seen = m.device.events.filter seen
  unseen : (m.onPause = .note → seen .paused = false) ∧ (m.noteResume = true → seen .resumed = false)

variable {seen : Event → Bool} {m n k : Machine}

namespace Alike

theorem of_unseen (h : (m.onPause = .note → seen .paused = false) ∧ (m.noteResume = true → seen .resumed = false)) :
    m.Alike seen m :=
  ⟨rfl, rfl, rfl, rfl, rfl, rfl, rfl, rfl, rfl, rfl, rfl, rfl, h⟩

theorem left (h : m.Alike seen n) : m.Alike seen m :=
  of_unseen h.unseen

theorem symm (h : m.Alike seen n) : n.Alike seen m :=
  ⟨h.program.symm, h.visits.symm, h.pc.symm, h.running.symm, h.store.symm, h.past.symm, h.hook.symm, h.notes.symm,
    h.pos.symm, h.screen.symm, h.faults.symm, h.events.symm, by simpa only [h.hook, h.notes] using h.unseen⟩

theorem trans (h : m.Alike seen n) (h' : n.Alike seen k) : m.Alike seen k :=
  ⟨h'.program.trans h.program, h'.visits.trans h.visits, h'.pc.trans h.pc, h'.running.trans h.running,
    h'.store.trans h.store, h'.past.trans h.past, h'.hook.trans h.hook, h'.notes.trans h.notes,
    h'.pos.trans h.pos, h'.screen.trans h.screen, h'.faults.trans h.faults, h'.events.trans h.events, h.unseen⟩

/-- The gate, the panel and the log of either machine may change. -/
theorem idle (h : m.Alike seen n) (gate : Option Bool) (panel : Option Panel) (log : Log) :
    m.Alike seen { n with gate := gate, panel := panel, log := log } :=
  ⟨h.program, h.visits, h.pc, h.running, h.store, h.past, h.hook, h.notes, h.pos, h.screen, h.faults, h.events,
    h.unseen⟩

theorem say (h : m.Alike seen n) (level : Level) (message : String) : m.Alike seen (n.say level message) :=
  h.idle n.gate n.panel _

theorem sayBoth (h : m.Alike seen n) (level level' : Level) (message message' : String) :
    (m.say level message).Alike seen (n.say level' message') :=
  ((h.symm.say level message).symm).say level' message'

theorem note (h : m.Alike seen n) {e : Event} (he : seen e = false) :
    m.Alike seen { n with device := n.device.note e } := by
  refine ⟨h.program, h.visits, h.pc, h.running, h.store, h.past, h.hook, h.notes, h.pos, h.screen, h.faults, ?_,
    h.unseen⟩
  simp [Device.note, he, h.events]

theorem resume (h : m.Alike seen n) : m.Alike seen n.resume := by
  unfold Machine.resume
  split
  · have hopen : m.Alike seen { n with gate := some true } := h.idle (some true) n.panel n.log
    dsimp only
    apply say
    split
    · rename_i hnote
      apply hopen.note
      exact h.unseen.2 (h.notes.symm.trans hnote)
    · exact hopen
  · exact h

private theorem hooked (h : m.Alike seen n) : m.Alike seen n.runPauseHook := by
  unfold runPauseHook
  split
  · exact h
  · rename_i hnote
    apply h.note
    exact h.unseen.1 (h.hook.symm.trans hnote)
  · exact h.resume
  · split
    · split
      · exact h.idle n.gate _ n.log
      · exact h
    · exact h

theorem pause (h : m.Alike seen n) : m.Alike seen n.pause := by
  unfold Machine.pause
  split
  · apply say
    apply hooked
    exact h.idle (some false) n.panel n.log
  · exact h

theorem act (h : m.Alike seen n) {a : Act} (ha : a.isPausing = true) : m.Alike seen (n.act a).1 := by
  cases a with
  | pause => exact h.pause
  | resume => exact h.resume
  | stop | key | click | popup => simp [Act.isPausing] at ha

def Agree (seen : Event → Bool) (a b : Machine × Option Fault) : Prop :=
  a.2 = b.2 ∧ a.1.Alike seen b.1

private theorem plain (h : m.Alike seen n) {memory : Memory} (hs : m.store = .ready memory) {inst : Instruction}
    (hp : inst.isPlain = true) (index : Option Nat) : Agree seen (m.carryOut index inst) (n.carryOut index inst) := by
  obtain ⟨d, fault, _, hd⟩ := carryOut_plain hp (m.scene memory) memory.safe
  have hscene : n.scene memory = m.scene memory := by simp only [scene, h.pos, h.screen, h.faults]
  rw [hd m memory index hs rfl fun _ => rfl, hd n memory index (h.store.trans hs) hscene fun _ => rfl]
  refine ⟨rfl, h.program, h.visits, h.pc, h.running, rfl, h.past, h.hook, h.notes, rfl, h.screen, rfl, ?_, h.unseen⟩
  simp [after, h.events]

private theorem withVisits (h : m.Alike seen n) (visits : Array Nat) :
    Alike seen { m with visits := visits } { n with visits := visits } :=
  ⟨h.program, rfl, h.pc, h.running, h.store, h.past, h.hook, h.notes, h.pos, h.screen, h.faults, h.events, h.unseen⟩

theorem withPc (h : m.Alike seen n) {pc pc' : Int} (hp : pc' = pc) :
    Alike seen { m with pc := pc } { n with pc := pc' } :=
  ⟨h.program, h.visits, hp, h.running, h.store, h.past, h.hook, h.notes, h.pos, h.screen, h.faults, h.events, h.unseen⟩

private theorem withMemory (h : m.Alike seen n) (memory : Memory) :
    Alike seen (m.withMemory memory) (n.withMemory memory) :=
  ⟨h.program, h.visits, h.pc, h.running, rfl, h.past, h.hook, h.notes, h.pos, h.screen, h.faults, h.events, h.unseen⟩

private theorem jump (h : m.Alike seen n) (index : Option Nat) (count : Operand) (target : Int) :
    Agree seen (m.jump index count target) (n.jump index count target) := by
  have hvalue : n.value count = m.value count := by
    cases count with
    | literal v => rfl
    | named name => simp only [value, scope, h.store, h.past, h.pos]
  have hvisits : n.visitsAt index = m.visitsAt index := by
    cases index with
    | none => rfl
    | some i => simp only [visitsAt, h.visits]
  have set (v : Nat) : Alike seen (m.setVisits index v) (n.setVisits index v) := by
    cases index with
    | none => exact h
    | some i =>
      simp only [setVisits, h.visits]
      exact h.withVisits _
  simp only [Machine.jump, hvalue, hvisits]
  cases m.value count with
  | error fault => exact ⟨rfl, h⟩
  | ok v =>
    simp only [attempt]
    split
    · exact ⟨rfl, h.withPc rfl⟩
    · split
      · exact ⟨rfl, set 0⟩
      · exact ⟨rfl, (set _).withPc rfl⟩

private theorem call (h : m.Alike seen n) {memory : Memory} (hs : m.store = .ready memory) (index : Option Nat)
    (count : Operand) (target : Int) : Agree seen (m.call index count target) (n.call index count target) := by
  have hopened := h.withMemory { memory with calls := m.pc :: memory.calls }
  rw [call_eq hs, call_eq (h.store.trans hs), h.pc]
  split
  · exact ⟨rfl, hopened⟩
  · exact hopened.jump index count target

private theorem ret (h : m.Alike seen n) {memory : Memory} (hs : m.store = .ready memory) :
    Agree seen m.ret n.ret := by
  simp only [Machine.ret, attemptMemory, h.store, hs, Store.memory, Memory.popCall?]
  cases memory.calls with
  | nil => exact ⟨rfl, h.sayBoth _ _ _ _⟩
  | cons last earlier =>
    have hclosed := h.withMemory { memory with calls := earlier }
    dsimp only
    split
    · exact ⟨rfl, hclosed⟩
    · exact ⟨rfl, hclosed.withPc rfl⟩

/-- An instruction does the same on machines that are alike, be it a pause or another one. -/
theorem carryOut (h : m.Alike seen n) {inst : Instruction} (hs : inst = .setup ∨ ∃ memory, m.store = .ready memory)
    (index : Option Nat) : Agree seen (m.carryOut index inst) (n.carryOut index inst) := by
  rcases hs with rfl | ⟨memory, hs⟩
  · simp only [Machine.carryOut, h.store]
    cases m.store with
    | absent => exact ⟨rfl, h⟩
    | loose | ready => exact ⟨rfl, h.withMemory {}⟩
  cases inst with
  | setup =>
    simp only [Machine.carryOut, h.store, hs]
    exact ⟨rfl, h.withMemory {}⟩
  | safeMode on =>
    simp only [Machine.carryOut, setSafe, attemptMemory, h.store, hs, Store.setSafe]
    have hset := h.withMemory { memory with safe := on }
    exact ⟨rfl, hset.sayBoth _ _ _ _⟩
  | pause => exact ⟨rfl, (h.symm.pause).symm.pause⟩
  | jump count target label => exact h.jump index count target
  | call count target label => exact h.call hs index count target
  | ret => exact h.ret hs
  | finish | halt => exact ⟨rfl, h⟩
  | _ => exact h.plain hs rfl index

end Alike

end Machine

namespace Run

variable {seen : Event → Bool}

section

variable {m n : Machine} {actions : List Action}

private theorem alike_actDue (h : m.Alike seen n) (ha : ∀ a ∈ actions, a.act.isPausing = true) (steps : Nat) :
    m.Alike seen (actDue steps n actions).1 ∧ ∀ a ∈ (actDue steps n actions).2.1, a.act.isPausing = true := by
  induction actions generalizing n with
  | nil => exact ⟨h, by simp [actDue]⟩
  | cons action rest ih =>
    have hall := ha
    rw [List.forall_mem_cons] at ha
    have hnext := h.act ha.1
    unfold actDue
    split
    · split
      · split
        · rename_i k he
          rw [he] at hnext
          exact ih hnext ha.2
        · rename_i k reaction _ he
          rw [he] at hnext
          exact ⟨hnext, ha.2⟩
      · exact ⟨h, hall⟩
    · exact ⟨h, hall⟩

private theorem alike_actWhileShut (h : m.Alike seen n) (ha : ∀ a ∈ actions, a.act.isPausing = true) :
    m.Alike seen (actWhileShut n actions).1 ∧ ∀ a ∈ (actWhileShut n actions).2.1, a.act.isPausing = true := by
  induction actions generalizing n with
  | nil => exact ⟨h, by simp [actWhileShut]⟩
  | cons action rest ih =>
    have hall := ha
    rw [List.forall_mem_cons] at ha
    have hnext := h.act ha.1
    unfold actWhileShut
    split
    · split
      · rename_i k he
        rw [he] at hnext
        exact ih hnext ha.2
      · rename_i k reaction _ he
        rw [he] at hnext
        exact ⟨hnext, ha.2⟩
    · exact ⟨h, hall⟩

end

private theorem traceEntry_alike {m n : Machine} (h : m.Alike seen n) : traceEntry n = traceEntry m := by
  simp only [traceEntry, h.store, h.pc, h.pos]

/-- At the gate a run under pausing and resuming stays alike. -/
private theorem alike_passGate {r : Run} {m : Machine} (h : m.Alike seen r.machine)
    (ha : ∀ a ∈ r.pending, a.act.isPausing = true) :
    m.Alike seen r.passGate.1.machine ∧ (∀ a ∈ r.passGate.1.pending, a.act.isPausing = true) ∧
      r.passGate.1.steps = r.steps + 1 ∧
      (r.passGate.2 = none → r.passGate.1.trace = r.trace.push (traceEntry m)) := by
  obtain ⟨hd, hp⟩ := alike_actDue h ha (r.steps + 1)
  obtain ⟨hw, hq⟩ := alike_actWhileShut hd hp
  unfold passGate
  dsimp only
  split
  · exact ⟨hd, hp, rfl, by simp⟩
  · split
    · exact ⟨hw, hq, rfl, by simp⟩
    · split
      · exact ⟨hw, hq, rfl, by simp⟩
      · exact ⟨hw, hq, rfl, fun _ => by rw [traceEntry_alike hw]⟩

/-- Two runs that are alike, with as many steps behind them and the same trace. -/
structure Alike (seen : Event → Bool) (r s : Run) : Prop where
  machine : r.machine.Alike seen s.machine
  steps : s.steps = r.steps
  trace : s.trace = r.trace

section

variable {r s : Run}

private theorem Alike.sayBoth (h : r.Alike seen s) (level level' : Level) (message message' : String) :
    (r.say level message).Alike seen (s.say level' message') :=
  ⟨h.machine.sayBoth level level' message message', h.steps, h.trace⟩

private theorem alike_announce {m : Machine} (h : m.Alike seen r.machine) : m.Alike seen r.announce.machine := by
  unfold announce
  split
  · exact h.say _ _
  · exact h

private theorem Alike.announced (h : r.Alike seen s) : r.announce.Alike seen s.announce := by
  have hsteps (q : Run) : q.announce.steps = q.steps ∧ q.announce.trace = q.trace := by
    unfold announce
    split <;> exact ⟨rfl, rfl⟩
  refine ⟨(alike_announce (alike_announce h.machine).symm).symm, ?_, ?_⟩
  · rw [(hsteps r).1, (hsteps s).1, h.steps]
  · rw [(hsteps r).2, (hsteps s).2, h.trace]

private theorem Alike.stepAt (h : r.Alike seen s) {inst : Instruction}
    (hs : inst = .setup ∨ ∃ memory, r.machine.store = .ready memory) (index : Nat) :
    (r.stepAt index inst).2 = (s.stepAt index inst).2 ∧ (r.stepAt index inst).1.Alike seen (s.stepAt index inst).1 := by
  unfold Run.stepAt
  split
  · exact ⟨rfl, (h.sayBoth _ _ _ _).sayBoth _ _ _ _⟩
  · obtain ⟨hfault, hm⟩ := h.machine.carryOut hs (some index)
    rcases hc : r.machine.carryOut (some index) inst with ⟨m, fault⟩
    rcases hc' : s.machine.carryOut (some index) inst with ⟨n, fault'⟩
    rw [hc, hc'] at hfault hm
    obtain rfl : fault = fault' := hfault
    have hnext : Alike seen { r with machine := m } { s with machine := n } := ⟨hm, h.steps, h.trace⟩
    cases fault with
    | some fault => exact ⟨rfl, hnext.sayBoth _ _ _ _⟩
    | none =>
      have hsaid := hnext.sayBoth .debug .debug ("Executed instruction " ++ inst.text (m.visitsAt (some index)))
        ("Executed instruction " ++ inst.text (n.visitsAt (some index)))
      exact ⟨rfl, hsaid.machine.withPc (congrArg (· + 1) hm.pc), hsaid.steps, hsaid.trace⟩

private theorem step_pending (r : Run) : r.step.1.pending = r.pending := by
  unfold step
  dsimp only
  split
  · rfl
  · split
    · rfl
    · split
      · rfl
      · unfold Run.stepAt
        split
        · rfl
        · dsimp only
          split <;> rfl

end

/-- Two runs of a compiled script that are alike and to which the user does nothing but pause and resume. -/
structure Abreast (safe : Bool) (program : Array Instruction) (seen : Event → Bool) (r s : Run) : Prop where
  alike : r.Alike seen s
  contained : Contained safe program r.machine
  pausing : (∀ a ∈ r.pending, a.act.isPausing = true) ∧ ∀ a ∈ s.pending, a.act.isPausing = true

namespace Abreast

variable {safe : Bool} {program : Array Instruction} {r s : Run}

private theorem step (hl : Laid safe program) (h : Abreast safe program seen r s) :
    s.step.2 = r.step.2 ∧ r.step.1.Alike seen s.step.1 := by
  have hm := h.alike.machine
  have hf : s.fetch? = r.fetch? := by simp only [fetch?, hm.pc, hm.program]
  rw [step_eq, step_eq, hf, hm.pc, hm.program]
  cases hr : r.fetch? with
  | none =>
    dsimp only
    split
    · exact ⟨rfl, h.alike.sayBoth _ _ _ _⟩
    · exact ⟨rfl, h.alike⟩
  | some fetched =>
    obtain ⟨hpc, hi⟩ := pc_of_fetch? h.contained.nonneg hr
    have hs : fetched.2 = .setup ∨ ∃ memory, r.machine.store = .ready memory := by
      by_cases h0 : r.machine.pc = 0
      · -- What stands at the start sets up the memory.
        obtain h0 : fetched.1 = 0 := by omega
        rw [h.contained.loaded, h0, hl.setup] at hi
        exact .inl (Option.some.inj hi).symm
      · exact .inr (h.contained.ready h0)
    obtain ⟨ho, ha⟩ := h.alike.stepAt hs fetched.1
    exact ⟨ho.symm, ha⟩

private theorem passes {m : Machine} (hrun : r.machine.running = true) (hm : m.Alike seen r.machine)
    (ha : ∀ a ∈ r.pending, a.act.isPausing = true) (hw : r.turn.2 ≠ some .paused) :
    ∃ g : Run, r.turn = g.step ∧ r.machine.Keeps g.machine ∧ m.Alike seen g.machine ∧
      (∀ a ∈ g.pending, a.act.isPausing = true) ∧ g.steps = r.announce.steps + 1 ∧
      g.trace = r.announce.trace.push (traceEntry m) := by
  have hcontrol {a : Act} (h : a.isPausing = true) : a.isControl = true := by
    cases a with
    | pause | resume => rfl
    | stop | key | click | popup => simp [Act.isPausing] at h
  have hp : ∀ a ∈ r.announce.pending, a.act.isPausing = true := announce_pending r ▸ ha
  obtain ⟨hgm, hgp, hgs, hgt⟩ := alike_passGate (alike_announce hm) hp
  have hend := (passGate_control (r := r.announce) fun a hin => hcontrol (hp a hin)).1
  have hk := r.keeps_announce.trans r.announce.keeps_passGate
  rcases hg : r.announce.passGate with ⟨g, outcome⟩
  rw [hg] at hgm hgp hgs hgt hend hk
  rcases hend with rfl | rfl
  · exact ⟨g, turn_passed hrun hg, hk, hgm, hgp, hgs, hgt rfl⟩
  · exact absurd (by rw [turn_held hrun hg]) hw

/-- A turn that leaves neither run waiting ends both alike, or they stay abreast. -/
theorem turn (hl : Laid safe program) (h : Abreast safe program seen r s)
    (hr : r.turn.2 ≠ some .paused) (hs : s.turn.2 ≠ some .paused) :
    s.turn.2 = r.turn.2 ∧ r.turn.1.Alike seen s.turn.1 ∧
      (r.turn.2 = none → Abreast safe program seen r.turn.1 s.turn.1) := by
  have hm := h.alike.machine
  by_cases hrun : r.machine.running = true
  · have ha := h.alike.announced
    obtain ⟨g, hrg, hkeeps, hgm, hgp, hgs, hgt⟩ := passes hrun hm.left h.pausing.1 hr
    obtain ⟨k, hsk, _, hkm, hkp, hks, hkt⟩ := passes (hm.running.trans hrun) hm h.pausing.2 hs
    -- Behind their gates the runs are alike, since each is alike to what it was before.
    have halike : g.Alike seen k := by
      refine ⟨hgm.symm.trans hkm, ?_, ?_⟩
      · rw [hks, hgs, ha.steps]
      · rw [hkt, hgt, ha.trace]
    have hgate : Abreast safe program seen g k := ⟨halike, h.contained.of_keeps hkeeps, hgp, hkp⟩
    obtain ⟨ho, hnext⟩ := hgate.step hl
    rw [hrg, hsk]
    refine ⟨ho, hnext, fun hnone => ⟨hnext, ?_, ?_, ?_⟩⟩
    · obtain ⟨index, inst, t⟩ := turn_eq_none (r := r) (hrg.trans (Prod.ext rfl hnone))
      exact (t.contained hl h.contained).2.2.1
    · rw [step_pending]
      exact hgp
    · rw [step_pending]
      exact hkp
  · rw [turn_stopped hrun, turn_stopped (hm.running ▸ hrun)]
    exact ⟨rfl, h.alike.sayBoth _ _ _ _, by simp⟩

/-- Runs abreast of which neither is left waiting end alike. -/
theorem loop (hl : Laid safe program) (h : Abreast safe program seen r s) (budget : Nat)
    (hr : (Run.loop budget r).2 ≠ .paused) (hs : (Run.loop budget s).2 ≠ .paused) :
    (Run.loop budget s).2 = (Run.loop budget r).2 ∧
      (Run.loop budget r).1.Alike seen (Run.loop budget s).1 := by
  apply loops_agree (P := Abreast safe program seen) (Q := Run.Alike seen) (F := (· ≠ .paused)) ?_ ?_ ?_ budget h hr hs
  · intro q k hq hfine hfine'
    apply hq.turn hl
    · intro ho
      exact hfine _ ho rfl
    · intro ho
      exact hfine' _ ho rfl
  · intro q k hq
    exact hq.alike.machine.running
  · intro q k hq
    have ha := hq.alike.announced
    exact ⟨ha.machine, congrArg (· + 1) ha.steps, ha.trace⟩

end Abreast

/-- A turn that carries out a pause does nothing but go on to the next instruction. -/
theorem Turn.keeps_of_pause {r r' : Run} {index : Nat} (t : r.Turn index .pause r') :
    Machine.Keeps { r.machine with pc := r.machine.pc + 1 } r'.machine := by
  obtain ⟨_, _, m, n, hk, hc, he⟩ := t.carries
  simp only [Machine.carryOut, Prod.mk.injEq, and_true] at hc
  subst hc
  have hkeeps := hk.trans m.keeps_pause
  rw [he]
  exact ⟨hkeeps.program, hkeeps.visits, congrArg (· + 1) hkeeps.pc, hkeeps.store, hkeeps.past, hkeeps.pos,
    hkeeps.screen, hkeeps.events⟩

end Run

/-- Runs of a compiled script under pausing and resuming, of which neither is left waiting, end alike. -/
private theorem execute_alike {safe : Bool} {program : Array Instruction} (hl : Laid safe program) {m : Machine}
    (seen : Event → Bool)
    (hseen : (m.onPause = .note → seen .paused = false) ∧ (m.noteResume = true → seen .resumed = false))
    {budget : Nat} {first second : List Action} (hfirst : ∀ a ∈ first, a.act.isPausing = true)
    (hsecond : ∀ a ∈ second, a.act.isPausing = true) (hr : ((m.load program).execute budget first).2 ≠ .paused)
    (hs : ((m.load program).execute budget second).2 ≠ .paused) :
    ((m.load program).execute budget second).2 = ((m.load program).execute budget first).2 ∧
      ((m.load program).execute budget first).1.Alike seen ((m.load program).execute budget second).1 := by
  rw [hl.execute_eq] at hr hs ⊢
  rw [hl.execute_eq]
  have hm : Machine.Alike seen ((m.load program).opening first).machine ((m.load program).opening second).machine :=
    .of_unseen hseen
  have h : Run.Abreast safe program seen ((m.load program).opening first) ((m.load program).opening second) :=
    ⟨⟨hm, rfl, rfl⟩, contained_opening safe program m first, hfirst, hsecond⟩
  exact h.loop hl budget hr hs

/-- Pausing is transparent. Two runs of a compiled script that are paused and resumed as one likes, from outside
and by the script, and of which neither is left waiting, end alike: with the same outcome, after as many steps,
with the same trace, program counter, counters of jumps, memory and pointer, and with the same events but for
notes of pausing and resuming. Where these are not noted, the events are the same. A pause that is carried out
does nothing but go on to the next instruction. -/
theorem pausing_is_transparent {safe : Bool} {source : String} {program : Array Instruction}
    (h : (compile safe source).1 = .program program) (m : Machine) (budget : Nat) {first second : List Action}
    (hfirst : ∀ a ∈ first, a.act.isPausing = true) (hsecond : ∀ a ∈ second, a.act.isPausing = true)
    (hr : ((m.load program).execute budget first).2 ≠ .paused)
    (hs : ((m.load program).execute budget second).2 ≠ .paused) :
    let r := (m.load program).execute budget first
    let s := (m.load program).execute budget second
    (s.2 = r.2 ∧ s.1.steps = r.1.steps ∧ s.1.trace = r.1.trace) ∧
    (s.1.machine.pc = r.1.machine.pc ∧ s.1.machine.visits = r.1.machine.visits ∧
      s.1.machine.store = r.1.machine.store ∧ s.1.machine.device.pos = r.1.machine.device.pos) ∧
    (s.1.machine.device.events.filter (!·.isGateNote) = r.1.machine.device.events.filter (!·.isGateNote)) ∧
    (m.onPause ≠ .note → m.noteResume = false → s.1.machine.device.events = r.1.machine.device.events) ∧
    ∀ executed q index q', ((m.load program).opening first).Leads executed q → q.Turn index .pause q' →
      Machine.Keeps { q.machine with pc := q.machine.pc + 1 } q'.machine := by
  intro r s
  have hl := laid_of_compile h
  have hnotes : (m.onPause = .note → (!Event.paused.isGateNote) = false) ∧
      (m.noteResume = true → (!Event.resumed.isGateNote) = false) := ⟨fun _ => rfl, fun _ => rfl⟩
  obtain ⟨ho, ha⟩ := execute_alike hl (!·.isGateNote) hnotes hfirst hsecond hr hs
  refine ⟨⟨ho, ha.steps, ha.trace⟩, ⟨ha.machine.pc, ha.machine.visits, ha.machine.store, ha.machine.pos⟩,
    ha.machine.events, ?_, fun _ _ _ _ _ t => t.keeps_of_pause⟩
  intro hook notes
  have hall : (m.onPause = .note → true = false) ∧ (m.noteResume = true → true = false) :=
    ⟨fun hn => absurd hn hook, fun hn => by simp [notes] at hn⟩
  obtain ⟨_, ha⟩ := execute_alike hl (fun _ => true) hall hfirst hsecond hr hs
  have hevents := ha.machine.events
  rwa [Array.filter_eq_self.mpr (by simp), Array.filter_eq_self.mpr (by simp)] at hevents

/-- A loop of three rounds with a pause in it: resumed where it pauses, and paused twice before and twice within. -/
theorem paused_loop_is_transparent :
    let source := "label a\npause\nmove 3 4\njump a 3\nclick"
    let body : List Instruction := [.pause, .move (.literal (.float (Binary64.ofInt 3)))
      (.operand (.literal (.float (Binary64.ofInt 4)))) (.float (.zero false)),
      .jump (.literal (.float (Binary64.ofInt 3))) 2 (.named "a"), .leftClick]
    let program := (Standard.initial false ++ body).toArray
    let m : Machine := { device := { faults := [(.leftClick, 1)] } }
    let first : List Action := [⟨.resume, none⟩, ⟨.resume, none⟩, ⟨.resume, none⟩]
    let second : List Action := [⟨.pause, some 1⟩, ⟨.pause, some 2⟩, ⟨.resume, some 9⟩, ⟨.resume, none⟩,
      ⟨.pause, some 5⟩, ⟨.resume, none⟩, ⟨.resume, none⟩, ⟨.pause, some 8⟩, ⟨.resume, none⟩, ⟨.resume, none⟩]
    (compile false source).1 = .program program ∧ (∀ a ∈ first, a.act.isPausing = true) ∧
    (∀ a ∈ second, a.act.isPausing = true) ∧ ((m.load program).execute 20 first).2 ≠ .paused ∧
    ((m.load program).execute 20 second).2 ≠ .paused ∧
    ((m.load program).execute 20 first).1.trace.map (·.pc) = #[0, 1, 2, 3, 4, 2, 3, 4, 2, 3, 4, 5] ∧
    ((m.load program).execute 20 second).1.trace = ((m.load program).execute 20 first).1.trace ∧
    ((m.load program).execute 20 second).1.machine.device.events =
      ((m.load program).execute 20 first).1.machine.device.events := by
  intro source body program m first second
  have hc : (compile false source).1 = .program program := by decide +kernel
  have hf : ∀ a ∈ first, a.act.isPausing = true := by decide
  have hs : ∀ a ∈ second, a.act.isPausing = true := by decide
  have hw : ((m.load program).execute 20 first).2 ≠ .paused := by decide +kernel
  have hw' : ((m.load program).execute 20 second).2 ≠ .paused := by decide +kernel
  have hp : ((m.load program).execute 20 first).1.trace.map (·.pc) = #[0, 1, 2, 3, 4, 2, 3, 4, 2, 3, 4, 5] := by
    decide +kernel
  obtain ⟨⟨_, _, ht⟩, _, _, he, _⟩ := pausing_is_transparent hc m 20 hf hs hw hw'
  exact ⟨hc, hf, hs, hw, hw', hp, ht, he (by decide) rfl⟩

end PointerScript
