import PointerScript.Proofs.Displacement

/-! Scripts that start by making the place of the pointer their origin. All places such a script goes to are seen
from there, so a run that starts elsewhere does the same elsewhere: the run is followed together with a displaced
one, whose memory is displaced from the moment on at which the origin is set. -/

namespace PointerScript

open SourceLine

/-- How far the origin is displaced when so many instructions have been reached: not before the one that sets it. -/
def anchor (d : Point) (first reached : Nat) : Point :=
  if first < reached then d else .origin

/-- A machine that has not moved the pointer nor the origin since it was set up. -/
def Machine.Fresh (m : Machine) : Prop :=
  ∀ memory, m.store = .ready memory → memory.history = [] ∧ memory.offset = .origin

theorem Machine.Fresh.of_keeps {m n : Machine} (h : m.Fresh) (hk : m.Keeps n) : n.Fresh := by
  intro memory hm
  exact h memory (hk.store.symm.trans hm)

/-- A fresh machine holds nothing to displace. -/
theorem Machine.Fresh.shift_store {m : Machine} (h : m.Fresh) (d : Point) : m.store.shift d .origin = m.store := by
  cases hs : m.store with
  | absent | loose => rfl
  | ready memory =>
    obtain ⟨hhistory, horigin⟩ := h memory hs
    simp only [Store.shift, Memory.shift, hhistory, horigin]
    cases memory
    simp_all [Point.shift, Point.origin]

/-- A memory that is set up stays so, whatever is carried out and whether or not it fails. -/
theorem Machine.carryOut_ready {m : Machine} {memory : Memory} (hs : m.store = .ready memory) (index : Option Nat)
    (inst : Instruction) : ∃ memory, (m.carryOut index inst).1.store = .ready memory := by
  have hjump (n : Machine) (hn : ∃ memory, n.store = .ready memory) (count : Operand) (target : Int) :
      ∃ memory, (n.jump index count target).1.store = .ready memory := by
    rcases n.jump_cases index count target with ⟨_, h⟩ | ⟨_, h⟩ | ⟨_, h⟩ <;> rw [h] <;> exact hn
  have hplain (hp : inst.isPlain = true) : ∃ memory, (m.carryOut index inst).1.store = .ready memory := by
    obtain ⟨d, fault, _, hd⟩ := carryOut_plain hp (m.scene memory) memory.safe
    rw [hd m memory index hs rfl fun _ => rfl]
    exact ⟨_, rfl⟩
  cases inst with
  | setup => simp only [carryOut, hs]; exact ⟨_, rfl⟩
  | pause => exact ⟨memory, m.keeps_pause.store.trans hs⟩
  | safeMode on =>
    simp only [carryOut, setSafe, attemptMemory, hs, Store.setSafe]
    exact ⟨_, rfl⟩
  | jump count target label => exact hjump m ⟨memory, hs⟩ count target
  | call count target label =>
    simp only [carryOut, call_eq hs]
    split
    · exact ⟨_, rfl⟩
    · exact hjump _ ⟨_, rfl⟩ count target
  | ret =>
    simp only [carryOut, ret, attemptMemory, hs, Store.memory, Memory.popCall?]
    cases memory.calls with
    | nil => exact ⟨memory, hs⟩
    | cons entry earlier =>
      dsimp only
      split <;> exact ⟨_, rfl⟩
  | finish | halt => exact ⟨memory, hs⟩
  | _ => exact hplain rfl

/-- A program behind whose initial instructions the origin is set, and from then on all places are seen from it. -/
structure Anchored (safe : Bool) (program : Array Instruction) : Prop where
  laid : Laid safe program
  first : program[Standard.first safe]? = some .setOffset
  relative : ∀ index inst, index ≠ 0 → program[index]? = some inst → inst.Relative

namespace Anchored

variable {safe : Bool} {program : Array Instruction} {d : Point} {old : Array Event} {m n : Machine} {index : Nat}
  {inst : Instruction}

private theorem wait_initial (h : m.Displaced d .origin old n) {memory : Memory} (hs : m.store = .ready memory)
    (hf : m.Fresh) (t : Number) (index : Option Nat) :
    Machine.Agree d .origin old (m.carryOut index (.wait (.literal t))) (n.carryOut index (.wait (.literal t))) ∧
      (m.carryOut index (.wait (.literal t))).1.Fresh ∧ (m.carryOut index (.wait (.literal t))).1.pc = m.pc :=
  ⟨h.wait hs (by simp) index, hf, rfl⟩

/-- The initial instructions do the same everywhere and leave the memory fresh. -/
private theorem carryOut_initial (hl : Laid safe program) (h : m.Displaced d .origin old n)
    (hc : Contained safe program m) (hpc : m.pc = index) (hf : m.Fresh) (hi : program[index]? = some inst)
    (hlt : index < Standard.first safe) :
    Machine.Agree d .origin old (m.carryOut (some index) inst) (n.carryOut (some index) inst) ∧
      (m.carryOut (some index) inst).1.Fresh ∧ (m.carryOut (some index) inst).1.pc = m.pc := by
  match index, hlt with
  | 0, _ =>
    obtain rfl := Option.some.inj (hl.setup.symm.trans hi)
    have hs := hc.start hpc
    obtain ⟨device, hd, rfl⟩ := h
    simp only [Machine.carryOut, hs, Store.shift]
    refine ⟨⟨rfl, device, hd, rfl⟩, ?_, rfl⟩
    intro memory hm
    obtain rfl := Store.ready.inj hm
    exact ⟨rfl, rfl⟩
  | 1, _ =>
    obtain rfl := Option.some.inj (hl.wait.symm.trans hi)
    obtain ⟨memory, hs⟩ := hc.ready (by omega)
    exact wait_initial h hs hf _ _
  | 2, hlt =>
    obtain rfl : safe = true := by
      cases safe with
      | true => rfl
      | false => simp [Standard.first_eq] at hlt
    obtain rfl := Option.some.inj (hl.safeMode.symm.trans hi)
    obtain ⟨memory, hs⟩ := hc.ready (by omega)
    refine ⟨h.safeMode hs true _, ?_, ?_⟩
    · intro other ho
      simp only [Machine.carryOut, Machine.setSafe, Machine.attemptMemory, hs, Store.setSafe] at ho
      obtain rfl := Store.ready.inj ho
      exact hf memory hs
    · simp only [Machine.carryOut, Machine.setSafe, Machine.attemptMemory, hs, Store.setSafe]
      rfl
  | k + 3, hlt =>
    rw [Standard.first_eq] at hlt
    split at hlt <;> omega

/-- An instruction of an anchored program does the same elsewhere, and the first one behind the initial ones
displaces the origin. -/
private theorem carryOut (ha : Anchored safe program) {reached : Nat}
    (h : m.Displaced d (anchor d (Standard.first safe) reached) old n) (hc : Contained safe program m)
    (hpc : m.pc = index) (hi : program[index]? = some inst)
    (early : reached ≤ Standard.first safe → m.pc = reached ∧ m.Fresh)
    (late : Standard.first safe < reached → m.pc ≠ 0) :
    Machine.Agree d (anchor d (Standard.first safe) (reached + 1)) old (m.carryOut (some index) inst)
      (n.carryOut (some index) inst) ∧
    (reached + 1 ≤ Standard.first safe →
      (m.carryOut (some index) inst).1.Fresh ∧ (m.carryOut (some index) inst).1.pc = m.pc) := by
  rcases Nat.lt_trichotomy reached (Standard.first safe) with hlt | heq | hgt
  · obtain ⟨hat, hf⟩ := early (Nat.le_of_lt hlt)
    rw [anchor, if_neg (by omega)] at h ⊢
    obtain ⟨hagree, hfresh, hsame⟩ := carryOut_initial ha.laid h hc hpc hf hi (by omega)
    exact ⟨hagree, fun _ => ⟨hfresh, hsame⟩⟩
  · obtain ⟨hat, _⟩ := early (Nat.le_of_eq heq)
    obtain rfl : index = Standard.first safe := by omega
    obtain rfl := Option.some.inj (ha.first.symm.trans hi)
    have h2 := Standard.two_le_first safe
    obtain ⟨memory, hs⟩ := hc.ready (by omega)
    rw [anchor, if_pos (by omega)]
    exact ⟨h.setOffset hs, fun hle => absurd hle (by omega)⟩
  · obtain ⟨memory, hs⟩ := hc.ready (late hgt)
    rw [anchor, if_pos hgt] at h
    rw [anchor, if_pos (by omega)]
    have hrelative := ha.relative index inst (by have := late hgt; omega) hi
    exact ⟨h.carryOut hs hrelative _, fun hle => absurd hle (by omega)⟩

end Anchored

def TraceEntry.shift (d : Point) (entry : TraceEntry) : TraceEntry :=
  { entry with pos := entry.pos.shift d }

namespace Run

variable {d e : Point} {old : Array Event}

section

variable {m n : Machine}

private theorem displaced_actDue (h : m.Displaced d e old n) (steps : Nat) (actions : List Action) :
    (actDue steps n actions).2 = (actDue steps m actions).2 ∧
      (actDue steps m actions).1.Displaced d e old (actDue steps n actions).1 := by
  induction actions generalizing m n with
  | nil => exact ⟨rfl, h⟩
  | cons action rest ih =>
    obtain ⟨hreaction, hact⟩ := h.act action.act
    rcases hm : m.act action.act with ⟨m', reaction⟩
    rcases hn : n.act action.act with ⟨n', reaction'⟩
    rw [hm, hn] at hreaction hact
    obtain rfl : reaction' = reaction := hreaction
    simp only [actDue, hm, hn]
    cases action.step with
    | none => exact ⟨rfl, h⟩
    | some step =>
      dsimp only
      split
      · cases reaction' with
        | goOn => exact ih hact
        | exit | fault => exact ⟨rfl, hact⟩
      · exact ⟨rfl, h⟩

private theorem displaced_actWhileShut (h : m.Displaced d e old n) (actions : List Action) :
    (actWhileShut n actions).2 = (actWhileShut m actions).2 ∧
      (actWhileShut m actions).1.Displaced d e old (actWhileShut n actions).1 := by
  induction actions generalizing m n with
  | nil =>
    obtain ⟨device, hd, rfl⟩ := h
    exact ⟨rfl, device, hd, rfl⟩
  | cons action rest ih =>
    have hpaused : n.isPaused = m.isPaused := by obtain ⟨_, _, rfl⟩ := h; rfl
    obtain ⟨hreaction, hact⟩ := h.act action.act
    rcases hm : m.act action.act with ⟨m', reaction⟩
    rcases hn : n.act action.act with ⟨n', reaction'⟩
    rw [hm, hn] at hreaction hact
    obtain rfl : reaction' = reaction := hreaction
    simp only [actWhileShut, hm, hn, hpaused]
    split
    · cases reaction' with
      | goOn => exact ih hact
      | exit | fault => exact ⟨rfl, hact⟩
    · exact ⟨rfl, h⟩

private theorem traceEntry_displaced (h : m.Displaced d e old n) : traceEntry n = (traceEntry m).shift d := by
  obtain ⟨device, hd, rfl⟩ := h
  cases hs : m.store <;> simp [traceEntry, hs, Store.shift, Memory.shift, TraceEntry.shift, hd.pos]

end

/-- Two runs of which the second is displaced, with the same to come. -/
structure Displaced (d e : Point) (old : Array Event) (r s : Run) : Prop where
  machine : r.machine.Displaced d e old s.machine
  steps : s.steps = r.steps
  pending : s.pending = r.pending
  trace : s.trace = r.trace.map (TraceEntry.shift d)

namespace Displaced

variable {r s : Run}

theorem say (h : r.Displaced d e old s) (level : Level) (message : String) :
    (r.say level message).Displaced d e old (s.say level message) :=
  ⟨h.machine.say level message, h.steps, h.pending, h.trace⟩

theorem announce (h : r.Displaced d e old s) : r.announce.Displaced d e old s.announce := by
  have hpaused : s.machine.isPaused = r.machine.isPaused := by
    obtain ⟨_, _, hn⟩ := h.machine
    rw [hn]
    rfl
  unfold Run.announce
  rw [hpaused]
  split
  · exact h.say _ _
  · exact h

theorem passGate (h : r.Displaced d e old s) :
    s.passGate.2 = r.passGate.2 ∧ r.passGate.1.Displaced d e old s.passGate.1 := by
  obtain ⟨m, steps, pending, trace⟩ := r
  obtain ⟨n, steps', pending', trace'⟩ := s
  obtain ⟨hm, hsteps, hpending, htrace⟩ := h
  obtain rfl : steps' = steps := hsteps
  obtain rfl : pending' = pending := hpending
  obtain rfl : trace' = trace.map (TraceEntry.shift d) := htrace
  obtain ⟨hdue, hm1⟩ := displaced_actDue hm (steps' + 1) pending'
  rcases hd : actDue (steps' + 1) m pending' with ⟨m1, left, reaction⟩
  rcases hd' : actDue (steps' + 1) n pending' with ⟨n1, left', reaction'⟩
  rw [hd, hd'] at hdue hm1
  obtain ⟨rfl, rfl⟩ : left' = left ∧ reaction' = reaction := by simpa using hdue
  obtain ⟨hshut, hm2⟩ := displaced_actWhileShut hm1 left'
  rcases hw : actWhileShut m1 left' with ⟨m2, last, reply, shut⟩
  rcases hw' : actWhileShut n1 left' with ⟨n2, last', reply', shut'⟩
  rw [hw, hw'] at hshut hm2
  obtain ⟨rfl, rfl, rfl⟩ : last' = last ∧ reply' = reply ∧ shut' = shut := by simpa using hshut
  simp only [Run.passGate, hd, hd', hw, hw']
  split
  · exact ⟨rfl, hm1, rfl, rfl, rfl⟩
  · split
    · exact ⟨rfl, hm2, rfl, rfl, rfl⟩
    · split
      · exact ⟨rfl, hm2, rfl, rfl, rfl⟩
      · refine ⟨rfl, hm2, rfl, rfl, ?_⟩
        simp [traceEntry_displaced hm2]

/-- An instruction that does the same elsewhere carries a run on to a displaced one. -/
theorem stepAt (h : r.Displaced d e old s) {index : Nat} {inst : Instruction} (hstops : inst.stops = false)
    {e' : Point} (hc : Machine.Agree d e' old (r.machine.carryOut (some index) inst)
      (s.machine.carryOut (some index) inst)) :
    (s.stepAt index inst).2 = (r.stepAt index inst).2 ∧
      (r.stepAt index inst).1.Displaced d e' old (s.stepAt index inst).1 := by
  obtain ⟨hfault, hm⟩ := hc
  rw [stepAt_eq r index hstops, stepAt_eq s index hstops]
  rcases hr : r.machine.carryOut (some index) inst with ⟨m, fault⟩
  rcases hs : s.machine.carryOut (some index) inst with ⟨n, fault'⟩
  rw [hr, hs] at hfault hm
  obtain rfl : fault' = fault := hfault
  have hpc : n.pc = m.pc := by obtain ⟨_, _, rfl⟩ := hm; rfl
  cases fault' with
  | some fault =>
    refine ⟨rfl, ?_, h.steps, h.pending, h.trace⟩
    simp only [failed, hm.visitsAt]
    exact hm.say _ _
  | none =>
    refine ⟨rfl, ?_, h.steps, h.pending, h.trace⟩
    simp only [advanced, hm.visitsAt, hpc]
    exact (hm.say _ _).withPc _

end Displaced

section

variable {r g : Run}

private theorem announce_trace (r : Run) : r.announce.trace = r.trace := by
  unfold announce
  split <;> rfl

private theorem passGate_trace (r : Run) :
    r.passGate.1.trace.size = r.trace.size + if r.passGate.2 = none then 1 else 0 := by
  rcases hd : actDue (r.steps + 1) r.machine r.pending with ⟨m, left, reaction⟩
  rcases hw : actWhileShut m left with ⟨n, last, reply, shut⟩
  simp only [passGate, hd, hw]
  cases reaction.outcome? with
  | some outcome => rfl
  | none =>
    cases reply.outcome? with
    | some outcome => rfl
    | none => cases shut <;> simp

private theorem stepAt_machine (r : Run) (index : Nat) {inst : Instruction} (h : inst.stops = false) :
    (r.stepAt index inst).1.machine.store = (r.machine.carryOut (some index) inst).1.store ∧
      ((r.stepAt index inst).2 = none →
        (r.stepAt index inst).1.machine.pc = (r.machine.carryOut (some index) inst).1.pc + 1) := by
  rw [stepAt_eq r index h]
  rcases r.machine.carryOut (some index) inst with ⟨m, _ | fault⟩
  · exact ⟨rfl, fun _ => rfl⟩
  · exact ⟨rfl, fun hnone => by cases hnone⟩

private theorem stepAt_trace (r : Run) (index : Nat) (inst : Instruction) :
    (r.stepAt index inst).1.trace = r.trace := by
  unfold stepAt
  split
  · rfl
  · dsimp only
    split <;> rfl

private theorem step_trace (r : Run) : r.step.1.trace = r.trace := by
  rw [step_eq]
  split
  · exact stepAt_trace r _ _
  · split <;> rfl

end

/-- A run of an anchored program and a displaced one, at their ends or on the way. -/
structure Shadows (safe : Bool) (d : Point) (old : Array Event) (r s : Run) : Prop where
  displaced : r.Displaced d (anchor d (Standard.first safe) r.trace.size) old s
  fresh : r.trace.size ≤ Standard.first safe → r.machine.Fresh
  ready : Standard.first safe < r.trace.size → ∃ memory, r.machine.store = .ready memory

theorem Shadows.say {safe : Bool} {r s : Run} (h : r.Shadows safe d old s) (level : Level) (message : String) :
    (r.say level message).Shadows safe d old (s.say level message) :=
  ⟨h.displaced.say level message, h.fresh, h.ready⟩

/-- Nothing is lost where no instruction is reached. -/
theorem Shadows.of_keeps {safe : Bool} {r s r' s' : Run} (h : r.Shadows safe d old s)
    (hd : r'.Displaced d (anchor d (Standard.first safe) r.trace.size) old s') (hsize : r'.trace.size = r.trace.size)
    (hk : r.machine.Keeps r'.machine) : r'.Shadows safe d old s' := by
  rw [← hsize] at hd
  refine ⟨hd, ?_, ?_⟩
  · intro hle
    exact (h.fresh (hsize ▸ hle)).of_keeps hk
  · intro hlt
    obtain ⟨memory, hs⟩ := h.ready (hsize ▸ hlt)
    exact ⟨memory, hk.store.trans hs⟩

theorem Shadows.announce {safe : Bool} {r s : Run} (h : r.Shadows safe d old s) :
    r.announce.Shadows safe d old s.announce :=
  h.of_keeps h.displaced.announce (congrArg Array.size (announce_trace r)) r.keeps_announce

/-- The same between two turns: until the origin is set, as many instructions have been reached as the program
counter says. -/
structure Follows (safe : Bool) (program : Array Instruction) (d : Point) (old : Array Event) (r s : Run) : Prop where
  shadows : r.Shadows safe d old s
  contained : Contained safe program r.machine
  early : r.trace.size ≤ Standard.first safe → r.machine.pc = r.trace.size
  late : Standard.first safe < r.trace.size → r.machine.pc ≠ 0

/-- The same behind the gate, when one more instruction is reached and not yet carried out. -/
private structure Reaches (safe : Bool) (program : Array Instruction) (d : Point) (old : Array Event) (reached : Nat)
    (g k : Run) : Prop where
  displaced : g.Displaced d (anchor d (Standard.first safe) reached) old k
  contained : Contained safe program g.machine
  size : g.trace.size = reached + 1
  early : reached ≤ Standard.first safe → g.machine.pc = reached ∧ g.machine.Fresh
  late : Standard.first safe < reached → g.machine.pc ≠ 0

namespace Reaches

variable {safe : Bool} {program : Array Instruction} {reached : Nat} {g k : Run}

private theorem ready (h : Reaches safe program d old reached g k) (hlt : Standard.first safe < reached + 1) :
    ∃ memory, g.machine.store = .ready memory := by
  apply h.contained.ready
  rcases Nat.lt_or_ge (Standard.first safe) reached with hlate | hle
  · exact h.late hlate
  · have h2 := Standard.two_le_first safe
    have hat := (h.early hle).1
    omega

/-- Until the origin is set there is always an instruction to fetch. -/
private theorem late_of_fetch? (ha : Anchored safe program) (h : Reaches safe program d old reached g k)
    (hf : g.fetch? = none) : Standard.first safe < reached := by
  rcases Nat.lt_or_ge (Standard.first safe) reached with hlt | hle
  · exact hlt
  · have hlt : reached < program.size := Nat.lt_of_le_of_lt hle (Array.getElem?_eq_some_iff.mp ha.first).1
    have hget : g.machine.program[reached]? = some program[reached] := by simp [h.contained.loaded]
    rw [fetch?_of_nonneg (h.early hle).1 hget] at hf
    cases hf

private theorem shadows_of_late (h : Reaches safe program d old reached g k) (hlate : Standard.first safe < reached) :
    g.Shadows safe d old k := by
  have hd := h.displaced
  have hsize := h.size
  refine ⟨?_, fun hle => absurd hle (by omega), fun _ => h.ready (by omega)⟩
  rw [anchor, if_pos hlate] at hd
  rwa [anchor, if_pos (by omega)]

/-- An instruction that ends the run does nothing else. -/
private theorem shadows_of_stops (ha : Anchored safe program) (h : Reaches safe program d old reached g k)
    {index : Nat} {inst : Instruction} (hpc : g.machine.pc = index) (hi : program[index]? = some inst)
    (hstops : inst.stops = true) : g.Shadows safe d old k := by
  have hidle (m : Machine) : m.carryOut (some index) inst = (m, none) := by
    cases inst with
    | finish | halt => rfl
    | _ => exact absurd hstops Bool.false_ne_true
  obtain ⟨hagree, hfresh⟩ := ha.carryOut h.displaced.machine h.contained hpc hi h.early h.late
  have hready := h.ready
  rw [hidle, hidle] at hagree
  rw [hidle] at hfresh
  rw [← h.size] at hagree hfresh hready
  exact ⟨⟨hagree.2, h.displaced.steps, h.displaced.pending, h.displaced.trace⟩, fun hle => (hfresh hle).1, hready⟩

/-- Any other instruction does the same elsewhere. -/
private theorem stepAt (ha : Anchored safe program) (h : Reaches safe program d old reached g k) {index : Nat}
    {inst : Instruction} (hpc : g.machine.pc = index) (hi : program[index]? = some inst) (hgo : inst.stops = false) :
    (k.stepAt index inst).2 = (g.stepAt index inst).2 ∧
      (g.stepAt index inst).1.Shadows safe d old (k.stepAt index inst).1 ∧
      ((g.stepAt index inst).2 = none → reached + 1 ≤ Standard.first safe →
        (g.stepAt index inst).1.machine.pc = reached + 1) := by
  obtain ⟨hagree, hfresh⟩ := ha.carryOut h.displaced.machine h.contained hpc hi h.early h.late
  obtain ⟨ho, hnext⟩ := h.displaced.stepAt hgo hagree
  obtain ⟨hstore, hpc'⟩ := stepAt_machine g index hgo
  have hsize : (g.stepAt index inst).1.trace.size = reached + 1 := by rw [stepAt_trace, h.size]
  refine ⟨ho, ⟨?_, ?_, ?_⟩, ?_⟩
  · rwa [hsize]
  · intro hle memory hmemory
    rw [hsize] at hle
    exact (hfresh hle).1 memory (hstore.symm.trans hmemory)
  · intro hlt
    rw [hsize] at hlt
    obtain ⟨memory, hs⟩ := h.ready hlt
    rw [hstore]
    exact Machine.carryOut_ready hs (some index) inst
  · intro hnone hle
    rw [hpc' hnone, (hfresh hle).2, (h.early (by omega)).1]

private theorem step (ha : Anchored safe program) (h : Reaches safe program d old reached g k) :
    k.step.2 = g.step.2 ∧ g.step.1.Shadows safe d old k.step.1 ∧
      (g.step.2 = none → reached + 1 ≤ Standard.first safe → g.step.1.machine.pc = reached + 1) := by
  have hpc : k.machine.pc = g.machine.pc := by obtain ⟨_, _, hk⟩ := h.displaced.machine; rw [hk]
  have hprogram : k.machine.program = g.machine.program := by obtain ⟨_, _, hk⟩ := h.displaced.machine; rw [hk]
  have hf : k.fetch? = g.fetch? := by simp only [fetch?, hpc, hprogram]
  rw [step_eq, step_eq, hf, hpc, hprogram]
  cases hg : g.fetch? with
  | none =>
    have hsame := h.shadows_of_late (h.late_of_fetch? ha hg)
    dsimp only
    split
    · exact ⟨rfl, hsame.say _ _, fun hnone => by cases hnone⟩
    · exact ⟨rfl, hsame, fun hnone => by cases hnone⟩
  | some fetched =>
    obtain ⟨index, inst⟩ := fetched
    obtain ⟨hindex, hi⟩ := pc_of_fetch? h.contained.nonneg hg
    rw [h.contained.loaded] at hi
    cases hstops : inst.stops with
    | true =>
      dsimp only
      rw [stepAt_stops g index hstops, stepAt_stops k index hstops]
      exact ⟨rfl, ((h.shadows_of_stops ha hindex hi hstops).say _ _).say _ _, fun hnone => by cases hnone⟩
    | false => exact h.stepAt ha hindex hi hstops

end Reaches

namespace Follows

variable {safe : Bool} {program : Array Instruction} {r s : Run}

/-- A turn ends both runs alike, or the one goes on to follow the other. -/
theorem turn (ha : Anchored safe program) (h : r.Follows safe program d old s) :
    s.turn.2 = r.turn.2 ∧ r.turn.1.Shadows safe d old s.turn.1 ∧
      (r.turn.2 = none → r.turn.1.Follows safe program d old s.turn.1) := by
  have hd := h.shadows.displaced
  have hrunning : s.machine.running = r.machine.running := by
    obtain ⟨_, _, hm⟩ := hd.machine
    rw [hm]
  by_cases hrun : r.machine.running = true
  · obtain ⟨ho, hgate⟩ := hd.announce.passGate
    have hk := r.keeps_announce.trans r.announce.keeps_passGate
    have hsize := r.announce.passGate_trace
    rw [announce_trace] at hsize
    rcases hg : r.announce.passGate with ⟨g, outcome⟩
    rcases hg' : s.announce.passGate with ⟨k, outcome'⟩
    rw [hg, hg'] at ho hgate
    rw [hg] at hk hsize
    obtain rfl : outcome' = outcome := ho
    cases outcome' with
    | some outcome =>
      rw [turn_held hrun hg, turn_held (hrunning.trans hrun) hg']
      exact ⟨rfl, h.shadows.of_keeps hgate hsize hk, fun hnone => by cases hnone⟩
    | none =>
      rw [if_pos rfl] at hsize
      have hreaches : Reaches safe program d old r.trace.size g k :=
        ⟨hgate, h.contained.of_keeps hk, hsize,
          fun hle => ⟨hk.pc.trans (h.early hle), (h.shadows.fresh hle).of_keeps hk⟩, fun hlt => hk.pc ▸ h.late hlt⟩
      obtain ⟨hout, hnext, hpc⟩ := hreaches.step ha
      have htrace : g.step.1.trace.size = r.trace.size + 1 := by rw [step_trace, hsize]
      have hrg := turn_passed hrun hg
      rw [hrg, turn_passed (hrunning.trans hrun) hg']
      refine ⟨hout, hnext, fun hnone => ?_⟩
      obtain ⟨index, inst, t⟩ := turn_eq_none (r := r) (hrg.trans (Prod.ext rfl hnone))
      obtain ⟨_, _, hcontained, hne, _⟩ := t.contained ha.laid h.contained
      refine ⟨hnext, hcontained, ?_, fun _ => hne⟩
      rw [htrace]
      intro hle
      exact hpc hnone hle
  · rw [turn_stopped hrun, turn_stopped (hrunning ▸ hrun)]
    exact ⟨rfl, h.shadows.say _ _, fun hnone => by cases hnone⟩

/-- A run and one that follows it end alike. -/
theorem loop (ha : Anchored safe program) (h : r.Follows safe program d old s) (budget : Nat) :
    (Run.loop budget s).2 = (Run.loop budget r).2 ∧ (Run.loop budget r).1.Shadows safe d old (Run.loop budget s).1 := by
  apply loops_agree (P := Follows safe program d old) (Q := Shadows safe d old) (F := fun _ => True) ?_ ?_ ?_ budget h
    trivial trivial
  · intro q k hq _ _
    exact hq.turn ha
  · intro q k hq
    obtain ⟨_, _, hm⟩ := hq.shadows.displaced.machine
    rw [hm]
  · intro q k hq
    obtain ⟨hd, hfresh, hready⟩ := hq.shadows.announce
    exact ⟨⟨hd.machine, congrArg (· + 1) hd.steps, hd.pending, hd.trace⟩, hfresh, hready⟩

end Follows

/-- Every turn that leads on adds a line to the trace. -/
private theorem Leads.trace_size {r r' : Run} {executed : List (Nat × Instruction)} (h : r.Leads executed r') :
    r'.trace.size = r.trace.size + executed.length := by
  induction h with
  | start => rfl
  | @turn _ index inst q q' _ t ih =>
    obtain ⟨g, hg, _, hstep⟩ := t.carried
    have hgate := q.announce.passGate_trace
    have hlast := stepAt_trace g index inst
    rw [hg, announce_trace, if_pos rfl] at hgate
    rw [hstep] at hlast
    rw [List.length_append, List.length_singleton, hlast, hgate, ih]
    omega

private theorem turn_trace (r : Run) : r.trace.size ≤ r.turn.1.trace.size := by
  by_cases hrun : r.machine.running = true
  · have hsize := r.announce.passGate_trace
    rw [announce_trace] at hsize
    rcases hg : r.announce.passGate with ⟨g, outcome⟩
    rw [hg] at hsize
    cases outcome with
    | none =>
      rw [turn_passed hrun hg, step_trace, hsize]
      exact Nat.le_add_right _ _
    | some outcome =>
      rw [turn_held hrun hg, hsize]
      exact Nat.le_add_right _ _
  · rw [turn_stopped hrun]
    exact Nat.le_refl _

/-- The end of a run has all of the trace of its first turn. -/
private theorem turn_le_loop (budget : Nat) (r : Run) :
    r.turn.1.trace.size ≤ (loop (budget + 1) r).1.trace.size := by
  rcases ht : r.turn with ⟨q, outcome⟩
  cases outcome with
  | some outcome => rw [loop_of_end ht]
  | none =>
    rw [loop_of_turn ht]
    have hgrows {k k' : Run} {outcome : Option Outcome} (hk : q.trace.size ≤ k.trace.size)
        (hturn : k.turn = (k', outcome)) : q.trace.size ≤ k'.trace.size := by
      have hle := k.turn_trace
      rw [hturn] at hle
      exact Nat.le_trans hk hle
    apply loop_shows (P := fun k => q.trace.size ≤ k.trace.size) (Q := fun k _ => q.trace.size ≤ k.trace.size)
    · intro k k' hk hturn
      exact hgrows hk hturn
    · intro k k' _ hk hturn
      exact hgrows hk hturn
    · intro k hk
      rwa [← announce_trace k] at hk
    · exact Nat.le_refl _

/-- Undisturbed, a run gets behind the initial instructions. -/
private theorem reaches_first {safe : Bool} {program : Array Instruction} (ha : Anchored safe program) {m : Machine}
    (hf : m.device.faults = []) {budget : Nat} (hb : Standard.first safe < budget) :
    Standard.first safe < ((m.load program).execute budget []).1.trace.size := by
  obtain ⟨executed, r, hr, hlen, hp, hm⟩ := leads_primed ha.laid hf
  obtain ⟨k, rfl⟩ : ∃ k, budget = k + 1 + executed.length := ⟨budget - 1 - executed.length, by omega⟩
  have hsize : r.trace.size = Standard.first safe := by
    rw [hr.trace_size, hlen]
    exact Nat.zero_add _
  have hrunning : r.machine.running = true := by rw [hm]; cases safe <;> rfl
  have hopen : r.machine.isPaused = false := by rw [hm]; cases safe <;> rfl
  have hpc : r.machine.pc = Standard.first safe := by rw [hm]; cases safe <;> rfl
  have hi : r.machine.program[Standard.first safe]? = some .setOffset := by
    rw [(hr.contained ha.laid (contained_opening safe program m [])).loaded]
    exact ha.first
  have hturn : r.turn.1.trace.size = Standard.first safe + 1 := by
    rw [turn_carries hrunning hp hopen hpc hi rfl]
    split <;> simp [passed, hsize]
  rw [ha.laid.execute_eq, hr.loop_eq]
  exact Nat.lt_of_lt_of_le (by omega) (turn_le_loop k r)

end Run

namespace Text

theorem mem_join {words : List String} {w : String} (hw : w ∈ words) {c : Char} (hc : c ∈ w.toList) :
    c ∈ (join " " words).toList := by
  induction words with
  | nil => simp at hw
  | cons first rest ih =>
    by_cases hr : rest = []
    · subst hr
      obtain rfl : w = first := by simpa using hw
      rwa [join_one]
    · rw [join_cons hr]
      rcases List.mem_cons.mp hw with rfl | hw
      · simp [hc]
      · simp [ih hw]

end Text

/-- Whether the name that an argument looks up stands in a text. -/
def Argument.StandsIn (text : List Char) (a : Argument) : Prop :=
  ∀ x, a = .operand (.named x) → ∀ c ∈ x.toList, c ∈ text

private theorem read_standsIn {text : List Char} {w : String} (h : ∀ c ∈ w.toList, c ∈ text) :
    (Argument.operand (Operand.read w)).StandsIn text := by
  intro x hx c hc
  unfold Operand.read at hx
  dsimp only at hx
  split at hx
  · simp at hx
  · obtain rfl : String.ofList (Text.trim w.toList) = x := by simpa using hx
    rw [String.toList_ofList] at hc
    exact h c (Text.mem_of_mem_trim hc)

private theorem piece_standsIn {words : List String} {w : String} (hw : w ∈ words) :
    (Argument.operand (Operand.read w)).StandsIn (Text.join " " words).toList :=
  read_standsIn fun _ hc => Text.mem_join hw hc

private theorem single_standsIn {text : List Char} {o : Operand} (h : (Argument.operand o).StandsIn text) :
    ∀ a ∈ [Argument.operand o], a.StandsIn text := by
  simpa using h

private theorem absent_standsIn (text : List Char) : (Argument.operand Operand.absent).StandsIn text := by
  have h : Operand.absent = .literal (.float (Binary64.ofInt (-1))) := by decide +kernel
  rw [h]
  intro x hx
  cases hx

/-- Whether an instruction is one of those that take values. -/
def Instruction.takesValues : Instruction → Bool
  | move _ _ _ | moveRel _ _ _ | wait _ | jump _ _ _ | setVar _ _ | varMath _ _ _ _ => true
  | _ => false

section

variable {word args : String} {inst : Instruction}

private theorem Movement.reads {make : Operand → Argument → Number → Instruction} (h : Movement word make)
    {text : List Char} {x : Operand} {y : Argument} {time : Number} (hx : (Argument.operand x).StandsIn text)
    (hy : y.StandsIn text) : (make x y time).takesValues = true ∧ ∀ a ∈ (make x y time).arguments, a.StandsIn text := by
  cases h <;> exact ⟨rfl, by simpa [Instruction.arguments] using ⟨hx, hy⟩⟩

private theorem assignment_reads {text : List Char} {left right : Operand}
    (hl : (Argument.operand left).StandsIn text) (hr : (Argument.operand right).StandsIn text) (x : String)
    (sign : MathSign) : (Standard.assignment x left right sign).takesValues = true ∧
      ∀ a ∈ (Standard.assignment x left right sign).arguments, a.StandsIn text := by
  cases sign <;> exact ⟨rfl, by simp [Standard.assignment, Instruction.arguments, hl, hr]⟩

/-- The names that a line with values looks up stand in it. -/
private theorem Documented.reads (h : Documented word args inst) :
    inst.takesValues = true ∧ ∀ a ∈ inst.arguments, a.StandsIn args.toList := by
  cases h with
  | movement hm => exact hm.reads (piece_standsIn (by simp)) (piece_standsIn (by simp))
  | timed hm => exact hm.reads (piece_standsIn (by simp)) (piece_standsIn (by simp))
  | wait => exact ⟨rfl, single_standsIn (read_standsIn fun _ hc => hc)⟩
  | jump => exact ⟨rfl, single_standsIn (absent_standsIn _)⟩
  | counted => exact ⟨rfl, single_standsIn (piece_standsIn (by simp))⟩
  | assign => exact ⟨rfl, single_standsIn (piece_standsIn (by simp))⟩
  | operate => exact assignment_reads (piece_standsIn (by simp)) (piece_standsIn (by simp)) _ _

private theorem Slip.reads (h : Slip word args inst) :
    inst.takesValues = true ∧ ∀ a ∈ inst.arguments, a.StandsIn args.toList := by
  cases h with
  | half hm => exact hm.reads (read_standsIn fun _ hc => hc) fun _ hx => by cases hx
  | nameless => exact ⟨rfl, single_standsIn (absent_standsIn _)⟩
  | dangling => exact assignment_reads (piece_standsIn (by simp)) (absent_standsIn _) _ _
  | unsigned => exact ⟨rfl, single_standsIn (piece_standsIn (by simp))⟩

end

namespace Instruction.Relative

theorem withTarget {inst : Instruction} (h : inst.Relative) (target : Int) : (inst.withTarget target).Relative := by
  constructor
  · intro x hx
    apply h.reads x
    rw [inst.arguments_withTarget] at hx
    refine hx.imp_right fun hp => ?_
    cases inst <;> simp_all [Instruction.withTarget]
  · have hs := h.stays
    cases inst <;> simp_all [Instruction.withTarget]

/-- An instruction that reads no name at all. -/
private theorem of_silent {inst : Instruction} (h : inst.arguments = []) (hp : ∀ x, inst ≠ .printVar x)
    (hs : inst ≠ .setup ∧ inst ≠ .center ∧ inst ≠ .clearOffset) : inst.Relative := by
  refine ⟨?_, hs⟩
  rintro x (hx | hx)
  · simp [h] at hx
  · exact absurd hx (hp x)

end Instruction.Relative

/-- Of the initial instructions only the one that sets the memory up does not see all places from the origin. -/
private theorem relative_of_initial {safe : Bool} {inst : Instruction} (h : inst ∈ Standard.initial safe)
    (hs : inst ≠ .setup) : inst.Relative := by
  have hcases : inst = .setup ∨ (∃ t, inst = .wait (.literal t)) ∨ inst = .safeMode true := by
    cases safe <;> simp [Standard.initial] at h <;> grind
  rcases hcases with rfl | ⟨t, rfl⟩ | rfl
  · exact absurd rfl hs
  · refine ⟨?_, by simp⟩
    rintro x (hx | hx)
    · simp [Instruction.arguments] at hx
    · cases hx
  · exact .of_silent rfl (by simp) (by simp)

private theorem dollar_of_ambient {x : String} (h : x ∈ ambientNames) : '$' ∈ x.toList := by
  have hall : ∀ name ∈ ambientNames, '$' ∈ name.toList := by decide
  exact hall x h

namespace SourceLine

variable {line : List Char} {inst : Instruction}

/-- A line without a dollar that is neither of two commands builds an instruction that sees all places from the
origin. -/
private theorem relative_of_alone (h : alone line = .ok (.instruction inst)) (hd : '$' ∉ line)
    (hc : word line ≠ "centermouse") (ho : word line ≠ "clearoffset") : inst.Relative := by
  have hdollar : '$' ∉ (rest line).toList := fun hm => hd (mem_of_mem_rest hm)
  by_cases hw : word line ∈ valued
  · obtain ⟨_, heq, hform⟩ := (alone_valued hw).mp h
    obtain rfl := Built.instruction.inj heq
    obtain ⟨hvalues, hreads⟩ := hform.elim Documented.reads Slip.reads
    constructor
    · rintro x (hx | rfl) hambient
      · exact hdollar (hreads _ hx x rfl _ (dollar_of_ambient hambient))
      · exact absurd hvalues Bool.false_ne_true
    · refine ⟨?_, ?_, ?_⟩ <;> rintro rfl <;> exact absurd hvalues Bool.false_ne_true
  · rcases alone_unvalued hw h with hbare | rfl | rfl | ⟨_, rfl⟩ | rfl | rfl
    · have hcenter : inst ≠ .center := by
        rintro rfl
        exact hc (by simpa [bare] using hbare)
      have hclear : inst ≠ .clearOffset := by
        rintro rfl
        exact ho (by simpa [bare] using hbare)
      have hall : ∀ entry ∈ bare, (∀ x, entry.2 ≠ .printVar x) ∧ entry.2 ≠ .setup := by simp [bare]
      obtain ⟨hprint, hsetup⟩ := hall _ hbare
      exact .of_silent (bare_arguments hbare) hprint ⟨hsetup, hcenter, hclear⟩
    · exact .of_silent rfl (by simp) (by simp)
    · exact .of_silent rfl (by simp) (by simp)
    · exact .of_silent rfl (by simp) (by simp)
    · refine ⟨?_, by simp⟩
      rintro x (hx | hx) hambient
      · exact hdollar (single_standsIn (absent_standsIn _) _ hx x rfl _ (dollar_of_ambient hambient))
      · cases hx
    · refine ⟨?_, by simp⟩
      rintro x (hx | hx) hambient
      · cases hx
      · obtain rfl := Instruction.printVar.inj hx
        exact hdollar (dollar_of_ambient hambient)

private theorem instruction?_label (hw : word line = "label") : instruction? line = none := by
  unfold instruction?
  cases h : alone line with
  | error fault => rfl
  | ok item =>
    obtain rfl := alone_label hw h
    rfl

private theorem instruction?_setOffset (hw : word line = "setoffset") {item : Built} (h : alone line = .ok item) :
    instruction? line = some .setOffset := by
  obtain ⟨c, values, hf, _, hb⟩ := Assembly.built_eq_ok.mp h
  change findCommand? Standard.commands (word line) = some c at hf
  rw [hw] at hf
  obtain rfl : Standard.setOffset = c := Option.some.inj hf
  obtain rfl := Except.ok.inj hb
  simp only [instruction?, h]
  rfl

end SourceLine

/-- The first command of a script. Labels in front of it name a place and do nothing. -/
def firstCommand? (source : String) : Option String :=
  ((sourceLines source).find? (word · ≠ "label")).map word

/-- Whether a script sets the origin first, and then neither puts it back, nor goes to the middle of the screen, nor
writes the dollar that stands in front of what it could read of the pointer. -/
structure SetsOrigin (source : String) : Prop where
  first : firstCommand? source = some "setoffset"
  stays : ∀ line ∈ sourceLines source, word line ≠ "centermouse" ∧ word line ≠ "clearoffset"
  blind : '$' ∉ source.toList

def Machine.startAt (m : Machine) (p : Point) : Machine :=
  { m with device := { m.device with pos := p } }

section

variable {safe : Bool} {source : String} {program : Array Instruction}

/-- The code of a script that sets its origin starts with that. -/
private theorem first_of_compile (h : (compile safe source).1 = .program program)
    (hfirst : firstCommand? source = some "setoffset") : program[Standard.first safe]? = some .setOffset := by
  obtain ⟨items, hitems, _, _, hp⟩ := compile_eq_alone.mp h
  obtain ⟨line, hfind, hw⟩ := Option.map_eq_some_iff.mp hfirst
  obtain ⟨_, labels, others, hlines, hlabels⟩ := List.find?_eq_some_iff_append.mp hfind
  have hline : alone line ∈ items.map .ok := by
    rw [← hitems, hlines]
    simp
  obtain ⟨item, _, hitem⟩ := List.mem_map.mp hline
  have hnone : labels.filterMap instruction? = [] := by
    rw [List.filterMap_eq_nil_iff]
    intro label hl
    exact instruction?_label (by simpa using hlabels label hl)
  have hcode : codeOf items = .setOffset :: others.filterMap instruction? := by
    rw [codeOf_alone hitems, hlines, List.filterMap_append, hnone, List.nil_append,
      List.filterMap_cons_some (instruction?_setOffset hw hitem.symm)]
  rw [← Array.getElem?_toList, hp, hcode, List.map_cons, Standard.first,
    List.getElem?_append_right (Nat.le_refl _), Nat.sub_self]
  rfl

theorem anchored_of_compile (h : (compile safe source).1 = .program program) (ho : SetsOrigin source) :
    Anchored safe program := by
  have hl := laid_of_compile h
  refine ⟨hl, first_of_compile h ho.first, ?_⟩
  intro index inst h0 hi
  rcases mem_of_compile h (Array.mem_of_getElem? hi) with hinitial | ⟨line, hline, built, hbuilt, hsame⟩
  · -- The one that sets the memory up stands at the start alone.
    apply relative_of_initial hinitial
    rintro rfl
    rcases hl.behind h0 hi with hplain | hsafe | ⟨_, hfits⟩
    · exact absurd hplain Bool.false_ne_true
    · cases hsafe
    · exact hfits
  · obtain ⟨hc, hclear⟩ := ho.stays line hline
    have hd : '$' ∉ line := fun hm => ho.blind (mem_of_mem_sourceLines hline hm (by decide)).1
    have hrelative := relative_of_alone hbuilt hd hc hclear
    rcases hsame with rfl | ⟨target, rfl⟩
    · exact hrelative
    · exact hrelative.withTarget target

/-- The runs of an anchored program from two places start as one that follows the other. -/
private theorem follows_opening (m : Machine) (p d : Point) (program : Array Instruction) (actions : List Action) :
    Run.Follows safe program d m.device.events (((m.startAt p).load program).opening actions)
      (((m.startAt (p.shift d)).load program).opening actions) := by
  have hfresh : (((m.startAt p).load program).opening actions).machine.Fresh := by
    intro memory hs
    cases hs
  have hmachine : (((m.startAt p).load program).opening actions).machine.Displaced d .origin m.device.events
      (((m.startAt (p.shift d)).load program).opening actions).machine :=
    ⟨(m.startAt (p.shift d)).device, ⟨rfl, rfl, rfl, #[], Array.append_empty.symm, by simp [Machine.startAt]⟩, rfl⟩
  exact ⟨⟨⟨hmachine, rfl, rfl, Array.map_empty.symm⟩, fun _ => hfresh, fun hlt => by cases hlt⟩,
    contained_opening safe program _ actions, fun _ => rfl, fun hlt => by cases hlt⟩

/-- A script that sets its origin first does the same wherever it starts, whatever the user does and whichever calls
of the device fail: from a displaced place a run ends alike, after as many steps, at the same instruction and with the
same messages, and the pointer and every place it was moved to are displaced. Once the origin has been set, so are it
and all places in the history, and all else in the memory is the same. A run that ends before leaves both memories
alike, with the origin where it always starts; undisturbed, a run does not end that early. -/
theorem anchored_script_is_displaced (h : (compile safe source).1 = .program program) (ho : SetsOrigin source)
    (m : Machine) (p d : Point) (budget : Nat) (actions : List Action) :
    let r := ((m.startAt p).load program).execute budget actions
    let s := ((m.startAt (p.shift d)).load program).execute budget actions
    (s.2 = r.2 ∧ s.1.steps = r.1.steps ∧ s.1.trace = r.1.trace.map (TraceEntry.shift d)) ∧
    (s.1.machine.pc = r.1.machine.pc ∧ s.1.machine.visits = r.1.machine.visits ∧
      s.1.machine.log = r.1.machine.log) ∧
    s.1.machine.device.pos = r.1.machine.device.pos.shift d ∧
    (∃ new, r.1.machine.device.events = m.device.events ++ new ∧
      s.1.machine.device.events = m.device.events ++ new.map (Event.shift d)) ∧
    (Standard.first safe < r.1.trace.size →
      ∃ memory, r.1.machine.store = .ready memory ∧ s.1.machine.store = .ready (memory.shift d d)) ∧
    (r.1.trace.size ≤ Standard.first safe → s.1.machine.store = r.1.machine.store ∧
      ∀ memory, r.1.machine.store = .ready memory → memory.history = [] ∧ memory.offset = .origin) ∧
    (m.device.faults = [] → actions = [] → Standard.first safe < budget → Standard.first safe < r.1.trace.size) := by
  intro r s
  have ha := anchored_of_compile h ho
  have hfollows := (follows_opening m p d program actions).loop ha budget
  rw [← ha.laid.execute_eq, ← ha.laid.execute_eq] at hfollows
  obtain ⟨houtcome, ⟨⟨device, hd, hsame⟩, hsteps, _, htrace⟩, hfresh, hready⟩ := hfollows
  have hmachine : s.1.machine = { r.1.machine with
      store := r.1.machine.store.shift d (anchor d (Standard.first safe) r.1.trace.size), device := device } := hsame
  rw [hmachine]
  refine ⟨⟨houtcome, hsteps, htrace⟩, ⟨rfl, rfl, rfl⟩, hd.pos, hd.events, ?_, ?_, ?_⟩
  · intro hlt
    obtain ⟨memory, hmemory⟩ := hready hlt
    refine ⟨memory, hmemory, ?_⟩
    rw [anchor, if_pos hlt]
    exact congrArg (Store.shift d d) hmemory
  · intro hle
    refine ⟨?_, hfresh hle⟩
    rw [anchor, if_neg (Nat.not_lt.mpr hle)]
    exact (hfresh hle).shift_store d
  · rintro hf rfl hb
    exact Run.reaches_first (m := m.startAt p) ha hf hb

end

/-- A loop that sets the origin anew in each round. -/
theorem wandering_loop_is_displaced :
    let source := "label a\nsetoffset\nmove 3 4\nmoverel 1 1\ngoback\njump a 2\nmove 3 4"
    let number (n : Int) : Operand := .literal (.float (Binary64.ofInt n))
    let away : Instruction := .move (number 3) (.operand (number 4)) (.float (.zero false))
    let aside : Instruction := .moveRel (number 1) (.operand (number 1)) (.float (.zero false))
    let body := [.setOffset, away, aside, .goBack, .jump (number 2) 2 (.named "a"), away]
    let program := (Standard.initial false ++ body).toArray
    let m : Machine := {}
    let p : Point := ⟨5, 7⟩
    let d : Point := ⟨100, -20⟩
    (compile false source).1 = .program program ∧ SetsOrigin source ∧
    (((m.startAt p).load program).execute 20 []).1.machine.device.pos = ⟨11, 15⟩ ∧
    (((m.startAt (p.shift d)).load program).execute 20 []).1.machine.device.pos = Point.shift ⟨11, 15⟩ d ∧
    ∃ memory, (((m.startAt p).load program).execute 20 []).1.machine.store = .ready memory ∧
      (((m.startAt (p.shift d)).load program).execute 20 []).1.machine.store = .ready (memory.shift d d) := by
  intro source number away aside body program m p d
  have hc : (compile false source).1 = .program program := by decide +kernel
  have ho : SetsOrigin source := ⟨by decide +kernel, by decide +kernel, by decide +kernel⟩
  have hpos : (((m.startAt p).load program).execute 20 []).1.machine.device.pos = ⟨11, 15⟩ := by decide +kernel
  have hbudget : Standard.first false < 20 := by rw [Standard.first_eq]; decide
  obtain ⟨_, _, hshift, _, hlate, _, hreached⟩ := anchored_script_is_displaced hc ho m p d 20 []
  rw [hpos] at hshift
  exact ⟨hc, ho, hpos, hshift, hlate (hreached rfl rfl hbudget)⟩

/-- A script that is stopped at its first instruction does not get to set its origin, so the offset stays in place
wherever the run starts. -/
theorem early_stop_leaves_origin :
    let program := (Standard.initial false ++ [Instruction.setOffset]).toArray
    let run (p : Point) := ((Machine.startAt {} p).load program).execute 10 [⟨.stop, some 1⟩]
    (compile false "setoffset").1 = .program program ∧ SetsOrigin "setoffset" ∧
    (run ⟨0, 0⟩).2 = .returned ∧ (run ⟨0, 0⟩).1.machine.store = .ready {} ∧
    (run ⟨5, 7⟩).2 = .returned ∧ (run ⟨5, 7⟩).1.machine.store = .ready {} ∧
    ({} : Memory).offset ≠ ({} : Memory).offset.shift ⟨5, 7⟩ := by
  intro program run
  have ho : SetsOrigin "setoffset" := ⟨by decide +kernel, by decide +kernel, by decide +kernel⟩
  exact ⟨by decide +kernel, ho, by decide +kernel, by decide +kernel, by decide +kernel, by decide +kernel, by decide⟩

end PointerScript
