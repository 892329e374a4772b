import PointerScript.Machine.Run
import PointerScript.Proofs.Effects

/-! The turns of a run. In a turn the machine passes its gate and carries out one instruction; what
happens at the gate leaves the program, its counters, the program counter and the memory alone. A run
with a budget is as many turns as it allows. -/

namespace PointerScript

namespace Machine

/-- What happens at the gate, and pausing, leave these parts of a machine alone. -/
structure Keeps (m m' : Machine) : Prop where
  program : m'.program = m.program
  visits : m'.visits = m.visits
  pc : m'.pc = m.pc
  store : m'.store = m.store
  past : m'.past = m.past
  pos : m'.device.pos = m.device.pos
  screen : m'.device.screen = m.device.screen
  events : ∃ new, m'.device.events = m.device.events ++ new ∧ ∀ e ∈ new, e.isClick = false

namespace Keeps

theorem rfl {m : Machine} : Keeps m m :=
  ⟨Eq.refl _, Eq.refl _, Eq.refl _, Eq.refl _, Eq.refl _, Eq.refl _, Eq.refl _, #[], by simp⟩

theorem trans {a b c : Machine} (hab : Keeps a b) (hbc : Keeps b c) : Keeps a c := by
  obtain ⟨old, ho, hco⟩ := hab.events
  obtain ⟨new, hn, hcn⟩ := hbc.events
  refine ⟨hbc.program.trans hab.program, hbc.visits.trans hab.visits, hbc.pc.trans hab.pc,
    hbc.store.trans hab.store, hbc.past.trans hab.past, hbc.pos.trans hab.pos,
    hbc.screen.trans hab.screen, old ++ new, ?_, ?_⟩
  · rw [hn, ho, Array.append_assoc]
  · intro e he
    exact (Array.mem_append.mp he).elim (hco e) (hcn e)

end Keeps

/-- Noting an event that is no click keeps the machine. -/
theorem keeps_note (m : Machine) {e : Event} (h : e.isClick = false) :
    Keeps m { m with device := m.device.note e } :=
  ⟨rfl, rfl, rfl, rfl, rfl, rfl, rfl, #[e], by simp [Device.note], by simp [h]⟩

theorem keeps_say (m : Machine) (level : Level) (message : String) : Keeps m (m.say level message) :=
  ⟨rfl, rfl, rfl, rfl, rfl, rfl, rfl, #[], by simp [say]⟩

/-- The gate, the panel, the log and whether the machine runs may change freely. -/
theorem keeps_idle (m : Machine) (gate : Option Bool) (running : Bool) (panel : Option Panel) (log : Log) :
    Keeps m { m with gate := gate, running := running, panel := panel, log := log } :=
  ⟨rfl, rfl, rfl, rfl, rfl, rfl, rfl, #[], by simp⟩

theorem keeps_resume (m : Machine) : Keeps m m.resume := by
  unfold resume
  split
  · refine .trans (b := { m with gate := some true }) (keeps_idle m _ _ _ _) (.trans ?_ (keeps_say _ _ _))
    split
    · exact keeps_note _ rfl
    · exact .rfl
  · exact .rfl

private theorem keeps_hook (m : Machine) : Keeps m m.runPauseHook := by
  unfold runPauseHook
  split
  · exact .rfl
  · exact keeps_note _ rfl
  · exact keeps_resume m
  · split
    · split
      · exact keeps_idle m _ _ _ _
      · exact .rfl
    · exact .rfl

theorem keeps_pause (m : Machine) : Keeps m m.pause := by
  unfold pause
  split
  · exact .trans (b := { m with gate := some false }) (keeps_idle m _ _ _ _)
      (.trans (keeps_hook _) (keeps_say _ _ _))
  · exact .rfl

/-- No instruction changes the program. -/
theorem program_carryOut (m : Machine) (index : Option Nat) (inst : Instruction) :
    (m.carryOut index inst).1.program = m.program := by
  by_cases hp : inst = .pause
  · rw [hp]
    exact m.keeps_pause.program
  · exact congrArg Controls.program (controls_carryOut hp index)

private theorem keeps_sleep (m : Machine) (t : Number) :
    Keeps m { m with device := (m.device.sleep t).1 } := by
  obtain ⟨pos, faults, events, fault, hc, hd⟩ :=
    Device.local_sleep t m.device.pos m.device.screen m.device.faults
  have hs : m.device.sleep t = _ := hd m.device rfl rfl rfl
  have hp : (m.device.sleep t).1.pos = m.device.pos := by
    unfold Device.sleep Device.perform
    (repeat' split) <;> rfl
  refine ⟨rfl, rfl, rfl, rfl, rfl, hp, ?_, events, ?_, hc.1 rfl⟩
  · rw [hs]
  · rw [hs]

private theorem keeps_quit (m : Machine) (warning : String) : Keeps m (m.quit warning).1 := by
  have hk := (keeps_idle m m.gate m.running m.panel (m.log.push ⟨"Editor", .warning, warning⟩)).trans
    (keeps_sleep _ (.float (Decimal.nearest false ⟨2, -1⟩)))
  unfold quit Device.sleepTenths
  generalize Number.float (Decimal.nearest false ⟨2, -1⟩) = t at hk ⊢
  dsimp only at hk ⊢
  generalize m.device.sleep t = result at hk ⊢
  rcases result with ⟨device, _ | fault⟩ <;> exact hk

private theorem keeps_press (m : Machine) (p : Panel) (button : Button) : Keeps m (m.press p button).1 := by
  cases button with
  | pause => exact .trans (keeps_idle m m.gate m.running (some p.toggle) m.log) (keeps_pause _)
  | play => exact .trans (keeps_idle m m.gate m.running (some p.toggle) m.log) (keeps_resume _)
  | stop =>
    simp only [press]
    exact keeps_quit m _

private theorem keeps_answerKey (m : Machine) (p : Panel) (key : Key) : Keeps m (m.answerKey p key).1 := by
  unfold answerKey
  extract_lets q n
  have hn : Keeps m n := keeps_idle m m.gate m.running (some q) m.log
  split
  · exact hn.trans (keeps_press n q _)
  · exact hn

private theorem keeps_hearKey (m : Machine) (p : Panel) (key : Key) : Keeps m (m.hearKey p key).1 := by
  have ha := m.keeps_answerKey p key
  unfold hearKey
  split
  · split
    · exact ha.trans (keeps_quit _ _)
    · exact keeps_quit m _
  · exact ha

/-- No act of the user reaches the program, the program counter or the memory. -/
theorem keeps_act (m : Machine) (a : Act) : Keeps m (m.act a).1 := by
  cases a with
  | resume => exact keeps_resume m
  | pause => exact keeps_pause m
  | stop => exact keeps_idle m m.gate false m.panel m.log
  | key key =>
    simp only [act]
    split
    · exact keeps_hearKey m _ key
    · exact .rfl
  | click button =>
    simp only [act]
    split
    · exact keeps_press m _ button
    · exact .rfl
  | popup text title =>
    simp only [act]
    split
    · exact keeps_idle m m.gate m.running _ m.log
    · exact .rfl

end Machine

namespace Act

/-- Whether an act steers the machine itself: resuming, pausing or stopping it. -/
def isControl : Act → Bool
  | resume | pause | stop => true
  | _ => false

end Act

namespace Run

theorem keeps_actDue (steps : Nat) (m : Machine) (actions : List Action) :
    m.Keeps (actDue steps m actions).1 := by
  induction actions generalizing m with
  | nil => exact .rfl
  | cons action rest ih =>
    simp only [actDue]
    split
    · split
      · have hk := m.keeps_act action.act
        split
        · rename_i n he
          exact (he ▸ hk).trans (ih n)
        · rename_i n reaction _ he
          rw [he] at hk
          exact hk
      · exact .rfl
    · exact .rfl

theorem keeps_actWhileShut (m : Machine) (actions : List Action) :
    m.Keeps (actWhileShut m actions).1 := by
  induction actions generalizing m with
  | nil => exact .rfl
  | cons action rest ih =>
    simp only [actWhileShut]
    split
    · have hk := m.keeps_act action.act
      split
      · rename_i n he
        exact (he ▸ hk).trans (ih n)
      · rename_i n reaction _ he
        rw [he] at hk
        exact hk
    · exact .rfl

/-- The gate leaves the program, the program counter and the memory alone, whatever the user does
there. -/
theorem keeps_passGate (r : Run) : r.machine.Keeps r.passGate.1.machine := by
  have hd := keeps_actDue (r.steps + 1) r.machine r.pending
  have hw := keeps_actWhileShut (actDue (r.steps + 1) r.machine r.pending).1
    (actDue (r.steps + 1) r.machine r.pending).2.1
  unfold passGate
  dsimp only
  split
  · exact hd
  · split
    · exact hd.trans hw
    · split <;> exact hd.trans hw

/-- A run that has passed its gate. -/
def passed (r : Run) : Run :=
  { r with steps := r.steps + 1, trace := r.trace.push (traceEntry r.machine) }

/-- Without actions an open gate is passed at once. -/
theorem passGate_open {r : Run} (hp : r.pending = []) (hg : r.machine.isPaused = false) :
    r.passGate = (r.passed, none) := by
  cases r
  simp_all [passGate, actDue, actWhileShut, Reaction.outcome?, passed]

/-- Without actions a shut gate is the end. -/
theorem passGate_shut {r : Run} (hp : r.pending = []) (hg : r.machine.isPaused = true) :
    r.passGate = ({ r with steps := r.steps + 1 }, some .paused) := by
  cases r
  simp_all [passGate, actDue, actWhileShut, Reaction.outcome?]

private theorem act_control (m : Machine) {a : Act} (h : a.isControl = true) : (m.act a).2 = .goOn := by
  cases a <;> first | rfl | simp [Act.isControl] at h

private theorem actDue_control (steps : Nat) (m : Machine) {actions : List Action}
    (h : ∀ a ∈ actions, a.act.isControl = true) :
    (actDue steps m actions).2.2 = .goOn ∧ ∀ a ∈ (actDue steps m actions).2.1, a.act.isControl = true := by
  induction actions generalizing m with
  | nil => simp [actDue]
  | cons action rest ih =>
    have hg := act_control m (h action (by simp))
    have hr : ∀ a ∈ rest, a.act.isControl = true := fun a ha => h a (by simp [ha])
    simp only [actDue]
    split
    · split
      · split
        · exact ih _ hr
        · rename_i reaction hne he
          rw [he] at hg
          exact absurd hg hne
      · exact ⟨rfl, h⟩
    · exact ⟨rfl, h⟩

private theorem actWhileShut_control (m : Machine) {actions : List Action}
    (h : ∀ a ∈ actions, a.act.isControl = true) :
    (actWhileShut m actions).2.2.1 = .goOn ∧
      ∀ a ∈ (actWhileShut m actions).2.1, a.act.isControl = true := by
  induction actions generalizing m with
  | nil => simp [actWhileShut]
  | cons action rest ih =>
    have hg := act_control m (h action (by simp))
    have hr : ∀ a ∈ rest, a.act.isControl = true := fun a ha => h a (by simp [ha])
    simp only [actWhileShut]
    split
    · split
      · exact ih _ hr
      · rename_i reaction hne he
        rw [he] at hg
        exact absurd hg hne
    · exact ⟨rfl, h⟩

/-- Pausing, resuming and stopping let the run through the gate or leave it waiting there. -/
theorem passGate_control {r : Run} (h : ∀ a ∈ r.pending, a.act.isControl = true) :
    (r.passGate.2 = none ∨ r.passGate.2 = some .paused) ∧
      ∀ a ∈ r.passGate.1.pending, a.act.isControl = true := by
  obtain ⟨hd, hp⟩ := actDue_control (r.steps + 1) r.machine h
  obtain ⟨hw, hq⟩ := actWhileShut_control (actDue (r.steps + 1) r.machine r.pending).1 hp
  simp only [passGate, hd, hw, Reaction.outcome?]
  split
  · exact ⟨.inr rfl, hq⟩
  · exact ⟨.inl rfl, hq⟩

/-- A run that waits at its gate says so. -/
def announce (r : Run) : Run :=
  if r.machine.isPaused then r.say .debug "Execution is now waiting to be resumed." else r

/-- The instruction at the program counter, with its index. -/
def fetch? (r : Run) : Option (Nat × Instruction) :=
  if r.machine.pc ≥ r.machine.program.size then none
  else
    (fetchIndex r.machine.program.size r.machine.pc).bind fun index =>
      r.machine.program[index]?.map fun inst => (index, inst)

/-- One turn of the loop: the run ends, or it stands before the next turn. -/
def turn (r : Run) : Run × Option Outcome :=
  if r.machine.running then
    match r.announce.passGate with
    | (g, some outcome) => (g, some outcome)
    | (g, none) => g.step
  else (r.say .info "Program terminated.", some .returned)

/-- A turn that does not end the run: an instruction was carried out. -/
structure Turn (r : Run) (index : Nat) (inst : Instruction) (r' : Run) : Prop where
  running : r.machine.running = true
  carried : ∃ g, r.announce.passGate = (g, none) ∧ g.fetch? = some (index, inst) ∧
    g.stepAt index inst = (r', none)

/-- The runs that turns lead to, each with the instructions carried out on the way, the last one at
the end. These are the runs at the heads of the loop. -/
inductive Leads (r : Run) : List (Nat × Instruction) → Run → Prop where
  | start : Leads r [] r
  | turn {executed index inst r' r''} (h : Leads r executed r') (t : r'.Turn index inst r'') :
      Leads r (executed ++ [(index, inst)]) r''

theorem keeps_announce (r : Run) : r.machine.Keeps r.announce.machine := by
  unfold announce
  split
  · exact r.machine.keeps_say _ _
  · exact .rfl

theorem announce_pending (r : Run) : r.announce.pending = r.pending := by
  unfold announce
  split <;> rfl

theorem loop_zero (r : Run) : loop 0 r =
    if r.machine.running then ({ r.announce with steps := r.announce.steps + 1 }, .budget)
    else (r.say .info "Program terminated.", .returned) := by
  rw [loop]
  rfl

/-- A run with a budget takes one turn and goes on with what is left of the budget. -/
theorem loop_succ (budget : Nat) (r : Run) : loop (budget + 1) r =
    match r.turn with
    | (r', some outcome) => (r', outcome)
    | (r', none) => loop budget r' := by
  rw [loop]
  unfold turn
  split
  · change (match r.announce.passGate with | (g, some outcome) => (g, outcome) | (g, none) => _) = _
    rcases r.announce.passGate with ⟨g, _ | outcome⟩ <;> rfl
  · rfl

theorem turn_stopped {r : Run} (h : r.machine.running ≠ true) :
    r.turn = (r.say .info "Program terminated.", some .returned) := by
  rw [turn, if_neg h]

theorem turn_passed {r g : Run} (hr : r.machine.running = true) (hg : r.announce.passGate = (g, none)) :
    r.turn = g.step := by
  rw [turn, if_pos hr, hg]

theorem turn_held {r g : Run} {outcome : Outcome} (hr : r.machine.running = true)
    (hg : r.announce.passGate = (g, some outcome)) : r.turn = (g, some outcome) := by
  rw [turn, if_pos hr, hg]

theorem loop_of_turn {r r' : Run} (h : r.turn = (r', none)) (budget : Nat) :
    loop (budget + 1) r = loop budget r' := by
  rw [loop_succ, h]

theorem loop_of_end {r r' : Run} {outcome : Outcome} (h : r.turn = (r', some outcome)) (budget : Nat) :
    loop (budget + 1) r = (r', outcome) := by
  rw [loop_succ, h]

/-- What every turn keeps and every end shows holds of the end of a run, whatever its budget. -/
theorem loop_shows {P : Run → Prop} {Q : Run → Outcome → Prop}
    (turns : ∀ r r', P r → r.turn = (r', none) → P r')
    (ends : ∀ r r' outcome, P r → r.turn = (r', some outcome) → Q r' outcome)
    (cut : ∀ r, P r → Q { r.announce with steps := r.announce.steps + 1 } .budget)
    (budget : Nat) {r : Run} (h : P r) : Q (loop budget r).1 (loop budget r).2 := by
  induction budget generalizing r with
  | zero =>
    rw [loop_zero]
    split
    · exact cut r h
    · rename_i hn
      exact ends r _ .returned h (by rw [turn, if_neg hn])
  | succ budget ih =>
    rw [loop_succ]
    rcases ht : r.turn with ⟨r', _ | outcome⟩
    · exact ih (turns r r' h ht)
    · exact ends r r' outcome h ht

/-- What holds of two runs and lasts turn by turn holds of their ends, and they end alike. Only turns need to be
looked at whose end, if they end the run, is fine, where the ends of both runs are known to be. -/
theorem loops_agree {P Q : Run → Run → Prop} {F : Outcome → Prop}
    (turns : ∀ r s, P r s → (∀ o, r.turn.2 = some o → F o) → (∀ o, s.turn.2 = some o → F o) →
      s.turn.2 = r.turn.2 ∧ Q r.turn.1 s.turn.1 ∧ (r.turn.2 = none → P r.turn.1 s.turn.1))
    (running : ∀ r s, P r s → s.machine.running = r.machine.running)
    (cut : ∀ r s, P r s →
      Q { r.announce with steps := r.announce.steps + 1 } { s.announce with steps := s.announce.steps + 1 })
    (budget : Nat) {r s : Run} (h : P r s) (hr : F (loop budget r).2) (hs : F (loop budget s).2) :
    (loop budget s).2 = (loop budget r).2 ∧ Q (loop budget r).1 (loop budget s).1 := by
  induction budget generalizing r s with
  | zero =>
    rw [loop_zero] at hr
    rw [loop_zero r, loop_zero s, running r s h]
    by_cases hrun : r.machine.running = true
    · rw [if_pos hrun, if_pos hrun]
      exact ⟨rfl, cut r s h⟩
    · -- A run that has been stopped ends by the turn that it would take.
      rw [if_neg hrun] at hr
      have hends := turns r s h
      rw [turn_stopped hrun, turn_stopped (running r s h ▸ hrun)] at hends
      rw [if_neg hrun, if_neg hrun]
      refine ⟨rfl, (hends ?_ ?_).2.1⟩
      · intro o ho
        exact Option.some.inj ho ▸ hr
      · intro o ho
        exact Option.some.inj ho ▸ hr
  | succ budget ih =>
    rw [loop_succ] at hr hs
    have hfine (q : Run) (hq : F (match q.turn with
        | (q', some outcome) => (q', outcome)
        | (q', none) => loop budget q').2) : ∀ o, q.turn.2 = some o → F o := by
      intro o ho
      rcases ht : q.turn with ⟨q', outcome⟩
      rw [ht] at hq ho
      obtain rfl : outcome = some o := ho
      exact hq
    obtain ⟨ho, hq, hnext⟩ := turns r s h (hfine r hr) (hfine s hs)
    rw [loop_succ, loop_succ]
    rcases hrt : r.turn with ⟨r', outcome⟩
    rcases hst : s.turn with ⟨s', outcome'⟩
    rw [hrt, hst] at ho hq hnext
    rw [hrt] at hr
    rw [hst] at hs
    obtain rfl : outcome' = outcome := ho
    cases outcome' with
    | some outcome => exact ⟨rfl, hq⟩
    | none => exact ih (hnext rfl) hr hs

theorem step_eq (g : Run) : g.step =
    match g.fetch? with
    | some (index, inst) => g.stepAt index inst
    | none => if g.machine.pc ≥ g.machine.program.size then g.finish else (g, some .outOfRange) := by
  unfold step fetch?
  dsimp only
  split
  · rfl
  · cases fetchIndex g.machine.program.size g.machine.pc with
    | none => rfl
    | some index => cases hi : g.machine.program[index]? <;> simp [hi]

/-- The machine after an instruction went well: it says so and stands at the next one. -/
def advanced (m : Machine) (index : Nat) (inst : Instruction) : Machine :=
  { m.say .debug ("Executed instruction " ++ inst.text (m.visitsAt (some index))) with pc := m.pc + 1 }

/-- The machine after an instruction failed. -/
def failed (m : Machine) (index : Nat) (inst : Instruction) (fault : Fault) : Machine :=
  m.say .critical
    ("Execution of " ++ inst.text (m.visitsAt (some index)) ++ " raised an exception: " ++ fault.message)

theorem stepAt_eq (g : Run) (index : Nat) {inst : Instruction} (hs : inst.stops = false) :
    g.stepAt index inst =
      match g.machine.carryOut (some index) inst with
      | (m, some fault) => ({ g with machine := failed m index inst fault }, some .returned)
      | (m, none) => ({ g with machine := advanced m index inst }, none) := by
  unfold stepAt
  rw [if_neg (by simp [hs])]
  rcases g.machine.carryOut (some index) inst with ⟨m, _ | fault⟩ <;> rfl

theorem stepAt_stops (g : Run) (index : Nat) {inst : Instruction} (hs : inst.stops = true) :
    g.stepAt index inst =
      ((g.say .debug (inst.text 0 ++ " encountered, stopping program.")).finish) := by
  unfold stepAt
  rw [if_pos hs]

theorem fetch?_congr {r g : Run} (h : r.machine.Keeps g.machine) : g.fetch? = r.fetch? := by
  simp only [fetch?, h.pc, h.program]

private theorem fetchIndex_cast {size index : Nat} (h : index < size) : fetchIndex size index = some index := by
  have h0 : ¬ (index : Int) < 0 := by omega
  simp only [fetchIndex, if_neg h0]
  simp [h]

theorem fetch?_of_nonneg {r : Run} {index : Nat} {inst : Instruction} (hpc : r.machine.pc = index)
    (hi : r.machine.program[index]? = some inst) : r.fetch? = some (index, inst) := by
  obtain ⟨hlt, he⟩ := Array.getElem?_eq_some_iff.mp hi
  simp [fetch?, hpc, fetchIndex_cast hlt, hlt, he]

/-- From zero on the program counter is the index of what is fetched. -/
theorem pc_of_fetch? {r : Run} {index : Nat} {inst : Instruction} (h0 : 0 ≤ r.machine.pc)
    (hf : r.fetch? = some (index, inst)) :
    r.machine.pc = index ∧ r.machine.program[index]? = some inst := by
  obtain ⟨n, hn⟩ := Int.eq_ofNat_of_zero_le h0
  unfold fetch? at hf
  rw [hn] at hf ⊢
  split at hf
  · simp at hf
  · rename_i hlt
    rw [fetchIndex_cast (by omega)] at hf
    simp only [Option.bind_some, Option.map_eq_some_iff, Prod.mk.injEq] at hf
    obtain ⟨a, ha, rfl, rfl⟩ := hf
    exact ⟨rfl, ha⟩

/-- What a turn does to the machine: the gate keeps it, one instruction changes it, and the program
counter advances. -/
theorem Turn.carries {r r' : Run} {index : Nat} {inst : Instruction} (t : r.Turn index inst r') :
    r.fetch? = some (index, inst) ∧ inst.stops = false ∧ ∃ m m', r.machine.Keeps m ∧
      m.carryOut (some index) inst = (m', none) ∧ r'.machine = advanced m' index inst := by
  obtain ⟨g, hg, hf, hs⟩ := t.carried
  have hk : r.machine.Keeps g.machine := by
    have hp := r.announce.keeps_passGate
    rw [hg] at hp
    exact r.keeps_announce.trans hp
  refine ⟨(fetch?_congr hk).symm.trans hf, ?_⟩
  cases ht : inst.stops with
  | true =>
    rw [stepAt_stops g index ht] at hs
    simp [finish] at hs
  | false =>
    rw [stepAt_eq g index ht] at hs
    rcases hc : g.machine.carryOut (some index) inst with ⟨m', _ | fault⟩
    · rw [hc] at hs
      simp only [Prod.mk.injEq, and_true] at hs
      exact ⟨rfl, g.machine, m', hk, hc, by rw [← hs]⟩
    · rw [hc] at hs
      simp at hs

/-- The actions left after a turn are among those before it. -/
theorem Turn.control {r r' : Run} {index : Nat} {inst : Instruction} (t : r.Turn index inst r')
    (h : ∀ a ∈ r.pending, a.act.isControl = true) : ∀ a ∈ r'.pending, a.act.isControl = true := by
  obtain ⟨_, hs, _⟩ := t.carries
  obtain ⟨g, hg, _, hstep⟩ := t.carried
  have hp := (passGate_control (r := r.announce) (by simpa only [announce_pending] using h)).2
  rw [hg] at hp
  rw [stepAt_eq g index hs] at hstep
  rcases hc : g.machine.carryOut (some index) inst with ⟨m', _ | fault⟩
  · rw [hc] at hstep
    simp only [Prod.mk.injEq, and_true] at hstep
    subst hstep
    exact hp
  · rw [hc] at hstep
    simp at hstep

theorem turn_eq_none {r r' : Run} (h : r.turn = (r', none)) : ∃ index inst, r.Turn index inst r' := by
  unfold turn at h
  split at h
  · rename_i hr
    rcases hg : r.announce.passGate with ⟨g, _ | outcome⟩
    · rw [hg] at h
      change g.step = _ at h
      rw [step_eq] at h
      cases hf : g.fetch? with
      | some fetched =>
        rw [hf] at h
        exact ⟨fetched.1, fetched.2, hr, g, hg, hf, h⟩
      | none =>
        rw [hf] at h
        dsimp only at h
        split at h <;> simp [finish] at h
    · rw [hg] at h
      simp at h
  · simp at h

/-- A turn that does not end the run carries out what stands at the program counter. -/
theorem turn_of_fetch {r : Run} {index : Nat} {inst : Instruction} (h : r.turn.2 = none)
    (hf : r.fetch? = some (index, inst)) : r.Turn index inst r.turn.1 := by
  obtain ⟨i, other, t⟩ := turn_eq_none (Prod.ext rfl h)
  obtain ⟨rfl, rfl⟩ : i = index ∧ other = inst := by simpa [hf, eq_comm] using t.carries.1
  exact t

theorem Turn.turn_eq {r r' : Run} {index : Nat} {inst : Instruction} (t : r.Turn index inst r') :
    r.turn = (r', none) := by
  obtain ⟨g, hg, hf, hs⟩ := t.carried
  rw [turn, if_pos t.running, hg]
  change g.step = _
  rw [step_eq, hf]
  exact hs

/-- A turn behind a passed gate at an instruction that does not stop the run. -/
theorem turn_at {r g : Run} {index : Nat} {inst : Instruction} (hr : r.machine.running = true)
    (hg : r.announce.passGate = (g, none)) (hf : g.fetch? = some (index, inst)) (hs : inst.stops = false) :
    r.turn =
      match g.machine.carryOut (some index) inst with
      | (m, some fault) => ({ g with machine := failed m index inst fault }, some .returned)
      | (m, none) => ({ g with machine := advanced m index inst }, none) := by
  rw [turn, if_pos hr, hg]
  change g.step = _
  rw [step_eq, hf]
  exact stepAt_eq g index hs

/-- An instruction that goes well behind a passed gate takes a turn. -/
theorem turn_of_carryOut {r g : Run} {index : Nat} {inst : Instruction} {n : Machine}
    (hr : r.machine.running = true) (hg : r.announce.passGate = (g, none)) (hf : g.fetch? = some (index, inst))
    (hs : inst.stops = false) (hc : g.machine.carryOut (some index) inst = (n, none)) :
    r.Turn index inst { g with machine := advanced n index inst } := by
  refine ⟨hr, g, hg, hf, ?_⟩
  rw [stepAt_eq g index hs, hc]

/-- Without actions a run at a shut gate ends there. -/
theorem turn_shut {r : Run} (hr : r.machine.running = true) (hp : r.pending = [])
    (hg : r.machine.isPaused = true) :
    r.turn = ({ r.announce with steps := r.announce.steps + 1 }, some .paused) := by
  have hm : r.announce.machine.isPaused = true := by rw [announce, if_pos hg]; exact hg
  rw [turn, if_pos hr, passGate_shut ((announce_pending r).trans hp) hm]

section

variable {r : Run} (hr : r.machine.running = true) (hp : r.pending = []) (hg : r.machine.isPaused = false)
include hr hp hg

private theorem turn_open : r.turn = r.passed.step := by
  have ha : r.announce = r := by rw [announce, if_neg (by simp [hg])]
  rw [turn, if_pos hr, ha, passGate_open hp hg]

/-- Without actions a run behind the last instruction ends. -/
theorem turn_past (hpc : r.machine.pc = r.machine.program.size) :
    r.turn = (r.passed.say .info "Program terminated.", some .returned) := by
  have hend : r.passed.machine.pc ≥ r.passed.machine.program.size := Int.le_of_eq hpc.symm
  rw [turn_open hr hp hg, step]
  simp only [if_pos hend]
  rfl

variable {index : Nat} {inst : Instruction} (hpc : r.machine.pc = index)
  (hi : r.machine.program[index]? = some inst)
include hpc hi

/-- Without actions a run at an instruction that stops it ends. -/
theorem turn_stops (hs : inst.stops = true) :
    r.turn = ((r.passed.say .debug (inst.text 0 ++ " encountered, stopping program.")).say .info
      "Program terminated.", some .returned) := by
  have hf : r.passed.fetch? = some (index, inst) := fetch?_of_nonneg hpc hi
  rw [turn_open hr hp hg, step_eq, hf]
  exact stepAt_stops _ index hs

/-- Without actions a run carries out what stands at the program counter. -/
theorem turn_carries (hs : inst.stops = false) :
    r.turn =
      match r.machine.carryOut (some index) inst with
      | (m, some fault) => ({ r.passed with machine := failed m index inst fault }, some .returned)
      | (m, none) => ({ r.passed with machine := advanced m index inst }, none) := by
  have hf : r.passed.fetch? = some (index, inst) := fetch?_of_nonneg hpc hi
  rw [turn_open hr hp hg, step_eq, hf]
  exact stepAt_eq _ index hs

end

/-- How a run ends in a step: out of range, normally, or at an instruction that failed. -/
private theorem step_eq_some {g r' : Run} {outcome : Outcome} (h : g.step = (r', some outcome)) :
    (g.fetch? = none ∧ g.machine.pc < g.machine.program.size ∧ outcome = .outOfRange ∧ r' = g) ∨
    (outcome = .returned ∧ g.machine.Keeps r'.machine) ∨
    ∃ index inst m fault, g.fetch? = some (index, inst) ∧ inst.stops = false ∧
      g.machine.carryOut (some index) inst = (m, some fault) ∧ outcome = .returned ∧
      r' = { g with machine := failed m index inst fault } := by
  rw [step_eq] at h
  cases hf : g.fetch? with
  | none =>
    rw [hf] at h
    dsimp only at h
    split at h
    · simp only [finish, Prod.mk.injEq, Option.some.injEq] at h
      obtain ⟨rfl, rfl⟩ := h
      exact .inr (.inl ⟨rfl, g.machine.keeps_say _ _⟩)
    · simp only [Prod.mk.injEq, Option.some.injEq] at h
      obtain ⟨rfl, rfl⟩ := h
      exact .inl ⟨rfl, by omega, rfl, rfl⟩
  | some fetched =>
    obtain ⟨index, inst⟩ := fetched
    rw [hf] at h
    dsimp only at h
    cases ht : inst.stops with
    | true =>
      rw [stepAt_stops g index ht] at h
      simp only [finish, Prod.mk.injEq, Option.some.injEq] at h
      obtain ⟨rfl, rfl⟩ := h
      exact .inr (.inl ⟨rfl, (g.machine.keeps_say _ _).trans (Machine.keeps_say _ _ _)⟩)
    | false =>
      rw [stepAt_eq g index ht] at h
      rcases hc : g.machine.carryOut (some index) inst with ⟨m, _ | fault⟩
      · rw [hc] at h
        simp at h
      · rw [hc] at h
        simp only [Prod.mk.injEq, Option.some.injEq] at h
        obtain ⟨rfl, rfl⟩ := h
        exact .inr (.inr ⟨index, inst, m, fault, rfl, ht, hc, rfl, rfl⟩)

/-- How a run ends in a turn: it was stopped before, or it waits at the gate, or the step ends it. -/
theorem turn_eq_some {r r' : Run} {outcome : Outcome} (h : r.turn = (r', some outcome)) :
    (r.machine.running = false ∧ outcome = .returned ∧ r' = r.say .info "Program terminated.") ∨
    r.announce.passGate = (r', some outcome) ∨
    ∃ g, r.announce.passGate = (g, none) ∧ r.machine.Keeps g.machine ∧
      ((g.fetch? = none ∧ g.machine.pc < g.machine.program.size ∧ outcome = .outOfRange ∧ r' = g) ∨
        (outcome = .returned ∧ g.machine.Keeps r'.machine) ∨
        ∃ index inst m fault, g.fetch? = some (index, inst) ∧ inst.stops = false ∧
          g.machine.carryOut (some index) inst = (m, some fault) ∧ outcome = .returned ∧
          r' = { g with machine := failed m index inst fault }) := by
  unfold turn at h
  split at h
  · have hp := r.keeps_announce.trans r.announce.keeps_passGate
    rcases hg : r.announce.passGate with ⟨g, _ | o⟩
    · rw [hg] at h hp
      exact .inr (.inr ⟨g, rfl, hp, step_eq_some h⟩)
    · rw [hg] at h
      exact .inr (.inl h)
  · rename_i hn
    simp only [Prod.mk.injEq, Option.some.injEq] at h
    exact .inl ⟨by simpa using hn, h.2.symm, h.1.symm⟩

/-- The runs that turns lead to are those that the loop goes on with. -/
theorem Leads.loop_eq {r r' : Run} {executed : List (Nat × Instruction)} (h : r.Leads executed r')
    (budget : Nat) : loop (budget + executed.length) r = loop budget r' := by
  induction h generalizing budget with
  | start => rfl
  | turn _ t ih =>
    rw [List.length_append, List.length_singleton, Nat.add_comm _ 1, ← Nat.add_assoc, ih,
      loop_of_turn t.turn_eq]

/-- What the gate keeps, and what instructions keep that go well, holds at the end of a run. An instruction that fails
may leave less of it. -/
theorem loop_carries {P Q : Machine → Prop} (kept : ∀ m n : Machine, m.Keeps n → P m → P n)
    (left : ∀ m n : Machine, m.Keeps n → Q m → Q n) (weaker : ∀ m, P m → Q m)
    (carries : ∀ (g : Run) index inst n fault, P g.machine → g.fetch? = some (index, inst) →
      g.machine.carryOut (some index) inst = (n, fault) → Q n ∧ (fault = none → P (advanced n index inst)))
    (budget : Nat) {r : Run} (h : P r.machine) : Q (loop budget r).1.machine := by
  refine @loop_shows (fun q => P q.machine) (fun q _ => Q q.machine) ?_ ?_ ?_ budget r h
  · intro q q' hq ht
    obtain ⟨index, inst, t⟩ := turn_eq_none ht
    obtain ⟨hf, _, m, n, hk, hc, he⟩ := t.carries
    rw [he]
    have hfetch : ({ q with machine := m } : Run).fetch? = some (index, inst) := (fetch?_congr hk).trans hf
    exact (carries { q with machine := m } index inst n none (kept _ _ hk hq) hfetch hc).2 rfl
  · intro q q' outcome hq ht
    rcases turn_eq_some ht with ⟨_, _, rfl⟩ | hg |
      ⟨g, _, hk, ⟨_, _, _, rfl⟩ | ⟨_, hk'⟩ | ⟨index, inst, n, fault, hf, _, hc, _, rfl⟩⟩
    · exact left _ _ (q.machine.keeps_say _ _) (weaker _ hq)
    · have hk := q.keeps_announce.trans q.announce.keeps_passGate
      rw [hg] at hk
      exact left _ _ hk (weaker _ hq)
    · exact left _ _ hk (weaker _ hq)
    · exact left _ _ (hk.trans hk') (weaker _ hq)
    · exact left _ _ (n.keeps_say _ _) (carries g index inst n (some fault) (kept _ _ hk hq) hf hc).1
  · intro q hq
    exact left _ _ q.keeps_announce (weaker _ hq)

end Run

namespace Machine

/-- The first loop head of an execution. -/
def opening (m : Machine) (actions : List Action) : Run :=
  { machine := m.start, pending := actions }

/-- Executing a program that is not empty is looping from its opening. -/
theorem execute_eq {m : Machine} (h : 0 < m.program.size) (budget : Nat) (actions : List Action) :
    m.execute budget actions = Run.loop budget (m.opening actions) := by
  have he : m.program.isEmpty = false := by simp only [Array.isEmpty, decide_eq_false_iff_not]; omega
  simp only [execute, he, Bool.false_eq_true, if_false]
  rfl

end Machine

end PointerScript
