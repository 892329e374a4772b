import Mathlib.Logic.Relation
import PointerScript.Proofs.ControlFlow
import PointerScript.Session.ScriptRun

/-! The control panel of a running script. As long as the user works with what the panel shows, the panel and the
machine agree on whether execution is paused, and just the button for the other state is visible. Three things turn
the state: the visible button, the pause key and a pause of the script; each does so once. -/

namespace PointerScript

namespace Panel

/-- Whether the user can see a button. The stop button is always there. -/
def shows (p : Panel) : Button → Bool
  | .pause => p.pauseVisible
  | .play => p.playVisible
  | .stop => true

theorem toggle_pauseKey (p : Panel) : p.toggle.pauseKey = p.pauseKey := by
  unfold toggle
  split <;> rfl

end Panel

namespace Machine

/-- Whether the panel lets the user do something: to press a key, to click a button that is visible, or to have a
box opened. -/
def offers (m : Machine) : Act → Bool
  | .key _ | .popup _ _ => true
  | .click button => m.panel.any (·.shows button)
  | .resume | .pause | .stop => false

/-- What can happen to a machine while a script runs: an instruction is carried out, the run keeps its books, or the
user does what the panel offers. -/
inductive Happens (m : Machine) : Machine → Prop where
  | instruction (index : Option Nat) (inst : Instruction) : Happens m (m.carryOut index inst).1
  | bookkeeping (pc : Int) (log : Log) : Happens m { m with pc := pc, log := log }
  | user {a : Act} (h : m.offers a = true) : Happens m (m.act a).1

/-- The machine with its state turned: the gate and the panel go over to the other state together, and one message
says so. -/
def turned (m : Machine) (p : Panel) : Machine :=
  { m with
    gate := some p.paused
    panel := some p.toggle
    log := m.log.push ⟨"Runtime", .info, if p.paused then "Execution resumed." else "Execution paused."⟩ }

/-- A machine in step with its panel. -/
structure InStep (m : Machine) (p : Panel) : Prop where
  panel : m.panel = some p
  hook : m.onPause = .panel
  notes : m.noteResume = false
  gate : m.gate = some (!p.paused)
  pauseShown : p.pauseVisible = !p.paused
  playShown : p.playVisible = p.paused

/-- The state of a machine turns just once by a click on the visible button or by the pause key, and by a pause of
the script if it was running. The escape key leaves the program, even where it is the pause key. -/
structure TurnsOnce (m : Machine) (p : Panel) : Prop where
  click : ∀ button, button ≠ .stop → p.shows button = true → m.act (.click button) = (m.turned p, .goOn)
  key : ∀ key, p.pauseKey = some key → key ≠ .special .escape →
    m.act (.key key) = (({ m with panel := some (p.echo key) } : Machine).turned (p.echo key), .goOn)
  pause : ∀ index, m.carryOut index .pause = (if m.isPaused then m else m.turned p, none)
  escape : (m.act (.key (.special .escape))).2 ≠ .goOn

namespace InStep

variable {m n : Machine} {p : Panel}

theorem isPaused (h : m.InStep p) : m.isPaused = p.paused := by
  rw [Machine.isPaused, h.gate]
  cases p.paused <;> rfl

/-- A machine with the same controls is in step with the panel too. -/
theorem of_controls (h : m.InStep p) (hc : n.controls = m.controls) : n.InStep p where
  panel := (congrArg Controls.panel hc).trans h.panel
  hook := (congrArg Controls.onPause hc).trans h.hook
  notes := (congrArg Controls.noteResume hc).trans h.notes
  gate := (congrArg Controls.gate hc).trans h.gate
  pauseShown := h.pauseShown
  playShown := h.playShown

/-- What the panel echoes and the boxes opened from it do not matter. -/
theorem redrawn (h : m.InStep p) (echoes : Array String) (boxes : Array (String × String)) :
    InStep { m with panel := some { p with echoes := echoes, boxes := boxes } }
      { p with echoes := echoes, boxes := boxes } :=
  ⟨rfl, h.hook, h.notes, h.gate, h.pauseShown, h.playShown⟩

theorem turned (h : m.InStep p) : (m.turned p).InStep p.toggle := by
  refine ⟨rfl, h.hook, h.notes, ?_, ?_, ?_⟩ <;> simp only [Machine.turned, Panel.toggle] <;>
    cases p.paused <;> rfl

/-- The pause button is there while the script runs. Pressing it shuts the gate, and the hook of the pause finds the
button gone. -/
theorem press_pause (h : m.InStep p) (hp : p.paused = false) : m.press p .pause = (m.turned p, .goOn) := by
  have hg : m.gate = some true := by rw [h.gate, hp]; rfl
  simp only [press, Machine.pause, hg, if_true, runPauseHook, h.hook, Machine.turned, Panel.toggle, hp,
    Bool.false_eq_true, if_false]
  rfl

/-- The play button is there while the script is paused. Pressing it opens the gate. -/
theorem press_play (h : m.InStep p) (hp : p.paused = true) : m.press p .play = (m.turned p, .goOn) := by
  have hg : m.gate = some false := by rw [h.gate, hp]; rfl
  simp only [press, Machine.resume, hg, if_true, h.notes, Machine.turned, Panel.toggle, hp,
    Bool.false_eq_true, if_false]
  rfl

/-- A pause of the script shuts an open gate and has the pause button pressed; a shut gate stays shut. -/
theorem pause_eq (h : m.InStep p) : m.pause = if m.isPaused then m else m.turned p := by
  rw [h.isPaused]
  cases hp : p.paused with
  | true =>
    have hg : m.gate = some false := by rw [h.gate, hp]; rfl
    rw [Machine.pause, hg]
    rfl
  | false =>
    have hg : m.gate = some true := by rw [h.gate, hp]; rfl
    have hv : p.pauseVisible = true := by rw [h.pauseShown, hp]; rfl
    simp only [Machine.pause, hg, if_true, runPauseHook, h.hook, h.panel, hv, Machine.turned, hp,
      Bool.false_eq_true, if_false]
    rfl

/-- The button that is visible turns the state. -/
theorem press_shown (h : m.InStep p) {button : Button} (hb : button ≠ .stop) (hs : p.shows button = true) :
    m.press p button = (m.turned p, .goOn) := by
  cases button with
  | pause =>
    apply h.press_pause
    simpa [Panel.shows, h.pauseShown] using hs
  | play =>
    apply h.press_play
    simpa [Panel.shows, h.playShown] using hs
  | stop => exact absurd rfl hb

/-- The pause key presses the button that is visible. -/
theorem press_other (h : m.InStep p) :
    m.press p (if p.paused then .play else .pause) = (m.turned p, .goOn) := by
  cases hp : p.paused with
  | true => exact h.press_play hp
  | false => exact h.press_pause hp

theorem echoed (h : m.InStep p) (key : Key) : InStep { m with panel := some (p.echo key) } (p.echo key) :=
  h.redrawn (p.echo key).echoes p.boxes

theorem answerKey_pauseKey (h : m.InStep p) {key : Key} (hk : p.pauseKey = some key) :
    m.answerKey p key = (({ m with panel := some (p.echo key) } : Machine).turned (p.echo key), .goOn) := by
  have hk' : (p.echo key).pauseKey = some key := hk
  exact (if_pos hk').trans (h.echoed key).press_other

theorem answerKey (h : m.InStep p) (key : Key) :
    ∃ q, (m.answerKey p key).1.InStep q ∧ q.pauseKey = p.pauseKey := by
  by_cases hk : p.pauseKey = some key
  · rw [h.answerKey_pauseKey hk]
    exact ⟨_, (h.echoed key).turned, Panel.toggle_pauseKey _⟩
  · have hk' : (p.echo key).pauseKey ≠ some key := hk
    rw [Machine.answerKey, if_neg hk']
    exact ⟨_, h.echoed key, rfl⟩

theorem act_click (h : m.InStep p) (button : Button) : m.act (.click button) = m.press p button := by
  simp only [act, h.panel]

theorem act_key (h : m.InStep p) (key : Key) : m.act (.key key) = m.hearKey p key := by
  simp only [act, h.panel]

/-- Leaving the program touches no controls. -/
private theorem controls_quit (m : Machine) (warning : String) : (m.quit warning).1.controls = m.controls := by
  unfold quit
  dsimp only
  split <;> rfl

private theorem quit_ends (m : Machine) (warning : String) : (m.quit warning).2 ≠ .goOn := by
  unfold quit
  dsimp only
  split <;> simp

theorem turnsOnce (h : m.InStep p) : m.TurnsOnce p where
  click := by
    intro button hb hs
    rw [h.act_click]
    exact h.press_shown hb hs
  key := by
    intro key hk he
    rw [h.act_key, hearKey, if_neg he, h.answerKey_pauseKey hk]
  pause := by
    intro index
    rw [carryOut, h.pause_eq]
  escape := by
    rw [h.act_key, hearKey, if_pos rfl]
    exact quit_ends _ _

/-- Whatever the user does with the panel, the machine stays in step with it, and the pause key stays the same. -/
theorem act (h : m.InStep p) {a : Act} (ha : m.offers a = true) :
    ∃ q, (m.act a).1.InStep q ∧ q.pauseKey = p.pauseKey := by
  cases a with
  | resume | pause | stop => cases ha
  | key key =>
    obtain ⟨q, hq, hkey⟩ := h.answerKey key
    rw [h.act_key, hearKey]
    split
    · split
      · exact ⟨q, hq.of_controls (controls_quit _ _), hkey⟩
      · exact ⟨p, h.of_controls (controls_quit m _), rfl⟩
    · exact ⟨q, hq, hkey⟩
  | click button =>
    have hs : p.shows button = true := by simpa [offers, h.panel] using ha
    rw [h.act_click]
    by_cases hb : button = .stop
    · rw [hb, press]
      exact ⟨p, h.of_controls (controls_quit m _), rfl⟩
    · rw [h.press_shown hb hs]
      exact ⟨_, h.turned, p.toggle_pauseKey⟩
  | popup text title =>
    simp only [Machine.act, h.panel]
    exact ⟨_, h.redrawn p.echoes _, rfl⟩

/-- Whatever happens, the machine stays in step with its panel. -/
theorem happens (h : m.InStep p) (ht : m.Happens n) : ∃ q, n.InStep q ∧ q.pauseKey = p.pauseKey := by
  cases ht with
  | instruction index inst =>
    by_cases hi : inst = .pause
    · rw [hi, carryOut, h.pause_eq]
      split
      · exact ⟨p, h, rfl⟩
      · exact ⟨p.toggle, h.turned, p.toggle_pauseKey⟩
    · exact ⟨p, h.of_controls (controls_carryOut hi index), rfl⟩
  | bookkeeping pc log => exact ⟨p, h.of_controls rfl, rfl⟩
  | user ha => exact h.act ha

theorem reached (h : m.InStep p) (ht : Relation.ReflTransGen Happens m n) :
    ∃ q, n.InStep q ∧ q.pauseKey = p.pauseKey := by
  induction ht with
  | refl => exact ⟨p, h, rfl⟩
  | tail _ hstep ih =>
    obtain ⟨q, hq, hk⟩ := ih
    obtain ⟨q', hq', hk'⟩ := hq.happens hstep
    exact ⟨q', hq', hk'.trans hk⟩

end InStep

/-- The machine after some actions, one after the other. -/
def acts (m : Machine) (actions : List Action) : Machine :=
  actions.foldl (fun n action => (n.act action.act).1) m

/-- Whether each of some actions is offered when its turn comes. -/
def offersAll (m : Machine) : List Action → Bool
  | [] => true
  | action :: rest => m.offers action.act && (m.act action.act).1.offersAll rest

theorem happens_say (m : Machine) (level : Level) (message : String) : m.Happens (m.say level message) :=
  .bookkeeping m.pc _

theorem reaches_acts {m : Machine} {actions : List Action} (h : m.offersAll actions = true) :
    Relation.ReflTransGen Happens m (m.acts actions) := by
  induction actions generalizing m with
  | nil => exact .refl
  | cons action rest ih =>
    obtain ⟨ha, hr⟩ := Bool.and_eq_true_iff.mp h
    exact .head (.user ha) (ih hr)

end Machine

open Machine

namespace Run

private theorem actDue_acts (steps : Nat) (m : Machine) (actions : List Action) :
    ∃ heard, actions = heard ++ (actDue steps m actions).2.1 ∧ (actDue steps m actions).1 = m.acts heard := by
  induction actions generalizing m with
  | nil => exact ⟨[], rfl, rfl⟩
  | cons action rest ih =>
    simp only [actDue]
    split
    · split
      · split
        · rename_i n he
          obtain ⟨heard, hr, hn⟩ := ih n
          refine ⟨action :: heard, by rw [List.cons_append, ← hr], ?_⟩
          rw [hn, acts, acts, List.foldl_cons, he]
        · rename_i n reaction _ he
          exact ⟨[action], rfl, by rw [acts, List.foldl_cons, he]; rfl⟩
      · exact ⟨[], rfl, rfl⟩
    · exact ⟨[], rfl, rfl⟩

private theorem actWhileShut_acts (m : Machine) (actions : List Action) :
    ∃ heard, actions = heard ++ (actWhileShut m actions).2.1 ∧ (actWhileShut m actions).1 = m.acts heard := by
  induction actions generalizing m with
  | nil => exact ⟨[], rfl, rfl⟩
  | cons action rest ih =>
    simp only [actWhileShut]
    split
    · split
      · rename_i n he
        obtain ⟨heard, hr, hn⟩ := ih n
        refine ⟨action :: heard, by rw [List.cons_append, ← hr], ?_⟩
        rw [hn, acts, acts, List.foldl_cons, he]
      · rename_i n reaction _ he
        exact ⟨[action], rfl, by rw [acts, List.foldl_cons, he]; rfl⟩
    · exact ⟨[], rfl, rfl⟩

/-- The actions that are carried out while a run passes its gate. -/
def heard (r : Run) : List Action :=
  r.pending.take (r.pending.length - r.passGate.1.pending.length)

/-- What the gate does to the machine is what the actions heard there do. -/
theorem passGate_acts (r : Run) : r.passGate.1.machine = r.machine.acts r.heard := by
  suffices h : ∃ heard, r.pending = heard ++ r.passGate.1.pending ∧
      r.passGate.1.machine = r.machine.acts heard by
    obtain ⟨heard, hp, hm⟩ := h
    have hl : r.pending.length - r.passGate.1.pending.length = heard.length := by
      rw [congrArg List.length hp, List.length_append, Nat.add_sub_cancel]
    rw [hm, Run.heard, hl, hp, List.take_left]
  obtain ⟨due, hd, hm⟩ := actDue_acts (r.steps + 1) r.machine r.pending
  rcases hdue : actDue (r.steps + 1) r.machine r.pending with ⟨m, waiting, reaction⟩
  rw [hdue] at hd hm
  obtain ⟨late, hl, hn⟩ := actWhileShut_acts m waiting
  rcases hlate : actWhileShut m waiting with ⟨n, rest, reaction', shut⟩
  rw [hlate] at hl hn
  dsimp only at hd hm hl hn
  have hboth : r.pending = (due ++ late) ++ rest := by rw [hd, hl, List.append_assoc]
  have hacts : n = r.machine.acts (due ++ late) := by rw [hn, hm, acts, acts, acts, List.foldl_append]
  simp only [passGate, hdue, hlate]
  split
  · exact ⟨due, hd, hm⟩
  · split
    · exact ⟨due ++ late, hboth, hacts⟩
    · split <;> exact ⟨due ++ late, hboth, hacts⟩

/-- Whether the user keeps to the panel during a run with a budget: at each gate that the run comes to, the actions
heard there are offered one after the other. -/
def keepsToPanel : Nat → Run → Bool
  | 0, _ => true
  | budget + 1, r =>
    (!r.machine.running || r.announce.machine.offersAll r.announce.heard) &&
      match r.turn with
      | (_, some _) => true
      | (r', none) => keepsToPanel budget r'

theorem reaches_announce (r : Run) : Relation.ReflTransGen Happens r.machine r.announce.machine := by
  unfold announce
  split
  · exact .single (happens_say _ _ _)
  · exact .refl

theorem reaches_step (g : Run) : Relation.ReflTransGen Happens g.machine g.step.1.machine := by
  rw [step_eq]
  split
  · rename_i index inst _
    cases hs : inst.stops with
    | true =>
      rw [stepAt_stops g index hs]
      exact .tail (.single (happens_say _ _ _)) (happens_say _ _ _)
    | false =>
      rw [stepAt_eq g index hs]
      have hc := Happens.instruction (m := g.machine) (some index) inst
      rcases he : g.machine.carryOut (some index) inst with ⟨m, _ | fault⟩
      · rw [he] at hc
        exact .tail (.single hc) (.bookkeeping _ _)
      · rw [he] at hc
        exact .tail (.single hc) (happens_say _ _ _)
  · split
    · exact .single (happens_say _ _ _)
    · exact .refl

theorem reaches_turn {r : Run} (h : r.machine.running = true → r.announce.machine.offersAll r.announce.heard = true) :
    Relation.ReflTransGen Happens r.machine r.turn.1.machine := by
  by_cases hr : r.machine.running = true
  · have hgate : Relation.ReflTransGen Happens r.machine r.announce.passGate.1.machine := by
      rw [passGate_acts]
      exact r.reaches_announce.trans (reaches_acts (h hr))
    rcases hg : r.announce.passGate with ⟨g, _ | outcome⟩
    · rw [hg] at hgate
      rw [turn_passed hr hg]
      exact hgate.trans g.reaches_step
    · rw [hg] at hgate
      rw [turn_held hr hg]
      exact hgate
  · rw [turn_stopped hr]
    exact .single (happens_say _ _ _)

/-- A run in which the user keeps to the panel is made of what can happen. -/
theorem reaches_loop {budget : Nat} {r : Run} (h : keepsToPanel budget r = true) :
    Relation.ReflTransGen Happens r.machine (loop budget r).1.machine := by
  induction budget generalizing r with
  | zero =>
    rw [loop_zero]
    split
    · exact r.reaches_announce
    · exact .single (happens_say _ _ _)
  | succ budget ih =>
    obtain ⟨hoffers, hrest⟩ := Bool.and_eq_true_iff.mp h
    have hturn : Relation.ReflTransGen Happens r.machine r.turn.1.machine := by
      apply reaches_turn
      intro hr
      simpa [hr] using hoffers
    rw [loop_succ]
    rcases ht : r.turn with ⟨r', _ | outcome⟩
    · rw [ht] at hturn hrest
      exact hturn.trans (ih hrest)
    · rw [ht] at hturn
      exact hturn

end Run

/-- The machine of a script run starts in step with its panel. -/
theorem ScriptRun.inStep_start (request : ScriptRequest) (device : Device) (log : Log) (program : Array Instruction) :
    (((machineFor request device log).load program).start).InStep
      { pauseKey := KeyCode.toKey? request.pauseKey, answersEscape := request.answersEscape } :=
  ⟨rfl, rfl, rfl, rfl, rfl, rfl⟩

/-- In a script run, whatever instructions are carried out and whatever the user does with the keys and with the
buttons that they see, in any order: the panel and the machine agree on whether execution is paused, the play button
is visible just then and the pause button just otherwise, and each press of the pause key, each click and each pause of
a running script turns the state once. All that a run does while the user keeps to the panel is of this kind. -/
theorem panel_tells_whether_paused {request : ScriptRequest} {program : Array Instruction} {log : Log}
    (h : compile request.safe request.source = (.program program, log)) (device : Device) :
    (∀ m, Relation.ReflTransGen Happens ((ScriptRun.machineFor request device log).load program).start m →
      ∃ p, m.panel = some p ∧ p.pauseKey = KeyCode.toKey? request.pauseKey ∧ p.paused = m.isPaused ∧
        p.playVisible = m.isPaused ∧ p.pauseVisible = !m.isPaused ∧ m.TurnsOnce p) ∧
    ∀ budget actions,
      Run.keepsToPanel budget (((ScriptRun.machineFor request device log).load program).opening actions) = true →
      Relation.ReflTransGen Happens ((ScriptRun.machineFor request device log).load program).start
        (((ScriptRun.machineFor request device log).load program).execute budget actions).1.machine := by
  have hc : (compile request.safe request.source).1 = .program program := by rw [h]
  refine ⟨?_, ?_⟩
  · intro m hm
    obtain ⟨p, hp, hk⟩ := (ScriptRun.inStep_start request device log program).reached hm
    refine ⟨p, hp.panel, hk, hp.isPaused.symm, ?_, ?_, hp.turnsOnce⟩
    · rw [hp.isPaused, hp.playShown]
    · rw [hp.isPaused, hp.pauseShown]
  · intro budget actions hkeeps
    rw [(laid_of_compile hc).execute_eq]
    exact Run.reaches_loop hkeeps

/-- A script that pauses itself: paused and resumed by the buttons before that, resumed by the space key after it, and
paused once more at its end, where it is left waiting. -/
theorem panel_tells_of_last_pause :
    let request : ScriptRequest := { source := "pause\nclick" }
    let body : List Instruction := [.pause, .leftClick]
    let program := (Standard.initial false ++ body).toArray
    let m := (ScriptRun.machineFor request {} (compile false request.source).2).load program
    let actions : List Action := [⟨.click .pause, some 2⟩, ⟨.click .play, none⟩, ⟨.key (.special .space), none⟩,
      ⟨.click .pause, some 5⟩]
    compile request.safe request.source = (.program program, (compile false request.source).2) ∧
    Run.keepsToPanel 9 (m.opening actions) = true ∧ (m.execute 9 actions).1.pending = [] ∧
    ∃ p, (m.execute 9 actions).1.machine.panel = some p ∧ p.paused = true ∧ p.playVisible = true ∧
      p.pauseVisible = false := by
  intro request body program m actions
  have hc : compile request.safe request.source = (.program program, (compile false request.source).2) := by
    apply Prod.ext
    · decide +kernel
    · rfl
  have hk : Run.keepsToPanel 9 (m.opening actions) = true := by decide +kernel
  have hp : (m.execute 9 actions).1.machine.isPaused = true := by decide +kernel
  have htells := panel_tells_whether_paused hc {}
  rw [show (ScriptRun.machineFor request {} _).load program = m from rfl] at htells
  obtain ⟨p, hpanel, _, hpaused, hplay, hpause, _⟩ := htells.1 _ (htells.2 9 actions hk)
  refine ⟨hc, hk, by decide +kernel, p, hpanel, ?_, ?_, ?_⟩
  · exact hpaused.trans hp
  · exact hplay.trans hp
  · exact hpause.trans (congrArg (!·) hp)

end PointerScript
