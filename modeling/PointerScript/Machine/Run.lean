import PointerScript.Machine.Effect
import PointerScript.Text.Split

/-! Running a loaded program.

Before each instruction the machine stops at its gate. There the step is counted against a budget,
the user's actions that are due are carried out, and while the gate is shut further actions are
awaited. -/

namespace PointerScript

inductive Button where
  | pause
  | play
  | stop
  deriving DecidableEq

inductive Act where
  | resume
  | pause
  | stop
  | key (key : Key)
  | click (button : Button)
  | popup (text title : String)
  deriving DecidableEq

namespace Button

def ofName : String → Button
  | "pause" => pause
  | "play" => play
  | _ => stop

end Button

namespace Act

def after? (word text : String) : Option String :=
  if word.toList.isPrefixOf text.toList then some (String.ofList (text.toList.drop word.length)) else none

/-- The box that a text describes: its own text, and a title after a bar. -/
def popupOf (text : String) : Act :=
  match Text.breakAt? ['|'] text.toList with
  | some (body, title) => popup (String.ofList body) (String.ofList title)
  | none => popup text "Runtime popup"

def ofText (text : String) : Act :=
  let parsed :=
    ((after? "key:" text).map fun name => key (.ofName name)) <|>
      ((after? "click:" text).map fun name => click (.ofName name)) <|>
      (after? "popup:" text).map popupOf
  parsed.getD (if text = "pause" then pause else if text = "stop" then stop else resume)

end Act

/-- An act and the step from which on it is due; an act without a step is kept for when the machine
waits at a shut gate. -/
structure Action where
  act : Act
  step : Option Int := none
  deriving DecidableEq

inductive Outcome where
  | returned
  | budget
  | paused
  | exited
  | outOfRange
  | raised (fault : Fault)
  deriving DecidableEq

/-- What an act leads to: the run goes on, the whole program is left, or a fault gets out. -/
inductive Reaction where
  | goOn
  | exit
  | fault (fault : Fault)
  deriving DecidableEq

namespace Reaction

def outcome? : Reaction → Option Outcome
  | goOn => none
  | exit => some .exited
  | fault f => some (.raised f)

end Reaction

namespace Machine

/-- Leaves the program, after a warning and a moment for it to be seen. -/
def quit (m : Machine) (warning : String) : Machine × Reaction :=
  let m := { m with log := m.log.push ⟨"Editor", .warning, warning⟩ }
  match m.device.sleepTenths 2 with
  | (device, none) => ({ m with device := device }, .exit)
  | (device, some fault) => ({ m with device := device }, .fault (.device fault))

/-- Presses a button of the panel: first the panel itself turns, then execution follows. -/
def press (m : Machine) (p : Panel) : Button → Machine × Reaction
  | .pause => (({ m with panel := some p.toggle } : Machine).pause, .goOn)
  | .play => (({ m with panel := some p.toggle } : Machine).resume, .goOn)
  | .stop => m.quit "Stop button pressed — terminating."

/-- What the listener for the pause key does: it echoes every key, and the pause key presses the
button for the other state. -/
def answerKey (m : Machine) (p : Panel) (key : Key) : Machine × Reaction :=
  let p := p.echo key
  let m := { m with panel := some p }
  if p.pauseKey = some key then m.press p (if p.paused then .play else .pause) else (m, .goOn)

/-- A key reaches the panel's listeners: one leaves the program on escape, one answers the pause key. -/
def hearKey (m : Machine) (p : Panel) (key : Key) : Machine × Reaction :=
  if key = .special .escape then
    (if p.answersEscape then (m.answerKey p key).1 else m).quit "ESC pressed — terminating."
  else m.answerKey p key

/-- Carries out an act. Keys, buttons and boxes need a panel. -/
def act (m : Machine) : Act → Machine × Reaction
  | .resume => (m.resume, .goOn)
  | .pause => (m.pause, .goOn)
  | .stop => ({ m with running := false }, .goOn)
  | .key key =>
    match m.panel with
    | some p => m.hearKey p key
    | none => (m, .goOn)
  | .click button =>
    match m.panel with
    | some p => m.press p button
    | none => (m, .goOn)
  | .popup text title =>
    match m.panel with
    | some p => ({ m with panel := some { p with boxes := p.boxes.push (text, title) } }, .goOn)
    | none => (m, .goOn)

end Machine

/-- One line of a trace: where the machine stands when it passes the gate. -/
structure TraceEntry where
  pc : Int
  pos : Point
  historySize : Nat
  callsSize : Nat
  deriving DecidableEq

/-- A run in progress: the machine, the steps counted so far, the actions to come and the trace. -/
structure Run where
  machine : Machine
  steps : Nat := 0
  pending : List Action := []
  trace : Array TraceEntry := #[]

namespace Run

def traceEntry (m : Machine) : TraceEntry :=
  match m.store with
  | .ready memory => ⟨m.pc, m.device.pos, memory.history.length, memory.calls.length⟩
  | _ => ⟨m.pc, m.device.pos, 0, 0⟩

/-- Carries out the actions that are due at a step, as long as each lets the run go on. -/
def actDue (steps : Nat) (m : Machine) : List Action → Machine × List Action × Reaction
  | [] => (m, [], .goOn)
  | action :: rest =>
    match action.step with
    | some step =>
      if step ≤ steps then
        match m.act action.act with
        | (m, .goOn) => actDue steps m rest
        | (m, reaction) => (m, rest, reaction)
      else (m, action :: rest, .goOn)
    | none => (m, action :: rest, .goOn)

/-- Carries out actions whatever their step while the gate is shut. The flag says whether the gate
was still shut when the actions ran out. -/
def actWhileShut (m : Machine) : List Action → Machine × List Action × Reaction × Bool
  | [] => (m, [], .goOn, m.isPaused)
  | action :: rest =>
    if m.isPaused then
      match m.act action.act with
      | (m, .goOn) => actWhileShut m rest
      | (m, reaction) => (m, rest, reaction, false)
    else (m, action :: rest, .goOn, false)

/-- Passes the gate, or says how the run ended there. -/
def passGate (r : Run) : Run × Option Outcome :=
  let steps := r.steps + 1
  let (m, pending, reaction) := actDue steps r.machine r.pending
  match reaction.outcome? with
  | some outcome => ({ r with machine := m, steps := steps, pending := pending }, some outcome)
  | none =>
    let (m, pending, reaction, shut) := actWhileShut m pending
    let r := { r with machine := m, steps := steps, pending := pending }
    match reaction.outcome? with
    | some outcome => (r, some outcome)
    | none =>
      if shut then (r, some .paused) else ({ r with trace := r.trace.push (traceEntry m) }, none)

/-- The index of an instruction; below zero the program counter counts from the end. -/
def fetchIndex (size : Nat) (pc : Int) : Option Nat :=
  let index := if pc < 0 then pc + size else pc
  if 0 ≤ index && index < size then some index.toNat else none

def say (r : Run) (level : Level) (message : String) : Run :=
  { r with machine := r.machine.say level message }

def finish (r : Run) : Run × Option Outcome :=
  (r.say .info "Program terminated.", some .returned)

def stepAt (r : Run) (index : Nat) (inst : Instruction) : Run × Option Outcome :=
  if inst.stops then
    (r.say .debug (inst.text 0 ++ " encountered, stopping program.")).finish
  else
    let (m, fault) := r.machine.carryOut (some index) inst
    let shown := inst.text (m.visitsAt (some index))
    let r := { r with machine := m }
    match fault with
    | some fault =>
      (r.say .critical ("Execution of " ++ shown ++ " raised an exception: " ++ fault.message),
        some .returned)
    | none =>
      let r := r.say .debug ("Executed instruction " ++ shown)
      ({ r with machine := { r.machine with pc := r.machine.pc + 1 } }, none)

def step (r : Run) : Run × Option Outcome :=
  let m := r.machine
  if m.pc ≥ m.program.size then r.finish
  else
    match fetchIndex m.program.size m.pc with
    | none => (r, some .outOfRange)
    | some index =>
      match m.program[index]? with
      | none => (r, some .outOfRange)
      | some inst => r.stepAt index inst

/-- Runs while the machine is running, with a budget of steps. -/
def loop : Nat → Run → Run × Outcome
  | budget, r =>
    if r.machine.running then
      let r := if r.machine.isPaused then r.say .debug "Execution is now waiting to be resumed." else r
      match budget with
      | 0 => ({ r with steps := r.steps + 1 }, .budget)
      | budget + 1 =>
        match r.passGate with
        | (r, some outcome) => (r, outcome)
        | (r, none) =>
          match r.step with
          | (r, some outcome) => (r, outcome)
          | (r, none) => loop budget r
    else (r.say .info "Program terminated.", .returned)

end Run

namespace Machine

/-- Gets a machine ready for a run: the counters of jumps and the memory for operands outlive the run
before. -/
def start (m : Machine) : Machine :=
  ({ m with
    store := .loose none none, past := m.scope, pc := 0, running := true, gate := some true } : Machine).say
      .info "Beginning execution"

def execute (m : Machine) (budget : Nat) (actions : List Action) : Run × Outcome :=
  if m.program.isEmpty then
    ({ machine := m.say .warning "Program does not contain any instruction.", pending := actions },
      .returned)
  else Run.loop budget { machine := m.start, pending := actions }

end Machine

end PointerScript
