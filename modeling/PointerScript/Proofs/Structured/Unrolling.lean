import PointerScript.Proofs.Structured.Count
import PointerScript.Proofs.Structured.Execution

/-! Loops and functions mean what they say: a structured script does what it does with its loops and
calls written out. -/

namespace PointerScript

namespace Machine

/-- What is left when instructions have been performed and the run has said how it ended. -/
def conclude (m : Machine) (code : List Instruction) : Machine :=
  match m.perform code with
  | (n, none) => n.say .info "Program terminated."
  | (n, some (inst, fault)) =>
    n.say .critical ("Execution of " ++ inst.text 0 ++ " raised an exception: " ++ fault.message)

/-- Whether the last that a machine has shown is that its program is over. -/
def endedNormally (m : Machine) : Prop :=
  m.shown.back? = some ⟨"Runtime", .info, "Program terminated."⟩

private theorem shown_advanced (m : Machine) (index : Nat) (inst : Instruction) :
    (Run.advanced m index inst).shown = m.shown :=
  m.shown_debug _

private theorem shown_settled (m : Machine) (program : Array Instruction) :
    (m.settled program).shown = (m.say .info "Beginning execution").shown :=
  (shown_advanced _ _ _).trans (shown_advanced _ _ _)

/-- Behind the initial instructions the machine is the same whatever the program. -/
private theorem primed_mirrors (m : Machine) (safe : Bool) (program other : Array Instruction) :
    (m.primed safe program).Mirrors (m.primed safe other) := by
  have hs := (m.shown_settled program).trans (m.shown_settled other).symm
  cases safe with
  | false => exact ⟨rfl, ⟨{}, {}, rfl, rfl, rfl⟩, hs⟩
  | true =>
    refine ⟨rfl, ⟨_, _, rfl, rfl, rfl⟩, ?_⟩
    exact (shown_advanced _ _ _).trans ((shown_say hs _ _).trans (shown_advanced _ _ _).symm)

end Machine

theorem standing_primed (m : Machine) {safe : Bool} {program : Array Instruction} {r : Run}
    (hp : r.pending = []) (hm : r.machine = m.primed safe program) :
    Standing program (Standard.first safe) (Array.replicate program.size 0) [] r (m.primed safe #[]) := by
  have hmirrors := m.primed_mirrors safe program #[]
  rw [← hm] at hmirrors
  refine ⟨?_, ?_, ?_, hp, ?_, ?_, ?_, hmirrors⟩ <;> rw [hm] <;> cases safe <;> rfl

/-- The last message shown is the one said last. -/
private theorem back_shown_say (m : Machine) {level : Level} (h : level ≠ .debug) (message : String) :
    (m.say level message).shown.back? = some ⟨"Runtime", level, message⟩ := by
  simp [Machine.shown, Machine.say, h]

namespace Script

variable {s : Script}

/-- A structured script performs its commands with all loops and calls written out, and returns. If it
ends normally, all counters are zero and no call is open. -/
theorem Structured.execute (h : s.Structured) (hb : s.CommandsBuild) {safe : Bool} {program : Array Instruction}
    (hc : (compile safe s.source).1 = .program program) {m : Machine} (hf : m.device.faults = []) :
    ∃ (steps : Nat) (r : Run), (∀ budget, (m.load program).execute (budget + steps) [] = (r, .returned)) ∧
      r.machine.Mirrors
        ((m.primed safe #[]).conclude ((s.main.flat (s.inlined s.functions.length)).map instructionOf)) ∧
      (r.machine.endedNormally → (∀ v ∈ r.machine.visits, v = 0) ∧ r.machine.openCalls = []) := by
  obtain ⟨other, entry, hother, hl⟩ := h.compiles hb safe
  obtain rfl : program = other := by simpa [hc] using hother
  obtain ⟨r, hp, hm, _, hloop⟩ := Machine.execute_primed (laid_of_compile hc) hf
  have hperform := h.main_performs hb hl (standing_primed m hp hm)
  rw [Performs] at hperform
  rw [Machine.conclude]
  generalize (m.primed safe #[]).perform ((s.main.flat (s.inlined s.functions.length)).map instructionOf) =
    result at hperform ⊢
  rcases result with ⟨n, _ | ⟨inst, fault⟩⟩
  · obtain ⟨r', hgoes, hst⟩ := hperform
    have hend := hl.main.right
    rw [Block.length_code] at hend
    have hstops := Run.turn_stops hst.running hst.pending hst.free hst.pc (hst.loaded ▸ hend.head) rfl
    obtain ⟨steps, hsteps⟩ := (hgoes.stops (Run.stops_of_turn hstops)).returns hloop
    refine ⟨steps, _, hsteps, ?_, fun _ => ⟨?_, hst.calls⟩⟩
    · exact ⟨hst.mirrors.device, hst.mirrors.memory,
        Machine.shown_say ((Machine.shown_debug _ _).trans hst.mirrors.shown) _ _⟩
    · change ∀ v ∈ r'.machine.visits, v = 0
      rw [hst.visits]
      simp
  · obtain ⟨r', hstops, hmirrors⟩ := hperform
    obtain ⟨steps, hsteps⟩ := hstops.returns hloop
    refine ⟨steps, r', hsteps, hmirrors, fun hnormal => ?_⟩
    rw [Machine.endedNormally, hmirrors.shown, back_shown_say n (by decide)] at hnormal
    simp [Level.critical, Level.info] at hnormal

/-- The commands of the unrolled script are commands of the script. -/
theorem CommandsBuild.unrolled (hb : s.CommandsBuild) : s.unrolled.CommandsBuild := by
  rw [CommandsBuild, blocks_unrolled, List.forall_mem_map]
  intro block hm
  rw [unroll, Block.commands_ofCommands]
  exact Block.forall_mem_flat (hb block hm) (forall_mem_inlined hb _)

end Script

/-- Loops and functions of a structured script mean what they say. Without actions and faults, the
script and the script with its loops and calls written out both return, with the same device, the same
variables, offset and history and the same messages, the one of a failure among them. If the script
ends normally, all counters of jumps are zero and no call is open. -/
theorem structured_script_does_as_unrolled {s : Script} (h : s.Structured) {safe : Bool}
    {program : Array Instruction} (hc : (compile safe s.source).1 = .program program) (m : Machine)
    (hf : m.device.faults = []) :
    ∃ flat, (compile safe s.unrolled.source).1 = .program flat ∧ ∃ steps, ∀ budget, steps ≤ budget →
      let rolled := (m.load program).execute budget []
      let unrolled := (m.load flat).execute budget []
      rolled.2 = .returned ∧ unrolled.2 = .returned ∧
      rolled.1.machine.device = unrolled.1.machine.device ∧
      (∃ a b, rolled.1.machine.store = .ready a ∧ unrolled.1.machine.store = .ready b ∧
        a.vars = b.vars ∧ a.offset = b.offset ∧ a.history = b.history) ∧
      rolled.1.machine.shown = unrolled.1.machine.shown ∧
      (rolled.1.machine.endedNormally →
        (∀ v ∈ rolled.1.machine.visits, v = 0) ∧ rolled.1.machine.openCalls = []) := by
  have hb := h.commandsBuild hc
  obtain ⟨flat, _, hflat, _⟩ := h.unrolled.compiles hb.unrolled safe
  obtain ⟨k, r, hr, hrolled, hnormal⟩ := h.execute hb hc hf
  obtain ⟨l, r', hr', hunrolled, _⟩ := h.unrolled.execute hb.unrolled hflat hf
  have hcode : s.unrolled.main.flat (s.unrolled.inlined s.unrolled.functions.length) =
      s.main.flat (s.inlined s.functions.length) := Block.flat_ofCommands _ _
  rw [hcode] at hunrolled
  refine ⟨flat, hflat, k + l, fun budget hbudget => ?_⟩
  obtain ⟨i, hi⟩ := Nat.exists_eq_add_of_le' (Nat.le_trans (Nat.le_add_right k l) hbudget)
  obtain ⟨j, hj⟩ := Nat.exists_eq_add_of_le' (Nat.le_trans (Nat.le_add_left l k) hbudget)
  have hfirst : (m.load program).execute budget [] = (r, .returned) := hi ▸ hr i
  have hsecond : (m.load flat).execute budget [] = (r', .returned) := hj ▸ hr' j
  simp only [hfirst, hsecond]
  obtain ⟨a, c, ha, hca, hac⟩ := hrolled.memory
  obtain ⟨b, d, hbd, hdb, hbc⟩ := hunrolled.memory
  obtain rfl : c = d := by simpa [hca] using hdb
  refine ⟨trivial, trivial, hrolled.device.trans hunrolled.device.symm, ⟨a, b, ha, hbd, ?_, ?_, ?_⟩,
    hrolled.shown.trans hunrolled.shown.symm, hnormal⟩ <;> rw [hac, hbc]

/-- Loops around calls, in the main block and in a function. -/
def Script.nested : Script where
  main := .loop "a" "2" 2 (.command "move 3 4" (.call "f" .done)) (.call "g" .done)
  functions := [
    ("f", .loop "b" "3" 3 (.call "g" (.command "goback" .done)) .done),
    ("g", .loop "c" "2" 2 (.command "moverel 1 0" .done) (.command "click" .done))]

private theorem nested_calls {f g : String} (h : Script.nested.Calls f g) : f = "f" ∧ g = "g" := by
  obtain ⟨body, hbody, hg⟩ := h
  rcases Script.lookup_cons_cases hbody with ⟨rfl, rfl⟩ | hbody
  · exact ⟨rfl, by simpa [Block.calls] using hg⟩
  · rcases Script.lookup_cons_cases hbody with ⟨rfl, rfl⟩ | hbody
    · simp [Block.calls] at hg
    · simp at hbody

private theorem nested_formed : ∀ block ∈ Script.nested.blocks, block.Formed := by
  have h2 : Spells "2" 2 := spells_toString (n := 2) (by decide) (by decide +kernel)
  have h3 : Spells "3" 3 := spells_toString (n := 3) (by decide) (by decide +kernel)
  simp only [Script.blocks, Script.nested, List.map_cons, List.map_nil, List.forall_mem_cons, List.not_mem_nil,
    Block.Formed, h2, h3, and_true, true_and, false_implies, implies_true]
  decide +kernel

private theorem nested_structured : Script.nested.Structured where
  formed := nested_formed
  names := by decide +kernel
  distinct := by decide +kernel
  defined := by decide +kernel
  acyclic f hf := by
    obtain ⟨_, hfirst, _⟩ := Relation.TransGen.head'_iff.mp hf
    obtain ⟨_, _, hlast⟩ := Relation.TransGen.tail'_iff.mp hf
    have := (nested_calls hfirst).1.symm.trans (nested_calls hlast).2
    simp at this
  nesting f chain _ hchain := by
    match chain, hchain with
    | [], _ => simp
    | [_], _ => simp
    | a :: b :: rest, hchain =>
      rw [List.isChain_cons_cons, List.isChain_cons_cons] at hchain
      have := (nested_calls hchain.2.1).1.symm.trans (nested_calls hchain.1).2
      simp at this

/-- Loops of calls to functions with loops of their own do as they do written out. -/
theorem nested_loops_do_as_unrolled :
    let s := Script.nested
    let m : Machine := {}
    s.Structured ∧ m.device.faults = [] ∧
    ∃ program flat, (compile false s.source).1 = .program program ∧
      (compile false s.unrolled.source).1 = .program flat ∧ ∃ steps, ∀ budget, steps ≤ budget →
        let rolled := (m.load program).execute budget []
        let unrolled := (m.load flat).execute budget []
        rolled.2 = .returned ∧ unrolled.2 = .returned ∧
        rolled.1.machine.device = unrolled.1.machine.device ∧
        rolled.1.machine.shown = unrolled.1.machine.shown ∧
        (rolled.1.machine.endedNormally → rolled.1.machine.openCalls = []) := by
  intro s m
  have hc : ∃ program, (compile false s.source).1 = .program program := by decide +kernel
  obtain ⟨program, hp⟩ := hc
  obtain ⟨flat, hflat, steps, hrun⟩ := structured_script_does_as_unrolled nested_structured hp m rfl
  refine ⟨nested_structured, rfl, program, flat, hp, hflat, steps, fun budget hbudget => ?_⟩
  obtain ⟨hrolled, hunrolled, hdevice, _, hshown, hnormal⟩ := hrun budget hbudget
  exact ⟨hrolled, hunrolled, hdevice, hshown, fun h => (hnormal h).2⟩

end PointerScript
