import PointerScript.Proofs.Repetition

/-! Using a compiler again.

A compiler keeps its last program and its messages, and a program that it gave out goes on sharing the
initial instructions with it and with all the other programs. None of this reaches the next source text:
linking and executing leave the initial instructions as they are, and nothing else is read again. -/

namespace PointerScript

namespace Compiler

/-- A compiler of the same configuration that has compiled nothing. -/
def renewed (c : Compiler) : Compiler :=
  { c with assembly := {}, log := #[] }

def behind (old : Log) (c : Compiler) : Compiler :=
  { c with log := old ++ c.log }

theorem say_behind (old : Log) (c : Compiler) (level : Level) (message : String) :
    (c.behind old).say level message = (c.say level message).behind old := by
  simp only [say, behind, Array.push_eq_append, Array.append_assoc]

/-- The lines of a program are built from the configuration alone. -/
theorem compileLines_renewed (c : Compiler) (lines : List (List Char)) :
    c.compileLines lines = Prod.map (behind c.log) id (c.renewed.compileLines lines) := by
  unfold compileLines
  dsimp only [renewed]
  rcases Assembly.build c.commands { instructions := c.initial.toArray } 0 lines with ⟨a, _ | ⟨number, fault⟩⟩
  · simp [say, behind]
  · simp [report, say, behind]

theorem runPass_behind (old : Log) (c : Compiler) (pass : Pass) :
    (c.behind old).runPass pass = Prod.map (behind old) id (c.runPass pass) := by
  simp only [runPass, behind]
  rcases pass c.assembly.labels c.assembly.instructions.toList with ⟨left, program | ⟨line, message⟩ | message⟩
  · rfl
  · exact congrArg (·, Compiled.failed) (say_behind old (c.withInstructions left) _ _)
  · rfl

/-- Whatever a compiler has done before, it compiles a source text as a fresh one of its configuration does. -/
theorem compile_renewed (c : Compiler) (source : String) :
    c.compile source = Prod.map (behind c.log) id (c.renewed.compile source) := by
  unfold compile
  rw [compileLines_renewed c]
  rcases c.renewed.compileLines (Text.lines source.toList) with ⟨built, _ | _⟩
  · rfl
  · have hpass : (built.behind c.log).pass = built.pass := rfl
    dsimp only [Prod.map, id]
    rw [hpass]
    cases built.pass with
    | none => rfl
    | some pass =>
      dsimp only
      rw [say_behind, runPass_behind]
      rfl

end Compiler

/-- Linking leaves instructions that go to no label as they are, also where it fails behind them. -/
theorem linkFrom_append (labels : Labels) {start : List Instruction} (h : ∀ inst ∈ start, inst.label? = none)
    (code : List Instruction) :
    linkFrom labels (start ++ code) = (start ++ (linkFrom labels code).1, (linkFrom labels code).2) := by
  induction start with
  | nil => rfl
  | cons inst rest ih =>
    rw [List.forall_mem_cons] at h
    rw [List.cons_append, linkFrom, h.1, ih h.2]
    rfl

/-- Compiling a source text, whether it fails or not, leaves the configuration as it is. -/
theorem Compiler.renewed_compile (safe : Bool) (source : String) :
    ((Compiler.standard safe).compile source).1.renewed = .standard safe := by
  simp only [compile, compileLines, standard]
  rcases hb : Assembly.build Standard.commands { instructions := (Standard.initial safe).toArray } 0
    (Text.lines source.toList) with ⟨a, _ | fault⟩
  · obtain ⟨items, _, hi⟩ := Assembly.build_items hb
    have ha := hi { instructions := (Standard.initial safe).toArray } 0 rfl
    rw [hb, Assembly.addAll_eq] at ha
    obtain ⟨rfl, _⟩ := Prod.mk.inj ha
    -- The pass gets the initial instructions in front, and they go to no label.
    simp only [say, runPass, linkPass, withInstructions, Array.toList_append,
      linkFrom_append _ fun _ hi => initial_label safe hi]
    rcases linkFrom _ (codeOf items) with ⟨linked, _ | name⟩ <;> simp [renewed, report, say]
  · rfl

theorem Machine.program_execute (m : Machine) (budget : Nat) (actions : List Action) :
    (m.execute budget actions).1.machine.program = m.program := by
  unfold execute
  split
  · rfl
  · exact Run.program_loop budget _

def Compiled.program? : Compiled → Option (Array Instruction)
  | program instructions => some instructions
  | _ => none

/-- What is done with a compiler and the programs that it gave out, which are counted from 0. A program is executed
by a machine in any state, so with whatever counters of its jumps. -/
inductive Chore where
  | compile (source : String)
  | execute (index : Nat) (m : Machine) (budget : Nat) (actions : List Action)

def Chore.source? : Chore → Option String
  | compile source => some source
  | execute .. => none

/-- A compiler in use. Of each program that it gave out there are the instructions behind the initial ones; the
initial ones are the compiler's own. -/
structure Workbench where
  compiler : Compiler
  bodies : List (List Instruction) := []

namespace Workbench

def programs (w : Workbench) : List (Array Instruction) :=
  w.bodies.map fun body => (w.compiler.initial ++ body).toArray

/-- Compiles a source text; gives what became of it and the messages about it. -/
def compile (w : Workbench) (source : String) : Workbench × Compiled × Log :=
  let (c, compiled) := w.compiler.compile source
  let body := compiled.program?.map fun program => program.toList.drop c.initial.length
  ({ compiler := c, bodies := w.bodies ++ body.toList }, compiled, c.log.extract w.compiler.log.size)

/-- Executes a program. What the run makes of its instructions, it makes of the compiler's initial ones too. -/
def execute (w : Workbench) (index : Nat) (m : Machine) (budget : Nat) (actions : List Action) : Workbench :=
  match w.bodies[index]? with
  | none => w
  | some body =>
    let loaded := { m with program := (w.compiler.initial ++ body).toArray }
    let left := (loaded.execute budget actions).1.machine.program.toList
    let count := w.compiler.initial.length
    { compiler := { w.compiler with initial := left.take count }
      bodies := w.bodies.set index (left.drop count) }

def serve (w : Workbench) : List Chore → Workbench × List (Compiled × Log)
  | [] => (w, [])
  | .compile source :: rest =>
    let (w, answer) := w.compile source
    let (w, answers) := w.serve rest
    (w, answer :: answers)
  | .execute index m budget actions :: rest => (w.execute index m budget actions).serve rest

/-- Executing a program changes neither the program nor the compiler. -/
theorem execute_eq (w : Workbench) (index : Nat) (m : Machine) (budget : Nat) (actions : List Action) :
    w.execute index m budget actions = w := by
  unfold execute
  cases hb : w.bodies[index]? with
  | none => rfl
  | some body =>
    have hset : w.bodies.set index body = w.bodies := by
      obtain ⟨hi, rfl⟩ := List.getElem?_eq_some_iff.mp hb
      exact List.set_getElem_self hi
    simp only [Machine.program_execute, List.take_left', List.drop_left', hset]

/-- A program starts with the initial instructions, so it is whole again when they are put before its body. -/
private theorem whole_drop {safe : Bool} {source : String} {program : Array Instruction}
    (h : (PointerScript.compile safe source).1 = .program program) :
    (Standard.initial safe ++ program.toList.drop (Standard.initial safe).length).toArray = program := by
  obtain ⟨items, _, _, hp⟩ := compile_eq_program.mp h
  apply Array.toList_inj.mp
  rw [hp, List.drop_left', List.toList_toArray]
  rfl

/-- One source text. A compiler in its first configuration answers as a fresh one, keeps that configuration, and the
programs of before are as they were. -/
theorem compile_fresh {safe : Bool} {w : Workbench} (h : w.compiler.renewed = .standard safe) (source : String) :
    (w.compile source).2 = PointerScript.compile safe source ∧
      (w.compile source).1.compiler.renewed = .standard safe ∧
      (w.compile source).1.programs = w.programs ++ (PointerScript.compile safe source).1.program?.toList := by
  have hc := w.compiler.compile_renewed source
  have hkeeps := Compiler.renewed_compile safe source
  have hbody {program : Array Instruction} := @whole_drop safe source program
  rw [h] at hc
  unfold PointerScript.compile at hbody ⊢
  generalize (Compiler.standard safe).compile source = answer at hc hkeeps hbody ⊢
  obtain ⟨c, compiled⟩ := answer
  have hinitial : w.compiler.initial = Standard.initial safe := congrArg Compiler.initial h
  have hlater : c.initial = Standard.initial safe := congrArg Compiler.initial hkeeps
  simp only [compile, hc, Prod.map, id]
  refine ⟨?_, hkeeps, ?_⟩
  · simp [Compiler.behind]
  · simp only [programs, Compiler.behind, hlater, hinitial, List.map_append]
    cases compiled with
    | program program => exact congrArg (_ ++ [·]) (hbody rfl)
    | failed => rfl
    | crashed message => rfl

theorem serve_fresh {safe : Bool} {w : Workbench} (h : w.compiler.renewed = .standard safe) (chores : List Chore) :
    let fresh := (chores.filterMap Chore.source?).map (PointerScript.compile safe)
    (w.serve chores).2 = fresh ∧
      (w.serve chores).1.programs = w.programs ++ fresh.filterMap fun answer => answer.1.program? := by
  induction chores generalizing w with
  | nil => exact ⟨rfl, (List.append_nil _).symm⟩
  | cons chore rest ih =>
    cases chore with
    | compile source =>
      obtain ⟨hanswer, hkeeps, hprograms⟩ := compile_fresh h source
      obtain ⟨hanswers, hrest⟩ := ih hkeeps
      refine ⟨List.cons_eq_cons.mpr ⟨hanswer, hanswers⟩, hrest.trans ?_⟩
      rw [hprograms, List.append_assoc]
      congr 1
      change _ = List.filterMap _ (PointerScript.compile safe source :: _)
      rw [List.filterMap_cons]
      cases (PointerScript.compile safe source).1.program? <;> rfl
    | execute index m budget actions =>
      simp only [serve, execute_eq]
      exact ih h

end Workbench

/-- A compiler can be used again and again. Whatever source texts it compiles one after another, also those that fail
at a line or when they are linked, and however the programs that it gave out are executed in between, each source text
gets the result and the messages that a fresh compiler gives, and the instructions of the programs stay as they were
given out. How often their jumps have been counted is not part of the instructions here: the counts are with the
machine, they do change by a run, and each run starts with any counts. -/
theorem compiler_is_reusable (safe : Bool) (chores : List Chore) :
    let fresh := (chores.filterMap Chore.source?).map (compile safe)
    let served := Workbench.serve { compiler := .standard safe } chores
    served.2 = fresh ∧ served.1.programs = fresh.filterMap fun answer => answer.1.program? := by
  intro fresh served
  have h : (Compiler.standard safe).renewed = .standard safe := rfl
  exact @Workbench.serve_fresh safe { compiler := .standard safe } h chores

end PointerScript
