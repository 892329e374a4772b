import PointerScript.Proofs.Number.Order
import PointerScript.Proofs.Structured.Layout

/-! How a compiled structured script runs. A block performs its commands in order, each loop as often as
its count says and each call as the body of its function, and leaves the counters of the jumps and the
open calls as it found them. -/

namespace PointerScript

namespace Machine

/-- Carries out instructions one after another, up to the first that fails. -/
def perform (m : Machine) : List Instruction → Machine × Option (Instruction × Fault)
  | [] => (m, none)
  | inst :: rest =>
    match m.carryOut none inst with
    | (n, none) => n.perform rest
    | (n, some fault) => (n, some (inst, fault))

theorem perform_append (m : Machine) (first second : List Instruction) :
    m.perform (first ++ second) =
      match m.perform first with
      | (n, none) => n.perform second
      | failure => failure := by
  induction first generalizing m with
  | nil => rfl
  | cons inst rest ih =>
    rw [List.cons_append, perform, perform]
    rcases m.carryOut none inst with ⟨n, _ | fault⟩
    · exact ih n
    · rfl

/-- The messages that are not there for debugging alone. -/
def shown (m : Machine) : Log :=
  m.log.filter fun r => r.level ≠ .debug

theorem shown_debug (m : Machine) (message : String) : (m.say .debug message).shown = m.shown := by
  simp [shown, say]

theorem shown_say {m n : Machine} (h : m.shown = n.shown) (level : Level) (message : String) :
    (m.say level message).shown = (n.say level message).shown := by
  simp only [shown, say, Array.filter_push] at h ⊢
  rw [h]

/-- A machine mirrors another if it has the same device, the same memory but for the open calls, and has
shown the same messages. -/
structure Mirrors (m n : Machine) : Prop where
  device : m.device = n.device
  memory : ∃ a b, m.store = .ready a ∧ n.store = .ready b ∧ a = { b with calls := a.calls }
  shown : m.shown = n.shown

/-- A plain instruction does the same on both machines. -/
theorem Mirrors.carryOut {m n : Machine} (h : m.Mirrors n) {inst : Instruction} (hp : inst.isPlain = true)
    (index : Option Nat) :
    (m.carryOut index inst).2 = (n.carryOut none inst).2 ∧
      (m.carryOut index inst).1.Mirrors (n.carryOut none inst).1 ∧
      ∃ memory d, m.store = .ready memory ∧ (m.carryOut index inst).1 = m.after memory d := by
  obtain ⟨a, b, ha, hb, hab⟩ := h.memory
  obtain ⟨d, fault, _, hd⟩ := carryOut_plain hp (n.scene b) b.safe
  have hm := hd m a index ha (by rw [scene, scene, h.device, hab]) fun _ => by rw [hab]
  have hn := hd n b none hb rfl fun _ => rfl
  rw [hm, hn]
  refine ⟨rfl, ⟨?_, ⟨_, _, rfl, rfl, by rw [hab]⟩, ?_⟩, a, d, ha, rfl⟩
  · simp only [after, h.device]
  · have hs := h.shown
    have happend (m : Machine) (memory : Memory) : (m.after memory d).shown =
        m.shown ++ d.messages.filter fun r => r.level ≠ .debug := by
      simp [Machine.shown, after]
    rw [happend, happend, hs]

end Machine

/-- The text of a plain instruction has no counter in it. -/
theorem Instruction.text_of_isPlain {inst : Instruction} (h : inst.isPlain = true) (visits visits' : Nat) :
    inst.text visits = inst.text visits' := by
  cases inst <;> first | rfl | simp [isPlain] at h

namespace Run

/-- A run comes to another after some steps. -/
def Goes (r r' : Run) : Prop :=
  ∃ steps, ∀ budget, loop (budget + steps) r = loop budget r'

/-- A run returns as another after some steps. -/
def Stops (r r' : Run) : Prop :=
  ∃ steps, ∀ budget, loop (budget + steps) r = (r', .returned)

theorem Goes.refl (r : Run) : r.Goes r :=
  ⟨0, fun _ => rfl⟩

theorem Goes.trans {a b c : Run} (hab : a.Goes b) (hbc : b.Goes c) : a.Goes c := by
  obtain ⟨k, hk⟩ := hab
  obtain ⟨l, hl⟩ := hbc
  refine ⟨l + k, fun budget => ?_⟩
  rw [← Nat.add_assoc, hk, hl]

theorem Goes.stops {a b c : Run} (hab : a.Goes b) (hbc : b.Stops c) : a.Stops c := by
  obtain ⟨k, hk⟩ := hab
  obtain ⟨l, hl⟩ := hbc
  refine ⟨l + k, fun budget => ?_⟩
  rw [← Nat.add_assoc, hk, hl]

theorem goes_of_turn {r r' : Run} (h : r.turn = (r', none)) : r.Goes r' :=
  ⟨1, loop_of_turn h⟩

theorem stops_of_turn {r r' : Run} (h : r.turn = (r', some .returned)) : r.Stops r' :=
  ⟨1, loop_of_end h⟩

/-- An execution that comes to a run returns as that run does. -/
theorem Stops.returns {m : Machine} {first : Nat} {r r' : Run}
    (hloop : ∀ budget, m.execute (budget + first) [] = loop budget r) (h : r.Stops r') :
    ∃ steps, ∀ budget, m.execute (budget + steps) [] = (r', .returned) := by
  obtain ⟨steps, hs⟩ := h
  exact ⟨steps + first, fun budget => by rw [← Nat.add_assoc, hloop, hs]⟩

end Run

/-- A run stands before an index, with given counters and open calls, and mirrors a machine. -/
structure Standing (program : Array Instruction) (pc : Nat) (visits : Array Nat) (calls : List Int) (r : Run)
    (n : Machine) : Prop where
  loaded : r.machine.program = program
  running : r.machine.running = true
  free : r.machine.isPaused = false
  pending : r.pending = []
  pc : r.machine.pc = pc
  visits : r.machine.visits = visits
  calls : r.machine.openCalls = calls
  mirrors : r.machine.Mirrors n

/-- From a run on, instructions are performed as a machine would perform them: the run then stands before
an index with given counters and open calls, or it has stopped at the instruction that failed. -/
def Performs (program : Array Instruction) (pc : Nat) (visits : Array Nat) (calls : List Int) (r : Run)
    (n : Machine) (code : List Instruction) : Prop :=
  match n.perform code with
  | (n', none) => ∃ r', r.Goes r' ∧ Standing program pc visits calls r' n'
  | (n', some (inst, fault)) => ∃ r', r.Stops r' ∧ r'.machine.Mirrors
      (n'.say .critical ("Execution of " ++ inst.text 0 ++ " raised an exception: " ++ fault.message))

section

variable {program : Array Instruction} {pc pc' : Nat} {visits visits' : Array Nat} {calls calls' : List Int}
  {r r' : Run} {n : Machine} {first second : List Instruction}

theorem Standing.performs_nil (h : Standing program pc visits calls r n) : Performs program pc visits calls r n [] :=
  ⟨r, .refl r, h⟩

theorem Performs.of_goes (hg : r.Goes r') (h : Performs program pc visits calls r' n first) :
    Performs program pc visits calls r n first := by
  unfold Performs at h ⊢
  split at h
  · obtain ⟨s, hs, hst⟩ := h
    exact ⟨s, hg.trans hs, hst⟩
  · obtain ⟨s, hs, hst⟩ := h
    exact ⟨s, hg.stops hs, hst⟩

theorem Performs.append (h : Performs program pc visits calls r n first)
    (next : ∀ r' n', Standing program pc visits calls r' n' → Performs program pc' visits' calls' r' n' second) :
    Performs program pc' visits' calls' r n (first ++ second) := by
  unfold Performs at h
  unfold Performs
  rw [Machine.perform_append]
  split at h
  · rename_i n' hp
    obtain ⟨r', hg, hst⟩ := h
    rw [hp]
    exact (next r' n' hst).of_goes hg
  · rename_i n' inst fault hp
    rw [hp]
    exact h

theorem Standing.turn_eq (h : Standing program pc visits calls r n) {inst : Instruction}
    (hi : program[pc]? = some inst) (hs : inst.stops = false) :
    r.turn =
      match r.machine.carryOut (some pc) inst with
      | (m, some fault) => ({ r.passed with machine := Run.failed m pc inst fault }, some .returned)
      | (m, none) => ({ r.passed with machine := Run.advanced m pc inst }, none) :=
  Run.turn_carries h.running h.pending h.free h.pc (h.loaded ▸ hi) hs

theorem Machine.Mirrors.advanced {m : Machine} (h : m.Mirrors n) (index : Nat) (inst : Instruction) :
    (Run.advanced m index inst).Mirrors n :=
  ⟨h.device, h.memory, (Machine.shown_debug m _).trans h.shown⟩

/-- An instruction that succeeds brings the run to where the machine then stands. -/
theorem Standing.advance (h : Standing program pc visits calls r n) {inst : Instruction} {m n' : Machine}
    (hi : program[pc]? = some inst) (hs : inst.stops = false) (hc : r.machine.carryOut (some pc) inst = (m, none))
    (hkeep : m.program = r.machine.program ∧ m.running = r.machine.running ∧ m.gate = r.machine.gate)
    (hpc : m.pc + 1 = pc') (hv : m.visits = visits') (hcalls : m.openCalls = calls') (hm : m.Mirrors n') :
    ∃ r', r.Goes r' ∧ Standing program pc' visits' calls' r' n' := by
  have ht := h.turn_eq hi hs
  rw [hc] at ht
  refine ⟨_, Run.goes_of_turn ht, hkeep.1.trans h.loaded, hkeep.2.1.trans h.running, ?_, h.pending, hpc, hv, hcalls,
    hm.advanced pc inst⟩
  have hg := h.free
  simp only [Machine.isPaused, ← hkeep.2.2] at hg
  exact hg

theorem Standing.performs_plain (h : Standing program pc visits calls r n) {inst : Instruction}
    (hi : program[pc]? = some inst) (hp : inst.isPlain = true) :
    Performs program (pc + 1) visits calls r n [inst] := by
  have hs : inst.stops = false := by
    cases inst <;> first | rfl | simp [Instruction.isPlain] at hp
  obtain ⟨hfault, hmirror, memory, d, hstore, hafter⟩ := h.mirrors.carryOut hp (some pc)
  rcases hc : r.machine.carryOut (some pc) inst with ⟨m, fault⟩
  rcases hn : n.carryOut none inst with ⟨n', fault'⟩
  rw [hc, hn] at hfault hmirror
  rw [hc] at hafter
  obtain rfl : fault = fault' := hfault
  obtain rfl : m = _ := hafter
  cases fault with
  | none =>
    simp only [Performs, Machine.perform, hn]
    refine h.advance hi hs hc ⟨rfl, rfl, rfl⟩ ?_ h.visits ?_ hmirror
    · change r.machine.pc + 1 = _
      rw [h.pc]
      rfl
    · rw [← h.calls, Machine.openCalls_ready hstore]
      rfl
  | some fault =>
    simp only [Performs, Machine.perform, hn]
    have ht := h.turn_eq hi hs
    rw [hc] at ht
    refine ⟨_, Run.stops_of_turn ht, hmirror.device, hmirror.memory, ?_⟩
    rw [Run.failed, Instruction.text_of_isPlain hp _ 0]
    exact Machine.shown_say hmirror.shown _ _

/-- Plain instructions are performed one after another. -/
theorem Standing.performs_code (h : Standing program pc visits calls r n) {code : List Instruction}
    (hcode : CodeAt program pc code) (hp : ∀ inst ∈ code, inst.isPlain = true) :
    Performs program (pc + code.length) visits calls r n code := by
  induction code generalizing pc r n with
  | nil => exact h.performs_nil
  | cons inst rest ih =>
    rw [List.forall_mem_cons] at hp
    have hrest (r' : Run) (n' : Machine) (h' : Standing program (pc + 1) visits calls r' n') :
        Performs program (pc + (inst :: rest).length) visits calls r' n' rest := by
      rw [List.length_cons, Nat.add_comm rest.length, ← Nat.add_assoc]
      exact ih h' hcode.tail hp.2
    exact (h.performs_plain hcode.head hp.1).append hrest

/-- A call goes to its target and opens a call. -/
theorem Standing.goes_call (h : Standing program pc visits calls r n) {target : Nat} {label : LabelName}
    (hi : program[pc]? = some (.call Operand.absent target label)) (hd : calls.length + 1 < Memory.callLimit) :
    ∃ r', r.Goes r' ∧ Standing program target visits (pc :: calls) r' n := by
  obtain ⟨a, b, ha, hb, hab⟩ := h.mirrors.memory
  have hcalls : a.calls = calls := (Machine.openCalls_ready ha).symm.trans h.calls
  have hc : r.machine.carryOut (some pc) (.call Operand.absent target label) =
      ((r.machine.withCalls a (r.machine.pc :: a.calls)).goTo target, none) := by
    rw [Machine.carryOut, Machine.call_absent ha, hcalls, if_neg (Nat.not_le.mpr hd)]
  refine h.advance hi rfl hc ⟨rfl, rfl, rfl⟩ (Int.sub_add_cancel _ _) h.visits ?_ ?_
  · rw [h.pc, hcalls]
    rfl
  · exact ⟨h.mirrors.device, ⟨_, b, rfl, hb, by rw [hab]⟩, h.mirrors.shown⟩

/-- A return closes the newest call and goes on behind it. -/
theorem Standing.goes_ret (h : Standing program pc visits ((pc' : Int) :: calls) r n) (hi : program[pc]? = some .ret)
    (h0 : pc' ≠ 0) : ∃ r', r.Goes r' ∧ Standing program (pc' + 1) visits calls r' n := by
  obtain ⟨a, b, ha, hb, hab⟩ := h.mirrors.memory
  have hcalls : a.calls = (pc' : Int) :: calls := (Machine.openCalls_ready ha).symm.trans h.calls
  have hc : r.machine.carryOut (some pc) .ret = ({ r.machine.withCalls a calls with pc := (pc' : Int) }, none) := by
    rw [Machine.carryOut, Machine.ret_open ha hcalls (by omega)]
  refine h.advance hi rfl hc ⟨rfl, rfl, rfl⟩ rfl h.visits rfl ?_
  exact ⟨h.mirrors.device, ⟨_, b, rfl, hb, by rw [hab]⟩, h.mirrors.shown⟩

private theorem le_whole {x : Binary64} {times : Nat} (hx : x.quanta? = some ((times * Binary64.unit : Nat) : Int))
    (v : Int) : (Number.float x).le (.int v) = decide ((times : Int) ≤ v) := by
  have hu : 0 < Binary64.unit := by decide +kernel
  rw [Number.le_int hx, Int.natCast_mul, decide_eq_decide]
  exact Int.mul_le_mul_right (Int.natCast_pos.mpr hu)

/-- A jump with a count goes back until its visits reach the count; then it falls through and starts to
count again. -/
theorem Standing.goes_jump (h : Standing program pc visits calls r n) {start times i : Nat} {count : String}
    {label : LabelName} (hi : program[pc]? = some (.jump (Operand.read count) start label))
    (hcount : Spells count times) (hpos : 0 < times) (hv : visits.getD pc 0 = i) :
    if times ≤ i + 1 then
      ∃ r', r.Goes r' ∧ Standing program (pc + 1) (visits.setIfInBounds pc 0) calls r' n
    else ∃ r', r.Goes r' ∧ Standing program start (visits.setIfInBounds pc (i + 1)) calls r' n := by
  obtain ⟨x, hread, hx⟩ := hcount
  obtain ⟨a, b, ha, hb, hab⟩ := h.mirrors.memory
  have hzero : (Number.float x).le (.int 0) = false := by
    rw [le_whole hx, decide_eq_false_iff_not]
    omega
  have hvisits : r.machine.visitsAt (some pc) = i := by rw [Machine.visitsAt, h.visits, hv]
  have hle : (Number.float x).le (.int ((i + 1 : Nat) : Int)) = decide (times ≤ i + 1) := by
    rw [le_whole hx, decide_eq_decide]
    omega
  have hc : r.machine.carryOut (some pc) (.jump (Operand.read count) start label) =
      if times ≤ i + 1 then (r.machine.setVisits (some pc) 0, none)
      else ((r.machine.setVisits (some pc) (i + 1)).goTo start, none) := by
    simp only [Machine.carryOut, Machine.jump, hread, Machine.value, Machine.attempt, hzero, hvisits, hle,
      Bool.false_eq_true, if_false, decide_eq_true_eq]
  split
  · rename_i hlast
    rw [if_pos hlast] at hc
    refine h.advance hi rfl hc ⟨rfl, rfl, rfl⟩ ?_ ?_ h.calls ?_
    · change r.machine.pc + 1 = _
      rw [h.pc]
      rfl
    · exact congrArg (·.setIfInBounds pc 0) h.visits
    · exact ⟨h.mirrors.device, h.mirrors.memory, h.mirrors.shown⟩
  · rename_i hmore
    rw [if_neg hmore] at hc
    refine h.advance hi rfl hc ⟨rfl, rfl, rfl⟩ (Int.sub_add_cancel _ _) ?_ h.calls ?_
    · exact congrArg (·.setIfInBounds pc (i + 1)) h.visits
    · exact ⟨h.mirrors.device, h.mirrors.memory, h.mirrors.shown⟩

theorem setIfInBounds_zero {j : Nat} (hz : visits[j]? = some 0) : visits.setIfInBounds j 0 = visits := by
  obtain ⟨hlt, hzero⟩ := Array.getElem?_eq_some_iff.mp hz
  rw [Array.setIfInBounds_def, dif_pos hlt, ← hzero, Array.set_getElem_self]

/-- A loop performs its body as often as its count says, if each round leaves the counter alone. -/
theorem performs_loop {start j times : Nat} {count : String} {label : LabelName} {code : List Instruction}
    (hj : program[j]? = some (.jump (Operand.read count) start label)) (hcount : Spells count times)
    (hz : visits[j]? = some 0)
    (body : ∀ i r n, Standing program start (visits.setIfInBounds j i) calls r n →
      Performs program j (visits.setIfInBounds j i) calls r n code)
    (rounds i : Nat) (hrounds : i + rounds + 1 = times) {r : Run} {n : Machine}
    (h : Standing program start (visits.setIfInBounds j i) calls r n) :
    Performs program (j + 1) visits calls r n (List.replicate (rounds + 1) code).flatten := by
  have hlt := (Array.getElem?_eq_some_iff.mp hz).1
  have hget (k : Nat) : (visits.setIfInBounds j k).getD j 0 = k := by
    simp [Array.getD_eq_getD_getElem?, hlt]
  -- The counter is the number of the rounds that are over.
  induction rounds generalizing i r n with
  | zero =>
    rw [List.replicate_one, List.flatten_singleton, ← List.append_nil code]
    refine (body i r n h).append fun r' n' h' => ?_
    have hjump := h'.goes_jump hj hcount (by omega) (hget i)
    rw [if_pos (by omega), Array.setIfInBounds_setIfInBounds, setIfInBounds_zero hz] at hjump
    obtain ⟨s, hg, hs⟩ := hjump
    exact hs.performs_nil.of_goes hg
  | succ rounds ih =>
    rw [List.replicate_succ, List.flatten_cons]
    refine (body i r n h).append fun r' n' h' => ?_
    have hjump := h'.goes_jump hj hcount (by omega) (hget i)
    rw [if_neg (by omega), Array.setIfInBounds_setIfInBounds] at hjump
    obtain ⟨s, hg, hs⟩ := hjump
    exact (ih (i + 1) (by omega) hs).of_goes hg

end

/-- What a call of a function comes to from every place: its commands are performed, if there is room for
the calls nested in it and the counters in a zone are zero. -/
def CallPerforms (program : Array Instruction) (entry : String → Nat) (depth : Nat) (zone : Nat → Prop)
    (commands : List String) (name : String) : Prop :=
  ∀ {pc : Nat} {visits : Array Nat} {calls : List Int} {r : Run} {n : Machine} {label : LabelName}, pc ≠ 0 →
    program[pc]? = some (.call Operand.absent (entry name) label) → calls.length + depth ≤ 4095 →
    (∀ i, zone i → visits[i]? = some 0) → Standing program pc visits calls r n →
    Performs program (pc + 1) visits calls r n (commands.map instructionOf)

section

variable {program : Array Instruction} {entry : String → Nat} {depth : Nat} {zone : String → Nat → Prop}
  {inline : String → List String}

/-- A block performs its commands, if its calls do and its own counters and those behind its calls are
zero. -/
theorem Block.performs {block : Block} {start : Nat} {visits : Array Nat} {calls : List Int} {r : Run} {n : Machine}
    (hcode : CodeAt program start (block.code entry start)) (hf : block.Formed)
    (hp : ∀ line ∈ block.commands, (instructionOf line).isPlain = true)
    (hcall : ∀ name ∈ block.calls, CallPerforms program entry depth (zone name) (inline name) name)
    (hapart : ∀ name ∈ block.calls, ∀ i, zone name i → i < start ∨ start + block.size ≤ i)
    (h0 : start ≠ 0) (hdepth : calls.length + depth ≤ 4095)
    (hown : ∀ i, start ≤ i → i < start + block.size → visits[i]? = some 0)
    (hzone : ∀ name ∈ block.calls, ∀ i, zone name i → visits[i]? = some 0)
    (h : Standing program start visits calls r n) :
    Performs program (start + block.size) visits calls r n ((block.flat inline).map instructionOf) := by
  -- All parts leave the counters as they found them, so those of the next part are still zero.
  induction block generalizing start visits r n with
  | done =>
    rw [Block.size, Nat.add_zero, Block.flat, List.map_nil]
    exact h.performs_nil
  | command line rest ih =>
    rw [Block.commands, List.forall_mem_cons] at hp
    rw [Block.code] at hcode
    have hrest := hcode.tail
    have hnext : start + (command line rest).size = start + 1 + rest.size := by
      rw [Block.size]
      omega
    rw [hnext] at hapart hown ⊢
    rw [Block.flat, List.map_cons, ← List.singleton_append]
    refine (h.performs_plain hcode.head hp.1).append fun r' n' h' => ?_
    exact ih hrest hf.2 hp.2 hcall (fun name hn i hi => by have := hapart name hn i hi; omega) (by omega)
      (fun i hlow hhigh => hown i (by omega) hhigh) hzone h'
  | loop label count times body rest ihb ihr =>
    rw [Block.commands, List.forall_mem_append] at hp
    rw [Block.calls, List.forall_mem_append] at hcall hapart hzone
    obtain ⟨⟨_, _, hcount, hpos⟩, hfbody, hfrest⟩ := hf
    rw [Block.code] at hcode
    have hafter := hcode.right
    rw [Block.length_code] at hafter
    have hnext : start + (loop label count times body rest).size = start + body.size + 1 + rest.size := by
      rw [Block.size]
      omega
    rw [hnext] at hapart hown ⊢
    rw [Block.flat, List.map_append, List.map_flatten, List.map_replicate]
    have hz : visits[start + body.size]? = some 0 := hown _ (by omega) (by omega)
    have hfirst : visits.setIfInBounds (start + body.size) 0 = visits := setIfInBounds_zero hz
    -- In the rounds only the loop's own counter differs, and nothing in the body looks at it.
    have hround (i : Nat) (r : Run) (n : Machine)
        (h : Standing program start (visits.setIfInBounds (start + body.size) i) calls r n) :
        Performs program (start + body.size) (visits.setIfInBounds (start + body.size) i) calls r n
          ((body.flat inline).map instructionOf) := by
      refine ihb hcode.left hfbody hp.1 hcall.1 (fun name hn k hk => ?_) h0 (fun k hlow hhigh => ?_)
        (fun name hn k hk => ?_) h
      · have := hapart.1 name hn k hk
        omega
      · rw [Array.getElem?_setIfInBounds_ne (by omega)]
        exact hown k hlow (by omega)
      · have := hapart.1 name hn k hk
        rw [Array.getElem?_setIfInBounds_ne (by omega)]
        exact hzone.1 name hn k hk
    obtain ⟨rounds, rfl⟩ := Nat.exists_eq_add_one_of_ne_zero (Nat.ne_of_gt hpos)
    refine (performs_loop hafter.head hcount hz hround rounds 0 (by omega) (hfirst.symm ▸ h)).append
      fun r' n' h' => ?_
    refine ihr hafter.tail hfrest hp.2 hcall.2 (fun name hn k hk => ?_) (by omega)
      (fun k hlow hhigh => hown k (by omega) hhigh) hzone.2 h'
    have := hapart.2 name hn k hk
    omega
  | call name rest ih =>
    rw [Block.calls, List.forall_mem_cons] at hcall hapart hzone
    rw [Block.code] at hcode
    have hnext : start + (call name rest).size = start + 1 + rest.size := by
      rw [Block.size]
      omega
    rw [hnext] at hapart hown ⊢
    rw [Block.flat, List.map_append]
    refine (hcall.1 h0 hcode.head hdepth hzone.1 h).append fun r' n' h' => ?_
    refine ih hcode.tail hf.2 hp hcall.2 (fun other hn k hk => ?_) (by omega)
      (fun k hlow hhigh => hown k (by omega) hhigh) hzone.2 h'
    have := hapart.2 other hn k hk
    omega

end

namespace Script

/-- The indices of the functions that a function reaches by calls, itself among them. -/
def zone (s : Script) (entry : String → Nat) (f : String) (i : Nat) : Prop :=
  ∃ g body, Relation.ReflTransGen s.Calls f g ∧ s.functions.lookup g = some body ∧ entry g ≤ i ∧
    i < entry g + body.size

variable {s : Script} {safe : Bool} {program : Array Instruction} {entry : String → Nat}

/-- What a called function reaches does not overlap the caller. -/
private theorem zone_apart (h : s.Structured) (hl : s.Layout safe program entry) {f g : String} {body : Block}
    (hf : s.functions.lookup f = some body) (hg : g ∈ body.calls) {i : Nat} (hi : s.zone entry g i) :
    i < entry f ∨ entry f + body.size ≤ i := by
  obtain ⟨k, other, hreach, hk, hlow, hhigh⟩ := hi
  have hne : f ≠ k := by
    rintro rfl
    exact h.acyclic f (.head' ⟨body, hf, hg⟩ hreach)
  rcases hl.apart f body k other hf hk hne with hapart | hapart
  · exact .inr (by omega)
  · exact .inl (by omega)

/-- A call performs the commands of its function and of those called from there. -/
theorem Structured.call_performs (h : s.Structured) (hb : s.CommandsBuild) (hl : s.Layout safe program entry)
    {depth : Nat} {f : String} (hn : s.Nests depth f) :
    CallPerforms program entry depth (s.zone entry f) (s.inlined depth f) f := by
  induction depth generalizing f with
  | zero => exact absurd hn id
  | succ depth ih =>
    obtain ⟨body, hf, hnested⟩ := hn
    intro pc visits calls r n label h0 hi hdepth hzone hst
    have hm := mem_blocks_of_lookup hf
    have hat := hl.function f body hf
    have hret := hat.right
    rw [Block.length_code] at hret
    have hown : ∀ i, entry f ≤ i → i < entry f + body.size → visits[i]? = some 0 :=
      fun i hlow hhigh => hzone i ⟨f, body, .refl, hf, hlow, hhigh⟩
    have hreach : ∀ g ∈ body.calls, ∀ i, s.zone entry g i → visits[i]? = some 0 := by
      rintro g hg i ⟨k, other, hreach, hk, hlow, hhigh⟩
      exact hzone i ⟨k, other, .head ⟨body, hf, hg⟩ hreach, hk, hlow, hhigh⟩
    -- The body runs with one more open call, which leaves room for one nested call less.
    obtain ⟨r', hgo, hst'⟩ := hst.goes_call hi (Nat.lt_of_le_of_lt (Nat.le_trans (by omega) hdepth) (by decide))
    have hbody := Block.performs hat.left (h.formed body hm) (fun line hl => (hb body hm line hl).2)
      (fun g hg => ih (hnested g hg)) (fun g hg i => zone_apart h hl hf hg)
      (by have := hl.behind f body hf; omega) (by rw [List.length_cons]; omega) hown hreach hst'
    simp only [inlined, hf]
    rw [← List.append_nil (List.map _ _)]
    refine Performs.of_goes hgo (hbody.append fun r'' n' hst'' => ?_)
    obtain ⟨s', hgo', hst'⟩ := hst''.goes_ret hret.head h0
    exact hst'.performs_nil.of_goes hgo'

/-- The main block performs what it comes to when all calls are inlined. Afterwards all counters are
zero again and no call is open. -/
theorem Structured.main_performs (h : s.Structured) (hb : s.CommandsBuild) (hl : s.Layout safe program entry)
    {r : Run} {n : Machine}
    (hst : Standing program (Standard.first safe) (Array.replicate program.size 0) [] r n) :
    Performs program (Standard.first safe + s.main.size) (Array.replicate program.size 0) [] r n
      ((s.main.flat (s.inlined s.functions.length)).map instructionOf) := by
  have hm : s.main ∈ s.blocks := by simp [blocks]
  have hinline : s.main.flat (s.inlined s.functions.length) = s.main.flat (s.inlined 4095) :=
    Block.flat_congr fun f hf => inlined_eq (h.nests (h.defined s.main hm f hf)) (h.main_nests hf)
  have hzero {i : Nat} (hi : i < program.size) : (Array.replicate program.size 0)[i]? = some 0 := by
    simp [hi]
  rw [hinline]
  refine Block.performs hl.main.left (h.formed s.main hm) (fun line hline => (hb s.main hm line hline).2)
    (fun f hf => h.call_performs hb hl (h.main_nests hf)) (fun f hf i hi => ?_)
    (Nat.ne_of_gt (Nat.lt_of_lt_of_le Nat.zero_lt_two (Standard.two_le_first safe))) (Nat.le_refl _)
    (fun i hlow hhigh => hzero ?_) (fun f hf i hi => hzero ?_) hst
  · obtain ⟨g, body, _, hg, hlow, _⟩ := hi
    have := hl.behind g body hg
    exact .inr (by omega)
  · have := hl.main.lt_size (i := s.main.size) (by simp [Block.length_code])
    omega
  · obtain ⟨g, body, _, hg, hlow, hhigh⟩ := hi
    have := (hl.function g body hg).lt_size (i := body.size) (by simp [Block.length_code])
    omega

end Script

end PointerScript
