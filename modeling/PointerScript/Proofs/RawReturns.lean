import PointerScript.Proofs.Turns

/-! Returns in programs of any kind. A program need not come from a source text: its jumps may go anywhere, also to
places counted from its end, and it may set up its memory late, more than once or never. A return takes an open call of
index zero for none at all. But no such call is ever open: only a call at the very start of the program could open it,
and that is where a run begins, while the memory has no place for open calls yet. -/

namespace PointerScript

namespace Store

def isReady : Store → Bool
  | ready _ => true
  | _ => false

theorem isReady_setOffset {s t : Store} {p : Point} (h : s.setOffset p = .ok t) : t.isReady = s.isReady := by
  cases s with
  | absent => cases h
  | loose offset safe => exact Except.ok.inj h ▸ rfl
  | ready memory => exact Except.ok.inj h ▸ rfl

theorem isReady_setSafe {s t : Store} {on : Bool} (h : s.setSafe on = .ok t) : t.isReady = s.isReady := by
  cases s with
  | absent => cases h
  | loose offset safe => exact Except.ok.inj h ▸ rfl
  | ready memory => exact Except.ok.inj h ▸ rfl

end Store

namespace Machine

variable {m : Machine}

/-- No call is open before the memory is set up. -/
theorem openCalls_of_not_ready (h : m.store.isReady = false) : m.openCalls = [] := by
  unfold openCalls
  cases hs : m.store with
  | ready memory => rw [hs] at h; cases h
  | absent | loose => rfl

/-- Before the memory is set up, its entries cannot be used. -/
theorem attemptMemory_not_ready (h : m.store.isReady = false) (entry : Entry)
    (next : Memory → Machine × Option Fault) :
    ∃ fault, m.attemptMemory (m.store.memory entry) next = (m, some fault) := by
  unfold attemptMemory Store.memory
  cases hs : m.store with
  | absent => exact ⟨_, rfl⟩
  | loose offset safe => exact ⟨_, rfl⟩
  | ready memory => rw [hs] at h; cases h

/-- Before the memory is set up, no instruction leaves a call open. -/
theorem openCalls_carryOut_not_ready (h : m.store.isReady = false) (index : Option Nat) (inst : Instruction) :
    (m.carryOut index inst).1.openCalls = [] := by
  have hstill {n : Machine} (hn : n.store.isReady = m.store.isReady) : n.openCalls = [] :=
    openCalls_of_not_ready (hn.trans h)
  have hmemory (entry : Entry) (next : Memory → Machine × Option Fault) :
      (m.attemptMemory (m.store.memory entry) next).1.openCalls = [] := by
    obtain ⟨fault, he⟩ := attemptMemory_not_ready h entry next
    rw [he]
    exact hstill rfl
  have hentry {α : Type} {result : Except MemoryFault α} {next : α → Machine × Option Fault}
      (hnext : ∀ a, result = .ok a → (next a).1.openCalls = []) : (m.attemptMemory result next).1.openCalls = [] := by
    cases result with
    | ok a => exact hnext a rfl
    | error fault => exact hstill rfl
  have hattempt {α : Type} {result : Except Fault α} {next : α → Machine × Option Fault}
      (hnext : ∀ a, (next a).1.openCalls = []) : (m.attempt result next).1.openCalls = [] := by
    cases result with
    | ok a => exact hnext a
    | error fault => exact hstill rfl
  cases inst with
  | setup =>
    simp only [carryOut]
    split
    · exact hstill rfl
    · rfl
  | center | move | moveRel | goBack | call | ret => exact hmemory _ _
  | setOffset | clearOffset => exact hentry fun store hs => hstill (Store.isReady_setOffset hs)
  | safeMode on => exact hentry fun store hs => hstill (Store.isReady_setSafe hs)
  | leftClick | rightClick | doubleClick =>
    apply hentry
    intro safe _
    cases safe <;> exact hstill rfl
  | wait time => exact hattempt fun t => hstill rfl
  | pause => exact hstill (by rw [carryOut, m.keeps_pause.store])
  | print | finish | halt => exact hstill rfl
  | popup text title refused => cases refused <;> exact hstill rfl
  | jump count target label =>
    rcases m.jump_cases index count target with ⟨fault, he⟩ | ⟨visits, he⟩ | ⟨visits, he⟩ <;>
      rw [carryOut, he] <;> exact hstill rfl
  | printVar name =>
    apply hentry
    intro offset _
    split
    · exact hattempt fun text => hstill rfl
    · exact hmemory _ _
  | setVar name value =>
    simp only [carryOut, setVar]
    split
    · exact hstill rfl
    · exact hattempt fun v => hmemory _ _
  | varMath name left right code => exact hattempt fun v => hmemory _ _

/-- A call that is open after an instruction was open before, or the instruction is a call and has opened it at the
program counter. -/
theorem mem_openCalls_carryOut {index : Option Nat} {inst : Instruction} {entry : Int}
    (h : entry ∈ (m.carryOut index inst).1.openCalls) :
    entry ∈ m.openCalls ∨ entry = m.pc ∧ ∃ count target label, inst = .call count target label := by
  cases hs : m.store with
  | absent | loose =>
    rw [openCalls_carryOut_not_ready (by rw [hs]; rfl)] at h
    cases h
  | ready memory =>
    rw [openCalls_ready hs]
    by_cases hp : inst.isPlain = true
    · obtain ⟨d, fault, _, hd⟩ := carryOut_plain hp (m.scene memory) memory.safe
      rw [hd m memory index hs rfl fun _ => rfl] at h
      exact .inl h
    have hjump {n : Machine} {count : Operand} {target : Int} :
        (n.jump index count target).1.openCalls = n.openCalls := by
      rcases n.jump_cases index count target with ⟨fault, he⟩ | ⟨visits, he⟩ | ⟨visits, he⟩ <;> rw [he] <;> rfl
    cases inst with
    | setup =>
      simp only [carryOut, hs] at h
      cases h
    | pause =>
      have hk : m.pause.openCalls = memory.calls := openCalls_ready (m.keeps_pause.store.trans hs)
      exact .inl (hk ▸ h)
    | safeMode on =>
      simp only [carryOut, setSafe, attemptMemory, hs, Store.setSafe] at h
      exact .inl h
    | jump count target label =>
      rw [carryOut, hjump, openCalls_ready hs] at h
      exact .inl h
    | call count target label =>
      have hcalls : entry ∈ m.pc :: memory.calls := by
        rw [carryOut, call_eq hs] at h
        split at h
        · exact h
        · rw [hjump] at h
          exact h
      rcases List.mem_cons.mp hcalls with he | he
      · exact .inr ⟨he, count, target, label, rfl⟩
      · exact .inl he
    | ret =>
      left
      simp only [carryOut, ret, attemptMemory, hs, Store.memory, Memory.popCall?] at h
      cases hc : memory.calls with
      | nil =>
        rw [hc] at h
        simp [openCalls, say, hs, hc] at h
      | cons last earlier =>
        rw [hc] at h
        dsimp only at h
        apply List.mem_cons_of_mem
        split at h <;> exact h
    | finish | halt =>
      rw [← openCalls_ready hs]
      exact .inl h
    | _ => exact absurd rfl hp

end Machine

/-- No open call has index zero. As long as a call stands at the start of the program, that is because the run has not
got beyond it. -/
structure ZeroFree (m : Machine) : Prop where
  calls : 0 ∉ m.openCalls
  start : ∀ count target label, m.program[0]? = some (.call count target label) →
    m.pc = 0 ∧ m.store = .loose none none

namespace ZeroFree

variable {m n : Machine}

theorem of_keeps (h : ZeroFree m) (hk : m.Keeps n) : ZeroFree n := by
  refine ⟨?_, ?_⟩
  · have ho : n.openCalls = m.openCalls := by simp only [Machine.openCalls, hk.store]
    exact ho ▸ h.calls
  · rw [hk.program, hk.pc, hk.store]
    exact h.start

/-- An instruction opens no call of index zero, and if it goes well, no call stands at the start. -/
theorem carryOut {g : Run} {index : Nat} {inst : Instruction} {fault : Option Fault} (h : ZeroFree g.machine)
    (hf : g.fetch? = some (index, inst)) (hc : g.machine.carryOut (some index) inst = (n, fault)) :
    0 ∉ n.openCalls ∧ (fault = none → ZeroFree (Run.advanced n index inst)) := by
  have hprogram : n.program = g.machine.program := by
    have hp := g.machine.program_carryOut (some index) inst
    rwa [hc] at hp
  by_cases hfirst : ∃ count target label, g.machine.program[0]? = some (.call count target label)
  · -- The run is still at the call that it starts with, and the call finds no memory.
    obtain ⟨count, target, label, hcall⟩ := hfirst
    obtain ⟨hpc, hs⟩ := h.start count target label hcall
    obtain rfl : inst = .call count target label := by
      rw [@Run.fetch?_of_nonneg g 0 _ hpc hcall] at hf
      exact (Prod.ext_iff.mp (Option.some.inj hf)).2.symm
    have hready : g.machine.store.isReady = false := by rw [hs]; rfl
    obtain ⟨missing, he⟩ := Machine.attemptMemory_not_ready hready .calls _
    obtain ⟨rfl, rfl⟩ := Prod.mk.inj (hc.symm.trans he)
    exact ⟨h.calls, fun hfine => absurd hfine (Option.some_ne_none _)⟩
  · have hcalls : 0 ∉ n.openCalls := by
      intro h0
      have hopen : (0 : Int) ∈ (g.machine.carryOut (some index) inst).1.openCalls := by rw [hc]; exact h0
      rcases Machine.mem_openCalls_carryOut hopen with hold | ⟨hpc, count, target, label, rfl⟩
      · exact h.calls hold
      · -- At the program counter zero the instruction is the first one.
        obtain ⟨hindex, hi⟩ := Run.pc_of_fetch? (Int.le_of_eq hpc) hf
        obtain rfl : index = 0 := by omega
        exact hfirst ⟨count, target, label, hi⟩
    refine ⟨hcalls, fun _ => ⟨hcalls, ?_⟩⟩
    intro count target label hcall
    exact absurd ⟨count, target, label, (congrArg (·[0]?) hprogram).symm.trans hcall⟩ hfirst

theorem opening (m : Machine) (actions : List Action) : ZeroFree (m.opening actions).machine :=
  ⟨List.not_mem_nil, fun _ _ _ _ => ⟨rfl, rfl⟩⟩

end ZeroFree

namespace Run

variable {r r' : Run}

theorem Turn.zeroFree {index : Nat} {inst : Instruction} (t : r.Turn index inst r') (h : ZeroFree r.machine) :
    ZeroFree r'.machine := by
  obtain ⟨hf, _, m, n, hk, hc, he⟩ := t.carries
  have hfetch : ({ r with machine := m } : Run).fetch? = some (index, inst) := (fetch?_congr hk).trans hf
  have hfree : ZeroFree ({ r with machine := m } : Run).machine := h.of_keeps hk
  have hcarried := hfree.carryOut hfetch hc
  exact he ▸ hcarried.2 rfl

theorem Leads.zeroFree {executed : List (Nat × Instruction)} (hr : r.Leads executed r') (h : ZeroFree r.machine) :
    ZeroFree r'.machine := by
  induction hr with
  | start => exact h
  | turn _ t ih => exact t.zeroFree ih

/-- A return with an open call goes behind the newest one, if its index is not zero. -/
theorem turn_ret {g : Run} {index : Nat} {newest : Int} {earlier : List Int} (hr : r.machine.running = true)
    (hg : r.announce.passGate = (g, none)) (hf : g.fetch? = some (index, .ret))
    (ho : r.machine.openCalls = newest :: earlier) (hz : newest ≠ 0) :
    ∃ r', r.Turn index .ret r' ∧ r'.machine.pc = newest + 1 ∧ r'.machine.openCalls = earlier := by
  have hk : r.machine.Keeps g.machine := by
    have hp := r.announce.keeps_passGate
    rw [hg] at hp
    exact r.keeps_announce.trans hp
  obtain ⟨memory, hs, hcalls⟩ : ∃ memory, g.machine.store = .ready memory ∧ memory.calls = newest :: earlier := by
    rw [hk.store]
    unfold Machine.openCalls at ho
    cases hs : r.machine.store with
    | ready memory => exact ⟨memory, rfl, by simpa only [hs] using ho⟩
    | absent | loose => simp [hs] at ho
  have hcarried : g.machine.carryOut (some index) .ret = _ := Machine.ret_open hs hcalls hz
  exact ⟨_, turn_of_carryOut hr hg hf rfl hcarried, rfl, rfl⟩

end Run

/-- No return is dropped, whatever the program. For every program that is not empty, made of any instructions with any
targets, and whatever the machine did before: no open call ever has index zero, at any loop head and however the run
ends. So a return that finds a call open goes behind the newest one and takes it away. -/
theorem no_return_is_dropped {m : Machine} (h : 0 < m.program.size) (actions : List Action) :
    (∀ executed r, (m.opening actions).Leads executed r → 0 ∉ r.machine.openCalls ∧
      ∀ g index newest earlier, r.machine.running = true → r.announce.passGate = (g, none) →
        g.fetch? = some (index, .ret) → r.machine.openCalls = newest :: earlier →
        ∃ r', r.Turn index .ret r' ∧ r'.machine.pc = newest + 1 ∧ r'.machine.openCalls = earlier) ∧
    ∀ budget, 0 ∉ (m.execute budget actions).1.machine.openCalls := by
  refine ⟨?_, ?_⟩
  · intro executed r hr
    have hfree := hr.zeroFree (ZeroFree.opening m actions)
    refine ⟨hfree.calls, ?_⟩
    intro g index newest earlier hrun hg hf ho
    refine Run.turn_ret hrun hg hf ho ?_
    rintro rfl
    exact hfree.calls (ho ▸ List.mem_cons_self)
  · intro budget
    rw [Machine.execute_eq h]
    refine @Run.loop_carries ZeroFree (fun n => 0 ∉ n.openCalls) (fun _ _ hk hn => hn.of_keeps hk) ?_ ?_ ?_ budget _
      (ZeroFree.opening m actions)
    · intro n k hk hn
      have ho : k.openCalls = n.openCalls := by simp only [Machine.openCalls, hk.store]
      exact ho ▸ hn
    · exact fun _ => ZeroFree.calls
    · exact fun g index inst n fault hg hf hc => hg.carryOut hf hc

/-- A jump to the last but one instruction, counted from the end, where a counted call goes to a return. -/
theorem call_from_the_end_is_returned :
    let away : Instruction := .jump Operand.absent (-2) .unnamed
    let call : Instruction := .call (.literal (.int 2)) 3 (.named "f")
    let m : Machine := { program := #[.setup, away, call, .ret] }
    0 < m.program.size ∧ ∃ r r', (m.opening []).Leads [(0, .setup), (1, away), (2, call)] r ∧
      r.machine.openCalls = [-2] ∧ r.Turn 3 .ret r' ∧ r'.machine.pc = -1 := by
  intro away call m
  have hsize : 0 < m.program.size := by decide
  let r0 := m.opening []
  have t1 : r0.Turn 0 .setup r0.turn.1 := Run.turn_of_fetch (by decide +kernel) (by decide +kernel)
  have t2 : r0.turn.1.Turn 1 away r0.turn.1.turn.1 := Run.turn_of_fetch (by decide +kernel) (by decide +kernel)
  have t3 : r0.turn.1.turn.1.Turn 2 call r0.turn.1.turn.1.turn.1 :=
    Run.turn_of_fetch (by decide +kernel) (by decide +kernel)
  let r := r0.turn.1.turn.1.turn.1
  have hr : r0.Leads [(0, .setup), (1, away), (2, call)] r := .turn (.turn (.turn .start t1) t2) t3
  have hpasses {passed : Run × Option Outcome} (h : passed.2 = none) : passed = (passed.1, none) := Prod.ext rfl h
  have hgate : r.announce.passGate = (r.announce.passGate.1, none) := hpasses (by decide +kernel)
  have hopen : r.machine.openCalls = [-2] := by decide +kernel
  obtain ⟨r', t, hpc, _⟩ := ((no_return_is_dropped hsize []).1 _ r hr).2 _ 3 (-2) [] (by decide +kernel) hgate
    (by decide +kernel) hopen
  exact ⟨hsize, r, r', hr, hopen, t, hpc⟩

end PointerScript
