import PointerScript.Proofs.ControlFlow

/-! The open calls of a run. They are what is left of the calls carried out when every return has
taken away the newest one, and a return goes behind the call it takes away. -/

namespace PointerScript

/-- The calls among instructions carried out that no later return has taken away, the newest first. A
return when there is none takes nothing away. -/
def unreturned (executed : List (Nat × Instruction)) : List Int :=
  executed.foldl (fun calls e => e.2.track calls e.1) []

namespace Run

variable {safe : Bool} {program : Array Instruction} {r r' : Run} {index : Nat} {inst : Instruction}

/-- A turn of a contained run steers the machine as its instruction does. -/
theorem Turn.steers (hl : Laid safe program) (t : r.Turn index inst r')
    (h : Contained safe program r.machine) : ∃ n, Steers safe program r.machine index inst n ∧
      r'.machine = advanced n index inst := by
  obtain ⟨hpc, hi, _⟩ := t.contained hl h
  obtain ⟨_, _, m, n, hk, hc, he⟩ := t.carries
  have ho : m.openCalls = r.machine.openCalls := by simp only [Machine.openCalls, hk.store]
  have hs := (h.of_keeps hk).steers hl (hk.pc.trans hpc) hi hc
  unfold Steers at hs ⊢
  rw [ho, hk.pc] at hs
  exact ⟨n, hs, he⟩

theorem Turn.openCalls (hl : Laid safe program) (t : r.Turn index inst r')
    (h : Contained safe program r.machine) :
    r'.machine.openCalls = inst.track r.machine.openCalls index := by
  obtain ⟨n, ⟨_, memory, hs, _, ht, _⟩, he⟩ := t.steers hl h
  rw [he, ← ht]
  exact Machine.openCalls_ready hs

theorem Leads.openCalls {executed : List (Nat × Instruction)} (hl : Laid safe program)
    (hr : r.Leads executed r') (h : Contained safe program r.machine) (ho : r.machine.openCalls = []) :
    r'.machine.openCalls = unreturned executed := by
  induction hr with
  | start => exact ho
  | turn hr t ih =>
    rw [t.openCalls hl (hr.contained hl h), ih, unreturned, unreturned, List.foldl_append]
    rfl

/-- A return with no call open falls through; otherwise it goes behind the newest open call. -/
theorem Turn.returns (hl : Laid safe program) (t : r.Turn index .ret r')
    (h : Contained safe program r.machine) :
    (r.machine.openCalls = [] → r'.machine.pc = index + 1) ∧
      ∀ newest earlier, r.machine.openCalls = newest :: earlier → r'.machine.pc = newest + 1 := by
  obtain ⟨hpc, _⟩ := t.contained hl h
  obtain ⟨n, ⟨_, memory, _, _, ht, hcase⟩, he⟩ := t.steers hl h
  have hn : r'.machine.pc = n.pc + 1 := by rw [he]; rfl
  rcases hcase with ⟨hsame, hkept⟩ | ⟨_, _, htarget⟩ | ⟨_, hopen⟩
  · refine ⟨fun _ => by omega, fun newest earlier ho => ?_⟩
    -- The open calls cannot stay as they are when there is one to take away.
    rw [hkept, ho] at ht
    have := congrArg List.length ht
    simp [Instruction.track] at this
  · simp [Instruction.target?] at htarget
  · refine ⟨fun ho => by simp [ho] at hopen, fun newest earlier ho => ?_⟩
    obtain ⟨rfl, _⟩ : newest = n.pc ∧ _ := by simpa [ho] using hopen
    exact hn

/-- The call that opens one call too many ends the run. -/
theorem turn_too_deep (hl : Laid safe program) (h : Contained safe program r.machine)
    (hr : r.machine.running = true) {g : Run} (hg : r.announce.passGate = (g, none)) {count : Operand}
    {target : Int} {label : LabelName} (hf : g.fetch? = some (index, .call count target label))
    (hd : r.machine.openCalls.length + 1 = Memory.callLimit) :
    ∃ r' shown, r.turn = (r', some .returned) ∧ r'.machine.openCalls = (index : Int) :: r.machine.openCalls ∧
      r'.machine.log.back? = some ⟨"Runtime", .critical,
        "Execution of " ++ shown ++ " raised an exception: Maximum recursion depth reached."⟩ := by
  have hk : r.machine.Keeps g.machine := by
    have hp := r.announce.keeps_passGate
    rw [hg] at hp
    exact r.keeps_announce.trans hp
  have hc := h.of_keeps hk
  have ho : g.machine.openCalls = r.machine.openCalls := by simp only [Machine.openCalls, hk.store]
  obtain ⟨hpc, hi⟩ := pc_of_fetch? hc.nonneg hf
  rw [hc.loaded] at hi
  -- A call is neither the first instruction nor another of the initial ones.
  have h0 : index ≠ 0 := by
    rintro rfl
    simp [hl.setup] at hi
  obtain ⟨memory, hs⟩ := hc.ready (by omega)
  have hm := Machine.openCalls_ready hs
  rcases hl.behind h0 hi with hp | hp | ⟨_, rfl, _⟩
  · simp [Instruction.isPlain] at hp
  · simp at hp
  · have hcall : g.machine.carryOut (some index) (.call Operand.absent target label) =
        (g.machine.withCalls memory (g.machine.pc :: memory.calls), some .tooDeep) := by
      have hlimit : memory.calls.length + 1 ≥ Memory.callLimit := by rw [← hm, ho]; omega
      simp only [Machine.carryOut, Machine.call_absent hs, if_pos hlimit]
    have ht := turn_at hr hg hf rfl
    rw [hcall] at ht
    have hmessage : " raised an exception: " ++ Fault.tooDeep.message =
        " raised an exception: Maximum recursion depth reached." := by decide
    refine ⟨_, (Instruction.call Operand.absent target label).text
      ((g.machine.withCalls memory (g.machine.pc :: memory.calls)).visitsAt (some index)), ht, ?_, ?_⟩
    · rw [← ho, hm, ← hpc]
      rfl
    · simp only [failed, Machine.say, Array.back?_push, String.append_assoc, hmessage]

end Run

/-- The return stack of a compiled script, under all actions and faults. At every loop head it holds
exactly the calls that no later return has taken away, all of them calls behind the initial
instructions and at most 4095 of them; a return goes behind the newest of them, or falls through if
there is none; and the call that would be the 4096th ends the run with an error. -/
theorem open_calls_are_unreturned {safe : Bool} {source : String} {program : Array Instruction}
    (h : (compile safe source).1 = .program program) (m : Machine) (actions : List Action)
    (executed : List (Nat × Instruction)) (r : Run)
    (hr : ((m.load program).opening actions).Leads executed r) :
    r.machine.openCalls = unreturned executed ∧
    (∀ entry ∈ r.machine.openCalls, ∃ (index : Nat) (count : Operand) (target : Int) (label : LabelName),
      entry = index ∧ (Standard.initial safe).length ≤ index ∧ index < program.size ∧
      program[index]? = some (.call count target label)) ∧
    r.machine.openCalls.length ≤ 4095 ∧
    (∀ index r', r.Turn index .ret r' →
      (r.machine.openCalls = [] → r'.machine.pc = index + 1) ∧
      ∀ newest earlier, r.machine.openCalls = newest :: earlier → r'.machine.pc = newest + 1) ∧
    ∀ g index count target label, r.machine.running = true → r.announce.passGate = (g, none) →
      g.fetch? = some (index, .call count target label) → r.machine.openCalls.length = 4095 →
      ∃ r' shown, r.turn = (r', some .returned) ∧ r'.machine.openCalls = (index : Int) :: r.machine.openCalls ∧
        r'.machine.log.back? = some ⟨"Runtime", .critical,
          "Execution of " ++ shown ++ " raised an exception: Maximum recursion depth reached."⟩ := by
  have hl := laid_of_compile h
  have hopen := contained_opening safe program m actions
  have hc := hr.contained hl hopen
  refine ⟨hr.openCalls hl hopen rfl, ?_, Nat.le_of_lt_succ hc.depth, ?_, ?_⟩
  · intro entry he
    obtain ⟨hlow, index, count, target, label, rfl, hi⟩ := hc.calls entry he
    exact ⟨index, count, target, label, rfl, Int.ofNat_le.mp hlow, (Array.getElem?_eq_some_iff.mp hi).1, hi⟩
  · exact fun index r' t => t.returns hl hc
  · intro g index count target label hrun hg hf hd
    exact Run.turn_too_deep hl hc hrun hg hf (by rw [hd]; rfl)

/-- A call within a call: both are open, a return goes behind the inner one, and then the outer one is left. -/
theorem nested_call_returns_to_its_caller :
    let source := "call f\nend\nlabel f\ncall g\nreturn\nlabel g\nreturn"
    let wait : Instruction := .wait (.literal (.float (Decimal.nearest false ⟨5, -1⟩)))
    let outer : Instruction := .call Operand.absent 4 (.named "f")
    let inner : Instruction := .call Operand.absent 6 (.named "g")
    let program := #[.setup, wait, outer, .finish, inner, .ret, .ret]
    let executed := [(0, .setup), (1, wait), (2, outer), (4, inner)]
    let r0 := (({} : Machine).load program).opening []
    (compile false source).1 = .program program ∧
    ∃ r r', r0.Leads executed r ∧ r.machine.openCalls = [4, 2] ∧ r.Turn 6 .ret r' ∧ r'.machine.pc = 4 + 1 ∧
      r0.Leads (executed ++ [(6, .ret)]) r' ∧ r'.machine.openCalls = [2] := by
  intro source wait outer inner program executed r0
  have hc : (compile false source).1 = .program program := by decide +kernel
  let r1 := r0.turn.1
  let r2 := r1.turn.1
  let r3 := r2.turn.1
  let r4 := r3.turn.1
  have t1 : r0.Turn 0 .setup r1 := Run.turn_of_fetch (by decide +kernel) (by decide +kernel)
  have t2 : r1.Turn 1 wait r2 := Run.turn_of_fetch (by decide +kernel) (by decide +kernel)
  have t3 : r2.Turn 2 outer r3 := Run.turn_of_fetch (by decide +kernel) (by decide +kernel)
  have t4 : r3.Turn 4 inner r4 := Run.turn_of_fetch (by decide +kernel) (by decide +kernel)
  have t5 : r4.Turn 6 .ret r4.turn.1 := Run.turn_of_fetch (by decide +kernel) (by decide +kernel)
  have hr : r0.Leads executed r4 := .turn (.turn (.turn (.turn .start t1) t2) t3) t4
  have hr' : r0.Leads (executed ++ [(6, .ret)]) r4.turn.1 := .turn hr t5
  obtain ⟨hopen, _, _, hreturn, _⟩ := open_calls_are_unreturned hc {} [] _ _ hr
  exact ⟨hc, r4, _, hr, hopen, t5, (hreturn 6 _ t5).2 4 [2] hopen, hr',
    (open_calls_are_unreturned hc {} [] _ _ hr').1⟩

end PointerScript
